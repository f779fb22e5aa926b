/-
What one request can do to the board.

Every later proof asks the same questions of a handler: which calls did it make,
in which order, what did it leave in the globals, what did it return.  They are
answered here once, case by case, so that no invariant has to unfold a handler
again.

`Message1Ran` and `Message3Ran` list the ways through the two halves of the
critical section, one constructor for each call that can be the one that fails;
`Replied` lists the ways out of it.  `edhocPost_ran` puts them together, and
`Message3Ran.failed_or_keyed` sums the second half up for whoever only asks whether
OSCORE was keyed.
`OscoreRan` and `AppRan` do the same for the other two handlers.
-/
import UsbNcmNet.Board

namespace UsbNcmNet

variable {σ α β : Type}

/-! ### Running a handler -/

@[simp] theorem edhoc_success : EDHOC_SUCCESS = 0 := rfl

@[simp] theorem Fw.exec_pure (a : α) (b : Board σ) : Fw.exec (pure a) b = (a, b) := rfl

@[simp] theorem Fw.exec_bind (m : Fw σ α) (f : α → Fw σ β) (b : Board σ) :
    Fw.exec (m >>= f) b = (f (m.exec b).1).exec (m.exec b).2 := rfl

@[simp] theorem Fw.exec_map (f : α → β) (m : Fw σ α) (b : Board σ) :
    Fw.exec (f <$> m) b = (f (m.exec b).1, (m.exec b).2) := rfl

@[simp] theorem Fw.exec_get (b : Board σ) : Fw.exec (get : Fw σ (Board σ)) b = (b, b) := rfl

@[simp] theorem Fw.exec_call (c : Call σ) (b : Board σ) :
    (call c).exec b = ((), { b with log := b.log ++ [c] }) := rfl

@[simp] theorem Fw.exec_update (f : Device σ → Device σ) (b : Board σ) :
    (update f).exec b = ((), { b with dev := f b.dev }) := rfl

@[simp] theorem Fw.exec_ite (p : Prop) [Decidable p] (m n : Fw σ α) (b : Board σ) :
    Fw.exec (if p then m else n) b = if p then m.exec b else n.exec b := by
  split <;> rfl

/-! ### Setting a context up -/

/-- Every configuration call of `edhoc_setup` succeeds. -/
def Engine.configures (eng : Engine σ) : Bool :=
  setupCalls.all fun c => eng.configure c == EDHOC_SUCCESS

/-- The configuration calls made: all up to and including the first that fails. -/
def configureLog (eng : Engine σ) : List SetupCall → List (Call σ)
  | [] => []
  | c :: rest =>
      .configure c (eng.configure c) ::
        if eng.configure c = EDHOC_SUCCESS then configureLog eng rest else []

theorem mem_configureLog {eng : Engine σ} {c : Call σ} :
    ∀ {cs : List SetupCall}, c ∈ configureLog eng cs → ∃ s r, c = .configure s r := by
  intro cs
  induction cs with
  | nil => intro h; simp [configureLog] at h
  | cons s rest ih =>
      intro h
      rw [configureLog, List.mem_cons] at h
      rcases h with rfl | h
      · exact ⟨s, _, rfl⟩
      · split at h
        · exact ih h
        · simp at h

theorem configureAll_exec (eng : Engine σ) (cs : List SetupCall) :
    ∀ b : Board σ, ∃ rc,
      (configureAll eng cs).exec b = (rc, { b with log := b.log ++ configureLog eng cs }) ∧
      (rc = EDHOC_SUCCESS ↔ (cs.all fun c => eng.configure c == EDHOC_SUCCESS) = true) := by
  induction cs with
  | nil => intro b; exact ⟨EDHOC_SUCCESS, by simp [configureAll, configureLog], by simp⟩
  | cons c rest ih =>
      intro b
      by_cases h : eng.configure c = EDHOC_SUCCESS
      · obtain ⟨rc, hrun, hiff⟩ :=
          ih { b with log := b.log ++ [.configure c (eng.configure c)] }
        refine ⟨rc, ?_, ?_⟩
        · rw [configureAll, Fw.exec_bind, Fw.exec_call, if_neg (not_not_intro h), hrun]
          simp [configureLog, h]
        · rw [hiff]; simp [h]
      · refine ⟨eng.configure c, ?_, ?_⟩
        · simp only [edhoc_success] at h
          simp [configureAll, configureLog, h]
        · simp only [edhoc_success] at h
          simp [h]

/-- A failed `edhoc_context_init` ends `edhoc_setup` at once. -/
theorem edhocSetup_exec_of_init {eng : Engine σ} (h : eng.contextInit ≠ EDHOC_SUCCESS)
    (b : Board σ) :
    (edhocSetup eng).exec b
      = (eng.contextInit, { b with log := b.log ++ [.contextInit eng.contextInit] }) := by
  simp only [edhoc_success] at h
  simp [edhocSetup, h]

theorem edhocSetup_exec {eng : Engine σ} (h : eng.contextInit = EDHOC_SUCCESS) (b : Board σ) :
    ∃ rc, (edhocSetup eng).exec b
      = (rc, { b with log := b.log ++ .contextInit 0 :: configureLog eng setupCalls }) ∧
      (rc = EDHOC_SUCCESS ↔ eng.configures = true) := by
  obtain ⟨rc, hrun, hiff⟩ := configureAll_exec eng setupCalls
    { b with log := b.log ++ [.contextInit 0] }
  refine ⟨rc, ?_, hiff⟩
  simp only [edhoc_success] at h
  simp [edhocSetup, h, hrun]

/-! ### The message_1 half -/

/-- The calls of a message_1 POST before the new context: a pending one is dropped. -/
def resetLog (d : Device σ) : List (Call σ) := if d.edhocCtxActive then [.contextDeinit] else []

/-- The calls of a setup in which every step succeeds. -/
def setupLog (eng : Engine σ) : List (Call σ) := .contextInit 0 :: configureLog eng setupCalls

/-- The globals once a message_1 has gone through the reset: no session, `active` as given. -/
def Device.afterMessage1 (d : Device σ) (active : Bool) : Device σ :=
  { d with oscoreReady := false, edhocCtxActive := active }

/-- The ways through the message_1 half: `rc`, message_2, the globals, the calls after the reset. -/
inductive Message1Ran (eng : Engine σ) (msg : Bytes) (d : Device σ) :
    Int → Bytes → Device σ → List (Call σ) → Prop
  | initFailed (hinit : eng.contextInit ≠ 0) :
      Message1Ran eng msg d eng.contextInit [] (d.afterMessage1 false)
        [.contextInit eng.contextInit]
  | configureFailed {rc : Int} (hinit : eng.contextInit = 0) (hconf : eng.configures = false)
      (hrc : rc ≠ 0) :
      Message1Ran eng msg d rc [] (d.afterMessage1 false) (setupLog eng)
  | message1Failed (hinit : eng.contextInit = 0) (hconf : eng.configures = true)
      (hm1 : eng.message1Process ≠ 0) :
      Message1Ran eng msg d eng.message1Process [] (d.afterMessage1 false)
        (setupLog eng ++ [.message1Process msg eng.message1Process, .contextDeinit])
  | message2Failed (hinit : eng.contextInit = 0) (hconf : eng.configures = true)
      (hm1 : eng.message1Process = 0) (hm2 : eng.message2Compose.ret ≠ 0) :
      Message1Ran eng msg d eng.message2Compose.ret eng.message2Compose.out
        (d.afterMessage1 false)
        (setupLog eng ++ [.message1Process msg 0, .message2Compose eng.message2Compose.ret,
          .contextDeinit])
  | composed (hinit : eng.contextInit = 0) (hconf : eng.configures = true)
      (hm1 : eng.message1Process = 0) (hm2 : eng.message2Compose.ret = 0) :
      Message1Ran eng msg d 0 eng.message2Compose.out (d.afterMessage1 true)
        (setupLog eng ++ [.message1Process msg 0, .message2Compose 0])

/-- Resetting drops the pending context, its flag and the session. -/
private theorem reset_exec (b : Board σ) (rest : Fw σ α) :
    Fw.exec (do
        if (← get).dev.edhocCtxActive then
          call .contextDeinit
          update fun d => { d with edhocCtxActive := false }
        update fun d => { d with oscoreReady := false }
        rest) b
      = rest.exec { dev := b.dev.afterMessage1 false, log := b.log ++ resetLog b.dev } := by
  cases h : b.dev.edhocCtxActive <;> simp [h, resetLog, Device.afterMessage1]

theorem edhocMessage1_ran (eng : Engine σ) (msg : Bytes) (b : Board σ) :
    ∃ rc out d cs, Message1Ran eng msg b.dev rc out d cs ∧
      (edhocMessage1 eng msg).exec b
        = ((rc, out), { dev := d, log := b.log ++ (resetLog b.dev ++ cs) }) := by
  unfold edhocMessage1
  rw [reset_exec]
  by_cases hinit : eng.contextInit = 0
  · obtain ⟨rc, hrun, hiff⟩ := edhocSetup_exec hinit
      { dev := b.dev.afterMessage1 false, log := b.log ++ resetLog b.dev }
    cases hconf : eng.configures with
    | false =>
        have hrc : rc ≠ 0 := by
          intro hc
          rw [hiff.mp hc] at hconf
          exact Bool.noConfusion hconf
        refine ⟨_, _, _, _, .configureFailed hinit hconf hrc, ?_⟩
        rw [Fw.exec_bind, hrun]
        simp [hrc, setupLog, Device.afterMessage1]
    | true =>
        have hrc : rc = 0 := hiff.mpr hconf
        subst hrc
        by_cases hm1 : eng.message1Process = 0
        · by_cases hm2 : eng.message2Compose.ret = 0
          · refine ⟨_, _, _, _, .composed hinit hconf hm1 hm2, ?_⟩
            rw [Fw.exec_bind, hrun]
            simp [hm1, hm2, setupLog, Device.afterMessage1]
          · refine ⟨_, _, _, _, .message2Failed hinit hconf hm1 hm2, ?_⟩
            rw [Fw.exec_bind, hrun]
            simp [hm1, hm2, setupLog, Device.afterMessage1]
        · refine ⟨_, _, _, _, .message1Failed hinit hconf hm1, ?_⟩
          rw [Fw.exec_bind, hrun]
          simp [hm1, setupLog, Device.afterMessage1]
  · refine ⟨_, _, _, _, .initFailed hinit, ?_⟩
    rw [Fw.exec_bind, edhocSetup_exec_of_init hinit]
    simp [hinit, Device.afterMessage1]

/-! ### The message_3 half -/

/-- The ways through the message_3 half: `rc`, message_4, the globals, the calls. -/
inductive Message3Ran (eng : Engine σ) (msg : Bytes) (d : Device σ) :
    Int → Bytes → Device σ → List (Call σ) → Prop
  | noHandshake (hactive : d.edhocCtxActive = false) : Message3Ran eng msg d (-EINVAL) [] d []
  | message3Failed (hactive : d.edhocCtxActive = true) (hm3 : eng.message3Process ≠ 0) :
      Message3Ran eng msg d eng.message3Process [] { d with edhocCtxActive := false }
        [.message3Process msg eng.message3Process, .contextDeinit]
  | message4Failed (hactive : d.edhocCtxActive = true) (hm3 : eng.message3Process = 0)
      (hm4 : eng.message4Compose.ret ≠ 0) :
      Message3Ran eng msg d eng.message4Compose.ret eng.message4Compose.out
        { d with edhocCtxActive := false }
        [.message3Process msg 0, .message4Compose eng.message4Compose.ret, .contextDeinit]
  | exportFailed (hactive : d.edhocCtxActive = true) (hm3 : eng.message3Process = 0)
      (hm4 : eng.message4Compose.ret = 0) (hexp : eng.exportOscoreSession.ret ≠ 0) :
      Message3Ran eng msg d (- EIO) eng.message4Compose.out
        { d with keys := eng.exportOscoreSession.keys, edhocCtxActive := false }
        [.message3Process msg 0, .message4Compose 0,
          .exportOscoreSession eng.exportOscoreSession, .contextDeinit]
  | contextFailed (hactive : d.edhocCtxActive = true) (hm3 : eng.message3Process = 0)
      (hm4 : eng.message4Compose.ret = 0) (hexp : eng.exportOscoreSession.ret = 0)
      (hctx : eng.oscoreContextInit.1 ≠ .ok) :
      Message3Ran eng msg d (- EIO) eng.message4Compose.out
        { d with
          keys := eng.exportOscoreSession.keys, oscoreCtx := eng.oscoreContextInit.2
          edhocCtxActive := false }
        [.message3Process msg 0, .message4Compose 0,
          .exportOscoreSession eng.exportOscoreSession,
          .oscoreContextInit eng.exportOscoreSession.params eng.oscoreContextInit.1
            eng.oscoreContextInit.2,
          .contextDeinit]
  | keyed (hactive : d.edhocCtxActive = true) (hm3 : eng.message3Process = 0)
      (hm4 : eng.message4Compose.ret = 0) (hexp : eng.exportOscoreSession.ret = 0)
      (hctx : eng.oscoreContextInit.1 = .ok) :
      Message3Ran eng msg d 0 eng.message4Compose.out
        { d with
          keys := eng.exportOscoreSession.keys, oscoreCtx := eng.oscoreContextInit.2
          oscoreReady := true, edhocCtxActive := false }
        [.message3Process msg 0, .message4Compose 0,
          .exportOscoreSession eng.exportOscoreSession,
          .oscoreContextInit eng.exportOscoreSession.params .ok eng.oscoreContextInit.2,
          .contextDeinit]

theorem edhocMessage3_ran (eng : Engine σ) (msg : Bytes) (b : Board σ) :
    ∃ rc out d cs, Message3Ran eng msg b.dev rc out d cs ∧
      (edhocMessage3 eng msg).exec b = ((rc, out), { dev := d, log := b.log ++ cs }) := by
  cases hactive : b.dev.edhocCtxActive with
  | false =>
      refine ⟨_, _, _, _, .noHandshake hactive, ?_⟩
      simp [edhocMessage3, hactive]
  | true =>
      by_cases hm3 : eng.message3Process = 0
      · by_cases hm4 : eng.message4Compose.ret = 0
        · by_cases hexp : eng.exportOscoreSession.ret = 0
          · by_cases hctx : eng.oscoreContextInit.1 = .ok
            · refine ⟨_, _, _, _, .keyed hactive hm3 hm4 hexp hctx, ?_⟩
              simp [edhocMessage3, deriveAndInitOscore, hactive, hm3, hm4, hexp, hctx]
            · refine ⟨_, _, _, _, .contextFailed hactive hm3 hm4 hexp hctx, ?_⟩
              simp [edhocMessage3, deriveAndInitOscore, hactive, hm3, hm4, hexp, hctx]
          · refine ⟨_, _, _, _, .exportFailed hactive hm3 hm4 hexp, ?_⟩
            simp [edhocMessage3, deriveAndInitOscore, hactive, hm3, hm4, hexp]
        · refine ⟨_, _, _, _, .message4Failed hactive hm3 hm4, ?_⟩
          simp [edhocMessage3, hactive, hm3, hm4]
      · refine ⟨_, _, _, _, .message3Failed hactive hm3, ?_⟩
        simp [edhocMessage3, hactive, hm3]

/-- The calls of the message_3 half that settle nothing: no key is set and nothing is sent. -/
def Call.inconclusive : Call σ → Bool
  | .message3Process _ _ | .message4Compose _ | .exportOscoreSession _ | .contextDeinit => true
  | .oscoreContextInit _ err _ => decide (err ≠ .ok)
  | _ => false

/-- The calls that a session is made by: a context, its configuration, a message_1, the keys. -/
def Call.settles : Call σ → Bool
  | .contextInit _ | .configure _ _ | .message1Process _ _ => true
  | .oscoreContextInit _ err _ => decide (err = .ok)
  | _ => false

theorem settles_of_inconclusive {c : Call σ} (h : c.inconclusive = true) : c.settles = false := by
  cases c with
  | oscoreContextInit params err ctx =>
      have herr : err ≠ .ok := of_decide_eq_true h
      exact decide_eq_false herr
  | message3Process _ _ | message4Compose _ | exportOscoreSession _ | contextDeinit => rfl
  | _ => exact Bool.noConfusion h

/-- A message_3 half that does not key OSCORE, whichever call is to blame. -/
structure Message3Failed (eng : Engine σ) (d : Device σ) (rc : Int) (d' : Device σ)
    (cs : List (Call σ)) : Prop where
  cause : ¬ (d.edhocCtxActive = true ∧ eng.message3Process = 0 ∧ eng.message4Compose.ret = 0 ∧
    eng.exportOscoreSession.ret = 0 ∧ eng.oscoreContextInit.1 = .ok)
  rc : rc ≠ 0
  ready : d'.oscoreReady = d.oscoreReady
  idle : d'.edhocCtxActive = false
  calls : ∀ c ∈ cs, c.inconclusive = true

/-- One that does. -/
structure Message3Keyed (eng : Engine σ) (msg : Bytes) (d : Device σ) (rc : Int) (out : Bytes)
    (d' : Device σ) (cs : List (Call σ)) : Prop where
  active : d.edhocCtxActive = true
  message3 : eng.message3Process = 0
  message4 : eng.message4Compose.ret = 0
  exported : eng.exportOscoreSession.ret = 0
  context : eng.oscoreContextInit.1 = .ok
  rc : rc = 0
  out : out = eng.message4Compose.out
  dev : d' = { d with
    keys := eng.exportOscoreSession.keys, oscoreCtx := eng.oscoreContextInit.2
    oscoreReady := true, edhocCtxActive := false }
  calls : cs = [.message3Process msg 0, .message4Compose 0,
    .exportOscoreSession eng.exportOscoreSession,
    .oscoreContextInit eng.exportOscoreSession.params .ok eng.oscoreContextInit.2,
    .contextDeinit]

theorem Message3Failed.settles {eng : Engine σ} {d d' : Device σ} {rc : Int} {cs : List (Call σ)}
    (h : Message3Failed eng d rc d' cs) : ∀ c ∈ cs, c.settles = false :=
  fun c hc => settles_of_inconclusive (h.calls c hc)

theorem Message3Ran.failed_or_keyed {eng : Engine σ} {msg out : Bytes} {rc : Int}
    {d d' : Device σ} {cs : List (Call σ)} (h : Message3Ran eng msg d rc out d' cs) :
    Message3Failed eng d rc d' cs ∨ Message3Keyed eng msg d rc out d' cs := by
  cases h with
  | noHandshake hactive =>
      exact .inl ⟨by simp [hactive], by decide, rfl, hactive, by simp⟩
  | message3Failed _ hm3 =>
      exact .inl ⟨by simp [hm3], hm3, rfl, rfl, by simp [Call.inconclusive]⟩
  | message4Failed _ _ hm4 =>
      exact .inl ⟨by simp [hm4], hm4, rfl, rfl, by simp [Call.inconclusive]⟩
  | exportFailed _ _ _ hexp =>
      exact .inl ⟨by simp [hexp], by decide, rfl, rfl, by simp [Call.inconclusive]⟩
  | contextFailed _ _ _ _ hctx =>
      exact .inl ⟨by simp [hctx], by decide, rfl, rfl, by simp [Call.inconclusive, hctx]⟩
  | keyed hactive hm3 hm4 hexp hctx =>
      exact .inr ⟨hactive, hm3, hm4, hexp, hctx, rfl, rfl, rfl, rfl⟩

/-! ### The way out, and the whole handler -/

/-- The ways out of the critical section: what is returned, and what is sent. -/
inductive Replied (eng : Engine σ) (request : Request) (rc : Int) (out : Bytes) :
    Int → List (Call σ) → Prop
  | failed (hrc : rc ≠ 0) : Replied eng request rc out (-EBADMSG) []
  | noRoom {r : Int} (hrc : rc = 0) (hbuild : edhocResponse request out = .error r) :
      Replied eng request rc out r []
  | sent {p : Packet} (hrc : rc = 0) (hbuild : edhocResponse request out = .ok p) :
      Replied eng request rc out eng.send [.coapResourceSend (.packet p)]

/-- A failure is answered with silence. -/
theorem Replied.silent {eng : Engine σ} {request : Request} {rc ret : Int} {out : Bytes}
    {tail : List (Call σ)} (h : Replied eng request rc out ret tail) (hrc : rc ≠ 0) :
    tail = [] := by
  cases h with
  | failed _ => rfl
  | noRoom hzero _ => exact absurd hzero hrc
  | sent hzero _ => exact absurd hzero hrc

theorem edhocReply_ran (eng : Engine σ) (request : Request) (rc : Int) (out : Bytes)
    (b : Board σ) :
    ∃ ret tail, Replied eng request rc out ret tail ∧
      (edhocReply eng request rc out).exec b = (ret, { b with log := b.log ++ tail }) := by
  by_cases hrc : rc = 0
  · cases hbuild : edhocResponse request out with
    | error r => exact ⟨_, _, .noRoom hrc hbuild, by simp [edhocReply, hrc, hbuild]⟩
    | ok p => exact ⟨_, _, .sent hrc hbuild, by simp [edhocReply, hrc, hbuild]⟩
  · exact ⟨_, _, .failed hrc, by simp [edhocReply, hrc]⟩

/-- Everything an EDHOC POST can do: what it returns and the board it leaves. -/
inductive EdhocRan (eng : Engine σ) (request : Request) (b : Board σ) : Int → Board σ → Prop
  | rejected {r : Int} (hframe : edhocDeframe request.payload = .error r) :
      EdhocRan eng request b r { b with log := b.log ++ [.edhocPost request.payload] }
  | message1 {msg out : Bytes} {rc ret : Int} {d : Device σ} {cs tail : List (Call σ)}
      (hframe : edhocDeframe request.payload = .ok (.message1 msg))
      (hran : Message1Ran eng msg b.dev rc out d cs)
      (hreply : Replied eng request rc out ret tail) :
      EdhocRan eng request b ret
        { dev := d
          log := b.log ++ (.edhocPost request.payload :: (resetLog b.dev ++ cs) ++ tail) }
  | message3 {msg out : Bytes} {rc ret : Int} {d : Device σ} {cs tail : List (Call σ)}
      (hframe : edhocDeframe request.payload = .ok (.message3 msg))
      (hran : Message3Ran eng msg b.dev rc out d cs)
      (hreply : Replied eng request rc out ret tail) :
      EdhocRan eng request b ret
        { dev := d, log := b.log ++ (.edhocPost request.payload :: cs ++ tail) }

/-- **What an EDHOC POST can do.** -/
theorem edhocPost_ran (eng : Engine σ) (request : Request) (b : Board σ) :
    EdhocRan eng request b (b.ret (.edhoc request eng)) (b.step (.edhoc request eng)) := by
  unfold Board.ret Board.step Event.handler edhocPost
  rw [Fw.exec_bind, Fw.exec_call]
  cases hframe : edhocDeframe request.payload with
  | error r => exact .rejected hframe
  | ok framed =>
      cases framed with
      | message1 msg =>
          obtain ⟨rc, out, d, cs, hran, hrun⟩ := edhocMessage1_ran eng msg
            { b with log := b.log ++ [.edhocPost request.payload] }
          obtain ⟨ret, tail, hreply, hrun'⟩ := edhocReply_ran eng request rc out
            { dev := d
              log := b.log ++ [.edhocPost request.payload] ++ (resetLog b.dev ++ cs) }
          simp only [Fw.exec_bind, hrun, hrun']
          have hpost := EdhocRan.message1 (b := b) hframe hran hreply
          simpa using hpost
      | message3 msg =>
          obtain ⟨rc, out, d, cs, hran, hrun⟩ := edhocMessage3_ran eng msg
            { b with log := b.log ++ [.edhocPost request.payload] }
          obtain ⟨ret, tail, hreply, hrun'⟩ := edhocReply_ran eng request rc out
            { dev := d, log := b.log ++ [.edhocPost request.payload] ++ cs }
          simp only [Fw.exec_bind, hrun, hrun']
          have hpost := EdhocRan.message3 (b := b) hframe hran hreply
          simpa using hpost

/-! ### The first byte decides -/

theorem edhocDeframe_message1 {payload : Option Bytes} {msg : Bytes}
    (h : edhocDeframe payload = .ok (.message1 msg)) : startsMessage1 payload = true := by
  cases payload with
  | none => simp [edhocDeframe] at h
  | some p =>
      cases p with
      | nil => simp [edhocDeframe] at h
      | cons x p =>
          by_cases hx : x = 0xf5
          · simp [startsMessage1, hx]
          · rw [edhocDeframe, if_neg (by simp), if_neg (by simpa using hx)] at h
            dsimp only at h
            split at h <;> simp at h

theorem edhocDeframe_of_startsMessage1 {payload : Option Bytes}
    (h : startsMessage1 payload = true) :
    ∃ msg, edhocDeframe payload = .ok (.message1 msg) := by
  cases payload with
  | none => simp [startsMessage1] at h
  | some p =>
      cases p with
      | nil => simp [startsMessage1] at h
      | cons x p =>
          have hx : x = 0xf5 := by simpa [startsMessage1] using h
          exact ⟨p, by simp [edhocDeframe, hx]⟩

theorem not_startsMessage1_of_error {payload : Option Bytes} {r : Int}
    (h : edhocDeframe payload = .error r) : startsMessage1 payload = false := by
  by_contra hc
  obtain ⟨msg, hmsg⟩ := edhocDeframe_of_startsMessage1 (by simpa using hc)
  rw [hmsg] at h
  simp at h

theorem not_startsMessage1_of_message3 {payload : Option Bytes} {msg : Bytes}
    (h : edhocDeframe payload = .ok (.message3 msg)) : startsMessage1 payload = false := by
  by_contra hc
  obtain ⟨msg', hmsg⟩ := edhocDeframe_of_startsMessage1 (by simpa using hc)
  rw [hmsg] at h
  simp at h

/-- A POST that begins with 0xf5 goes through the message_1 half and out. -/
theorem edhocPost_message1 {b : Board σ} {request : Request} (eng : Engine σ)
    (hstart : startsMessage1 request.payload = true) :
    ∃ msg out rc d cs tail, Message1Ran eng msg b.dev rc out d cs ∧
      Replied eng request rc out (b.ret (.edhoc request eng)) tail ∧
      b.step (.edhoc request eng) =
        { dev := d
          log := b.log ++ (.edhocPost request.payload :: (resetLog b.dev ++ cs) ++ tail) } := by
  have hran := edhocPost_ran eng request b
  generalize b.ret (.edhoc request eng) = r, b.step (.edhoc request eng) = b' at hran
  cases hran with
  | rejected hframe => simp [not_startsMessage1_of_error hframe] at hstart
  | message1 _ hran hreply => exact ⟨_, _, _, _, _, _, hran, hreply, rfl⟩
  | message3 hframe _ _ => simp [not_startsMessage1_of_message3 hframe] at hstart

/-- With no handshake pending, every other POST is turned away. -/
theorem edhocPost_of_idle {b : Board σ} {request : Request} (eng : Engine σ)
    (hidle : b.dev.edhocCtxActive = false) (hstart : startsMessage1 request.payload = false) :
    b.step (.edhoc request eng) = { b with log := b.log ++ [.edhocPost request.payload] } := by
  have hran := edhocPost_ran eng request b
  generalize b.ret (.edhoc request eng) = r, b.step (.edhoc request eng) = b' at hran
  cases hran with
  | rejected _ => rfl
  | message1 hframe _ _ => simp [edhocDeframe_message1 hframe] at hstart
  | message3 _ hran hreply =>
      cases hran with
      | noHandshake _ =>
          obtain rfl := hreply.silent (by decide)
          rfl
      | _ hactive => simp [hidle] at hactive

end UsbNcmNet
