/-
What a request in the clear can be told by.

Three handlers share one set of globals, and what one of them does shows in another only
where that one looks.  For a relation between globals, `Blind` says of a handler that it
cannot tell related boards apart: it returns the same, makes the same calls with the same
arguments, and leaves related boards.  With that, unwinding says what may be left out of
a run.

The responder looks at nothing that is not its own.  The intercept does, since it has
`coap2oscore` protect what the dispatcher builds; but of all responses only the one to
`GET /led` is built from something that a request in the clear can change.
-/
import UsbNcmNet.Proofs.Led

namespace UsbNcmNet

variable {σ α : Type}

/-! ### Handlers that cannot tell boards apart -/

/-- On related boards: the same result and the same calls, and related boards again. -/
def Blind (R : Device σ → Device σ → Prop) (m : Fw σ α) : Prop :=
  ∀ b b' : Board σ, R b.dev b'.dev →
    (m.exec b).1 = (m.exec b').1 ∧ R (m.exec b).2.dev (m.exec b').2.dev ∧
      ∃ new, (m.exec b).2.log = b.log ++ new ∧ (m.exec b').2.log = b'.log ++ new

/-- A relation that keeps what the handlers test, and that their writes keep. -/
structure Respected (R : Device σ → Device σ → Prop) : Prop where
  active : ∀ {d d'}, R d d' → d.edhocCtxActive = d'.edhocCtxActive
  ready : ∀ {d d'}, R d d' → d.oscoreReady = d'.oscoreReady
  setActive : ∀ v d d', R d d' → R { d with edhocCtxActive := v } { d' with edhocCtxActive := v }
  setReady : ∀ v d d', R d d' → R { d with oscoreReady := v } { d' with oscoreReady := v }
  setKeys : ∀ keys d d', R d d' → R { d with keys := keys } { d' with keys := keys }
  setCtx : ∀ ctx d d', R d d' → R { d with oscoreCtx := ctx } { d' with oscoreCtx := ctx }

namespace Blind

variable {β : Type} {R : Device σ → Device σ → Prop}

theorem pure (a : α) : Blind R (Pure.pure a : Fw σ α) := by
  intro b b' h
  exact ⟨rfl, h, [], by simp⟩

theorem bind {m : Fw σ α} {k : α → Fw σ β} (hm : Blind R m) (hk : ∀ a, Blind R (k a)) :
    Blind R (m >>= k) := by
  intro b b' h
  obtain ⟨hret, hrel, new, hlog, hlog'⟩ := hm b b' h
  obtain ⟨hret₂, hrel₂, new₂, hlog₂, hlog₂'⟩ := hk (m.exec b).1 _ _ hrel
  rw [Fw.exec_bind, Fw.exec_bind, ← hret]
  refine ⟨hret₂, hrel₂, new ++ new₂, ?_, ?_⟩
  · rw [hlog₂, hlog, List.append_assoc]
  · rw [hlog₂', hlog', List.append_assoc]

theorem ite {c : Prop} [Decidable c] {m n : Fw σ α} (hm : Blind R m) (hn : Blind R n) :
    Blind R (if c then m else n) := by
  split
  · exact hm
  · exact hn

theorem call (c : Call σ) : Blind R (UsbNcmNet.call c) := by
  intro b b' h
  exact ⟨rfl, h, [c], rfl, rfl⟩

theorem update {f : Device σ → Device σ} (hf : ∀ d d', R d d' → R (f d) (f d')) :
    Blind R (UsbNcmNet.update f) := by
  intro b b' h
  exact ⟨rfl, hf _ _ h, [], by simp⟩

/-- Reading the globals is fine where the handler goes on the same way on related ones. -/
theorem get {k : Board σ → Fw σ α} (hk : ∀ b, Blind R (k b))
    (hread : ∀ b b' : Board σ, R b.dev b'.dev → k b = k b') :
    Blind R (MonadState.get >>= k) := by
  intro b b' h
  have hexec : (MonadState.get >>= k).exec b' = (k b).exec b' := by
    rw [hread b b' h]
    rfl
  rw [hexec]
  exact hk b b b' h

/-- The dispatcher reads the LED, writes it, and has a response built. -/
theorem dispatch {gpio : Int} {request : Request} {bufLen : Nat} {rest : Packet → Fw σ Int}
    (hled : ∀ d d' : Device σ, R d d' →
      let answer := coapServerDispatchInner gpio request bufLen d.led
      let answer' := coapServerDispatchInner gpio request bufLen d'.led
      answer.1 = answer'.1 ∧ R { d with led := answer.2 } { d' with led := answer'.2 })
    (hrest : ∀ response, Blind R (rest response)) :
    Blind R (do
      let answer := coapServerDispatchInner gpio request bufLen (← MonadState.get).dev.led
      UsbNcmNet.call (.dispatchInner request answer.1)
      UsbNcmNet.update fun d => { d with led := answer.2 }
      match answer.1 with
      | .error r => return r
      | .ok response => rest response) := by
  intro b b' h
  obtain ⟨hbuilt, hrel⟩ := hled b.dev b'.dev h
  simp only [Fw.exec_bind, Fw.exec_get, Fw.exec_call, Fw.exec_update, ← hbuilt]
  rcases (coapServerDispatchInner gpio request bufLen b.dev.led).1 with r | response
  · exact ⟨rfl, hrel, [.dispatchInner request (.error r)], rfl, rfl⟩
  · obtain ⟨hret, hrel', new, hlog, hlog'⟩ := hrest response
      ⟨_, b.log ++ [.dispatchInner request (.ok response)]⟩
      ⟨_, b'.log ++ [.dispatchInner request (.ok response)]⟩ hrel
    refine ⟨hret, hrel', .dispatchInner request (.ok response) :: new, ?_, ?_⟩
    · rw [hlog, List.append_assoc]
      rfl
    · rw [hlog', List.append_assoc]
      rfl

/-! ### The responder -/

theorem configureAll (eng : Engine σ) (cs : List SetupCall) :
    Blind R (UsbNcmNet.configureAll eng cs) := by
  induction cs with
  | nil => exact .pure EDHOC_SUCCESS
  | cons c cs ih => exact .bind (.call _) fun _ => .ite (.pure _) ih

theorem edhocSetup (eng : Engine σ) : Blind R (UsbNcmNet.edhocSetup eng) :=
  .bind (.call _) fun _ => .ite (.pure _) (.configureAll eng setupCalls)

theorem deriveAndInitOscore (hR : Respected R) (eng : Engine σ) :
    Blind R (UsbNcmNet.deriveAndInitOscore eng) := by
  refine .bind (.call _) fun _ => .bind (.update (hR.setKeys _)) fun _ => .ite (.pure _) ?_
  refine .bind (.call _) fun _ => .bind (.update (hR.setCtx _)) fun _ => .ite (.pure _) ?_
  exact .bind (.update (hR.setReady _)) fun _ => .pure 0

theorem edhocMessage1 (hR : Respected R) (eng : Engine σ) (msg : Bytes) :
    Blind R (UsbNcmNet.edhocMessage1 eng msg) := by
  unfold UsbNcmNet.edhocMessage1
  -- one rule for each form a statement can have
  repeat' first
    | exact .call _
    | exact .pure _
    | exact .edhocSetup eng
    | exact .update (hR.setActive _)
    | exact .update (hR.setReady _)
    | refine .ite ?_ ?_
    | refine .get (fun _ => ?_) fun b b' h => by rw [hR.active h]
    | refine .bind ?_ fun _ => ?_

theorem edhocMessage3 (hR : Respected R) (eng : Engine σ) (msg : Bytes) :
    Blind R (UsbNcmNet.edhocMessage3 eng msg) := by
  unfold UsbNcmNet.edhocMessage3
  repeat' first
    | exact .call _
    | exact .pure _
    | exact .deriveAndInitOscore hR eng
    | exact .update (hR.setActive _)
    | refine .ite ?_ ?_
    | refine .get (fun _ => ?_) fun b b' h => by rw [hR.active h]
    | refine .bind ?_ fun _ => ?_

theorem edhocReply (eng : Engine σ) (request : Request) (rc : Int) (out : Bytes) :
    Blind R (UsbNcmNet.edhocReply eng request rc out) := by
  refine .ite (.pure _) ?_
  rcases edhocResponse request out with r | response
  · exact .pure r
  · exact .bind (.call _) fun _ => .pure _

theorem edhocPost (hR : Respected R) (request : Request) (eng : Engine σ) :
    Blind R (UsbNcmNet.edhocPost eng request) := by
  refine .bind (.call _) fun _ => ?_
  rcases edhocDeframe request.payload with r | (msg | msg)
  · exact .pure r
  · exact .bind (.edhocMessage1 hR eng msg) fun left => .edhocReply eng request left.1 left.2
  · exact .bind (.edhocMessage3 hR eng msg) fun left => .edhocReply eng request left.1 left.2

/-! ### The other two -/

theorem oscorePost (hR : Respected R) {osc : OscoreEngine σ}
    (hled : ∀ inner, osc.inner = .ok inner → ∀ d d' : Device σ, R d d' →
      let answer := coapServerDispatchInner osc.gpio inner EDHOC_MSG_MAX d.led
      let answer' := coapServerDispatchInner osc.gpio inner EDHOC_MSG_MAX d'.led
      answer.1 = answer'.1 ∧ R { d with led := answer.2 } { d' with led := answer'.2 }) :
    Blind R (UsbNcmNet.oscorePost osc) := by
  refine .bind (.call _) fun _ => .get (fun b => .ite (.pure _) ?_) fun b b' h => by rw [hR.ready h]
  refine .bind (.call _) fun _ => .bind (.update (hR.setCtx _)) fun _ => ?_
  refine .ite (.pure _) (.ite (.pure _) ?_)
  rcases hinner : osc.inner with r | inner
  · exact .pure r
  · refine .dispatch (hled inner hinner) fun response => ?_
    refine .bind (.call _) fun _ => .bind (.update (hR.setCtx _)) fun _ => .ite (.pure _) ?_
    exact .bind (.call _) fun _ => .pure _

theorem appRequest {gpio : Int} (send : Int) {request : Request}
    (hled : ∀ d d' : Device σ, R d d' →
      let answer := coapServerDispatchInner gpio request CONFIG_COAP_SERVER_MESSAGE_SIZE d.led
      let answer' := coapServerDispatchInner gpio request CONFIG_COAP_SERVER_MESSAGE_SIZE d'.led
      answer.1 = answer'.1 ∧ R { d with led := answer.2 } { d' with led := answer'.2 }) :
    Blind R (UsbNcmNet.appRequest gpio send request) :=
  .dispatch hled fun _ => .bind (.call _) fun _ => .pure _

end Blind

/-! ### One request on two boards -/

/-- The request comes to the same on both boards: what is returned, and every call. -/
def SameFrom (b b' : Board σ) (e : Event σ) : Prop :=
  b.ret e = b'.ret e ∧ b.newCalls e = b'.newCalls e

theorem Blind.step {R : Device σ → Device σ → Prop} {e : Event σ} (hblind : Blind R e.handler)
    {b b' : Board σ} (h : R b.dev b'.dev) :
    SameFrom b b' e ∧ R (b.step e).dev (b'.step e).dev := by
  obtain ⟨hret, hrel, new, hlog, hlog'⟩ := hblind b b' h
  refine ⟨⟨hret, ?_⟩, hrel⟩
  rw [newCalls_eq hlog, newCalls_eq hlog']

/-! ### What may be left out of a run -/

/-- The requests that reach `app_request`. -/
def Event.clear : Event σ → Bool
  | .app _ _ _ => true
  | _ => false

/-- The requests that reach `app_request` and write nothing. -/
def Event.idle : Event σ → Bool
  | .app request _ _ => request.write.isNone
  | _ => false

/-- The requests that reach `edhoc_post`. -/
def Event.posts : Event σ → Bool
  | .edhoc _ _ => true
  | _ => false

/-- What is inside a protected request is a `GET /led`. -/
def Event.asksLed : Event σ → Bool
  | .oscore osc =>
      match osc.inner with
      | .ok inner => decide (inner.code = COAP_METHOD_GET ∧ inner.names ledPath)
      | .error _ => false
  | _ => false

/-- The flags and the buffers agree. -/
structure Device.SameHandshake (d d' : Device σ) : Prop where
  ready : d.oscoreReady = d'.oscoreReady
  active : d.edhocCtxActive = d'.edhocCtxActive
  keys : d.keys = d'.keys

/-- The globals agree, except perhaps on the LED. -/
def Device.SameSession (d d' : Device σ) : Prop := { d with led := d'.led } = d'

theorem respected_sameHandshake :
    Respected (σ := σ) (fun d d' => d.SameHandshake d') where
  active h := h.active
  ready h := h.ready
  setActive _ _ _ h := ⟨h.ready, rfl, h.keys⟩
  setReady _ _ _ h := ⟨rfl, h.active, h.keys⟩
  setKeys _ _ _ h := ⟨h.ready, h.active, rfl⟩
  setCtx _ _ _ h := ⟨h.ready, h.active, h.keys⟩

theorem respected_sameSession : Respected (σ := σ) (fun d d' => d.SameSession d') where
  active h := by rw [← h]
  ready h := by rw [← h]
  setActive _ _ _ h := by rw [← h]; rfl
  setReady _ _ _ h := by rw [← h]; rfl
  setKeys _ _ _ h := by rw [← h]; rfl
  setCtx _ _ _ h := by rw [← h]; rfl

theorem respected_eq : Respected (σ := σ) Eq where
  active h := by rw [h]
  ready h := by rw [h]
  setActive _ _ _ h := by rw [h]
  setReady _ _ _ h := by rw [h]
  setKeys _ _ _ h := by rw [h]
  setCtx _ _ _ h := by rw [h]

/-- The responder reads the flags and the buffers. -/
theorem posts_blind {e : Event σ} (he : e.posts = true) :
    Blind (fun d d' => d.SameHandshake d') e.handler := by
  cases e with
  | edhoc request eng => exact .edhocPost respected_sameHandshake request eng
  | oscore osc => exact Bool.noConfusion he
  | app request gpio send => exact Bool.noConfusion he

/-- The intercept reads the LED only when it is asked for it. -/
theorem sealed_blind {e : Event σ} (hclear : e.clear = false) (hasks : e.asksLed = false) :
    Blind (fun d d' => d.SameSession d') e.handler := by
  cases e with
  | edhoc request eng => exact .edhocPost respected_sameSession request eng
  | app request gpio send => exact Bool.noConfusion hclear
  | oscore osc =>
      refine .oscorePost respected_sameSession ?_
      intro inner hinner d d' h
      have hother : ¬ (inner.code = COAP_METHOD_GET ∧ inner.names ledPath) := by
        simpa only [Event.asksLed, hinner, decide_eq_false_iff_not] using hasks
      refine ⟨dispatch_fst_eq osc.gpio EDHOC_MSG_MAX hother d.led d'.led, ?_⟩
      rw [← h]
      rfl

/-- All that a handler reads is the globals. -/
theorem handler_blind (e : Event σ) : Blind Eq e.handler := by
  cases e with
  | edhoc request eng => exact .edhocPost respected_eq request eng
  | oscore osc =>
      refine .oscorePost respected_eq ?_
      rintro inner - d d' rfl
      exact ⟨rfl, rfl⟩
  | app request gpio send =>
      refine .appRequest send ?_
      rintro d d' rfl
      exact ⟨rfl, rfl⟩

/-- A request in the clear touches nothing but the LED, and only if it writes. -/
theorem clear_ran {b : Board σ} {e : Event σ} (he : e.clear = true) :
    (b.step e).dev.SameSession b.dev ∧ (e.idle = true → (b.step e).dev = b.dev) := by
  cases e with
  | edhoc request eng => exact Bool.noConfusion he
  | oscore osc => exact Bool.noConfusion he
  | app request gpio send =>
      have hran := appRequest_ran gpio send request b
      generalize b.step (.app request gpio send) = b' at hran
      cases hran with
      | @mk built led tail hbuild _ =>
          refine ⟨rfl, fun hidle => ?_⟩
          obtain ⟨p, led', hok, hran⟩ := dispatch_ran gpio request b.dev.led
            (by decide : 64 ≤ CONFIG_COAP_SERVER_MESSAGE_SIZE)
          rw [hok] at hbuild
          obtain ⟨-, rfl⟩ := Prod.mk.inj hbuild
          have hnone : ledWrite (request, .ok p) = none := by
            rw [hran.ledWrite_eq]
            simpa [Event.idle] using hidle
          rcases hran.write with ⟨hcode, -, -, hvalue⟩ | ⟨-, rfl⟩
          · rw [ledWrite, if_pos hcode, hvalue] at hnone
            simp at hnone
          · rfl

/--
**What a request in the clear can be told by.**  First, the responder sees nothing but
its own requests: leave all others out of a run, and the flags and buffers are the same
and whatever POST comes next returns the same and makes the same calls.  Secondly, the
intercept sees no more of a request in the clear than the LED: leave them all out of a
run in which nobody asks for the LED over OSCORE, and all other globals are the same and
so is all that a protected request comes to that does not ask for it either, to the bytes
handed to `coap2oscore` and those sent.  Thirdly, a request in the clear that writes
nothing leaves no trace at all.
-/
theorem clear_requests_invisible (ctx : σ) (evs : List (Event σ)) :
    let b := (board ctx).run evs
    let handshakes := (board ctx).run (evs.filter Event.posts)
    let sealed := (board ctx).run (evs.filter fun e => !e.clear)
    let writing := (board ctx).run (evs.filter fun e => !e.idle)
    (b.dev.SameHandshake handshakes.dev ∧
      ∀ e : Event σ, e.posts = true → SameFrom b handshakes e) ∧
    ((∀ e ∈ evs, e.asksLed = false) → b.dev.SameSession sealed.dev ∧
      ∀ e : Event σ, e.clear = false → e.asksLed = false → SameFrom b sealed e) ∧
    (b.dev = writing.dev ∧ ∀ e : Event σ, SameFrom b writing e) := by
  intro b handshakes sealed writing
  refine ⟨?_, ?_, ?_⟩
  · have hsame : b.dev.SameHandshake handshakes.dev := by
      refine (board ctx).run_filter (R := fun b b' => b.dev.SameHandshake b'.dev) _
        ⟨rfl, rfl, rfl⟩ evs ?_ ?_
      · intro e _ he b b' h
        have hserved : Served b (b.step e) := by
          refine served_of_not_edhoc ?_
          rintro request eng rfl
          exact Bool.noConfusion he
        exact ⟨hserved.ready.trans h.ready, hserved.active.trans h.active,
          hserved.keys.trans h.keys⟩
      · intro e _ he b b' h
        exact ((posts_blind he).step h).2
    exact ⟨hsame, fun e he => ((posts_blind he).step hsame).1⟩
  · intro hasks
    have hsame : b.dev.SameSession sealed.dev := by
      refine (board ctx).run_filter (R := fun b b' => b.dev.SameSession b'.dev) _ rfl evs ?_ ?_
      · intro e _ he b b' h
        have hclear := (clear_ran (b := b) (by simpa using he)).1
        show { (b.step e).dev with led := b'.dev.led } = b'.dev
        rw [← h, ← hclear]
      · intro e hmem he b b' h
        exact ((sealed_blind (by simpa using he) (hasks e hmem)).step h).2
    exact ⟨hsame, fun e hclear hother => ((sealed_blind hclear hother).step hsame).1⟩
  · have hsame : b.dev = writing.dev := by
      refine (board ctx).run_filter (R := fun b b' => b.dev = b'.dev) _ rfl evs ?_ ?_
      · intro e _ he b b' h
        have hidle : e.idle = true := by simpa using he
        have hclear : e.clear = true := by
          cases e <;> first | rfl | exact Bool.noConfusion hidle
        exact ((clear_ran hclear).2 hidle).trans h
      · intro e _ _ b b' h
        exact ((handler_blind e).step h).2
    exact ⟨hsame, fun e => ((handler_blind e).step hsame).1⟩

/-- A handshake in the middle of which the LED is turned on in the clear. -/
def interrupted : List (Event Unit) :=
  [.edhoc (edhocRequest [0xf5, 1]) willing,
    .app (requestTo COAP_METHOD_PUT ledPath (some (ascii ['1']))) 0 0,
    .edhoc (edhocRequest [cidToCbor edCRInt.val, 3]) willing]

/-- Asked for `hello` over OSCORE, the device does as if it had not been; asked for the LED,
it hands `coap2oscore` something else. -/
theorem clear_requests_invisible_interrupted :
    let b := (board ()).run interrupted
    let b' := (board ()).run (interrupted.filter fun e => !e.clear)
    SameFrom b b' (.oscore (opening (requestTo COAP_METHOD_GET helloPath none))) ∧
      ¬ SameFrom b b' (.oscore (opening (requestTo COAP_METHOD_GET ledPath none))) := by
  intro b b'
  refine ⟨((clear_requests_invisible () interrupted).2.1 (by decide)).2 _ rfl rfl, ?_⟩
  intro h
  have hsent := congrArg (List.filterMap Call.outgoing) h.2
  exact absurd hsent (by decide)

end UsbNcmNet
