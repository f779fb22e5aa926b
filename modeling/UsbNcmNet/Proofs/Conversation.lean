/-
From a handshake to the last reply.

A client that starts from idle can not only get its session, whatever state the device
is in, but have any requests served in it, and get its replies.  That a request was
sealed, sent, opened, answered and sealed again shows in nothing but the calls: the
client is told what the dispatcher would say if it were called on one request after
another.

The link is the one of the safety results, where the network may do what it likes; here
it does what the client needs, and so does uoscore.  `Uoscore` is what is needed of it:
what it makes of a context, and that a client gets back what the device had protected.
-/
import UsbNcmNet.Proofs.Window
import UsbNcmNet.Proofs.Recovery
import UsbNcmNet.Proofs.Answers

namespace UsbNcmNet

open Trace

variable {σ : Type} {exporter : Transcript → SessionKeys}

/-! ### uoscore, where it goes through -/

structure Uoscore (σ : Type) where
  /-- The context is that of a session with these parameters. -/
  Holds : OscoreInitParams → σ → Prop
  /-- What `oscore_context_init` makes of the parameters. -/
  init : OscoreInitParams → σ
  /-- What `oscore2coap` leaves of a context when it accepts a message. -/
  accept : σ → σ
  /-- What `coap2oscore` makes of a message, and what it leaves of the context. -/
  protect : σ → Bytes → Bytes × σ
  /-- What `oscore2coap` makes of a message at an end with these parameters. -/
  unprotect : OscoreInitParams → Bytes → Option Bytes
  holds_init : ∀ params, Holds params (init params)
  holds_accept : ∀ {params ctx}, Holds params ctx → Holds params (accept ctx)
  holds_protect : ∀ {params ctx} data, Holds params ctx → Holds params (protect ctx data).2
  /-- The other end gets back what was protected. -/
  unprotect_protect : ∀ {params ctx} data, Holds params.swapped ctx →
    unprotect params (protect ctx data).1 = some data

/-! ### One request -/

/-- A protected request that is answered: what the dispatcher makes of it, and uoscore of that. -/
structure Turn (σ : Type) where
  request : Request
  response : Packet
  opened : σ
  datagram : Bytes
  closed : σ

/-- The calls of the device. -/
def Turn.calls (t : Turn σ) : List (Call σ) :=
  [.oscorePost, .oscore2coap .ok t.opened, .dispatchInner t.request (.ok t.response),
    .coap2oscore t.response.data .ok t.closed, .coapResourceSend (.verbatim t.datagram)]

/-- What the client finds in the datagram is the reply to its request. -/
def Turn.Received (lib : Uoscore σ) (session : OscoreInitParams) (t : Turn σ) : Prop :=
  (lib.unprotect session t.datagram).bind Rfc7252.decode
    = some (replyMessage t.request t.response.code t.response.payload)

variable (lib : Uoscore σ)

/-- uoscore opens the request and protects the response it is handed, which goes out. -/
def Uoscore.taking (request : Request) (gpio : Int) (ctx : σ) : OscoreEngine σ where
  oscore2coap := (.ok, lib.accept ctx)
  inner := .ok request
  gpio := gpio
  coap2oscore := fun data =>
    ⟨.ok, (lib.protect (lib.accept ctx) data).1, (lib.protect (lib.accept ctx) data).2⟩
  send := 0

def Uoscore.turn (ctx : σ) (request : Request) (response : Packet) : Turn σ where
  request := request
  response := response
  opened := lib.accept ctx
  datagram := (lib.protect (lib.accept ctx) response.data).1
  closed := (lib.protect (lib.accept ctx) response.data).2

variable {lib}

/-- A device with a session takes its turn. -/
theorem taking_served (b : Board σ) {request : Request} {gpio : Int} {response : Packet} {led : Led}
    (hready : b.dev.oscoreReady = true)
    (hbuild : coapServerDispatchInner gpio request EDHOC_MSG_MAX b.dev.led = (.ok response, led)) :
    b.step (.oscore (lib.taking request gpio b.dev.oscoreCtx)) =
      { dev := { b.dev with
          oscoreCtx := (lib.turn b.dev.oscoreCtx request response).closed, led := led }
        log := b.log ++ (lib.turn b.dev.oscoreCtx request response).calls } := by
  simp [Board.step, Event.handler, oscorePost, Uoscore.taking, Uoscore.turn, Turn.calls, hready,
    hbuild]

/-- Client and device have the same session, and no number is used that is still to come. -/
structure Connected (lib : Uoscore σ) (s : Secure σ) (i : Nat) (session : OscoreInitParams) :
    Prop where
  phase : (s.world.clients i).phase = .complete (some session)
  ready : s.world.board.dev.oscoreReady = true
  holds : lib.Holds session.swapped s.world.board.dev.oscoreCtx
  keyed : latest Call.keyedWith s.world.board.log = some session.swapped
  window : ∀ n ∈ s.window, n < s.count i

/-- The client's next request, as it protects it. -/
def Secure.next (s : Secure σ) (i : Nat) (session : OscoreInitParams) (request : Request) : Sealed :=
  ⟨i, session, s.count i, request⟩

def Secure.seal (s : Secure σ) (i : Nat) (session : OscoreInitParams) (request : Request) :
    Secure σ :=
  { s with sealed := s.sealed ++ [s.next i session request] }

theorem count_seal (s : Secure σ) (i : Nat) (session : OscoreInitParams)
    (request : Request) : (s.seal i session request).count i = s.count i + 1 := by
  simp [Secure.count, Secure.seal, Secure.next]

/-- Serving a request is nothing to the handshakes. -/
theorem promised_of_serves {g : Track} {i : Nat} {cs : List (Call σ)}
    (h : ∀ c ∈ cs, c.serves = true) : Promised exporter g i cs where
  message1 _ hc := Bool.noConfusion (h _ hc)
  message3 _ hc := Bool.noConfusion (h _ hc)
  exports _ _ hc := Bool.noConfusion (h _ hc)

theorem Turn.serves (t : Turn σ) : ∀ c ∈ t.calls, c.serves = true := by
  simp [Turn.calls, Call.serves]

/-- The message opens, once it has been protected. -/
theorem Connected.opens {s : Secure σ} {i : Nat} {session : OscoreInitParams}
    (h : Connected lib s i session) (request : Request) (gpio : Int) :
    Opens (s.seal i session request)
      (.oscore (lib.taking request gpio s.world.board.dev.oscoreCtx))
      (some (s.next i session request)) := by
  obtain ⟨response, led, hbuild, -⟩ :=
    dispatch_ran gpio request s.world.board.dev.led (by decide : 64 ≤ EDHOC_MSG_MAX)
  refine ⟨?_, ?_, ?_, ?_⟩
  · show true = (s.world.board.newCalls _).any Call.opens
    rw [newCalls_eq (congrArg Board.log (taking_served s.world.board h.ready hbuild))]
    rfl
  · intro x hx
    obtain rfl := Option.some.inj hx
    exact ⟨List.mem_append_right _ (List.mem_singleton.mpr rfl), _, h.keyed, rfl⟩
  · intro x hx hmem
    obtain rfl := Option.some.inj hx
    exact Nat.lt_irrefl _ (h.window _ hmem)
  · intro x osc request' hx he hinner
    obtain rfl := Option.some.inj hx
    obtain rfl := Event.oscore.inj he
    exact (Except.ok.inj hinner).symm

/-- A connected client has a request served and is connected as before. -/
theorem Connected.serve (exporter : Transcript → SessionKeys) {s : Secure σ} {i : Nat}
    {session : OscoreInitParams} (h : Connected lib s i session) (request : Request) (gpio : Int) :
    ∃ (s' : Secure σ) (t : Turn σ), Relation.ReflTransGen (SecureStep exporter) s s' ∧
      Connected lib s' i session ∧ t.request = request ∧
      coapServerDispatchInner gpio request EDHOC_MSG_MAX s.world.board.dev.led
        = (.ok t.response, s'.world.board.dev.led) ∧
      t.Received lib session ∧ s'.world.board.log = s.world.board.log ++ t.calls ∧
      s'.served = s.served ++ [request] ∧
      s'.sealed = s.sealed ++ [s.next i session request] ∧
      s'.accepted = s.accepted ++ [s.next i session request] ∧
      s'.world.track = { s.world.track with out := none } ∧
      s'.world.clients = s.world.clients := by
  obtain ⟨code, payload, led, hcode, -, hbuild⟩ :=
    dispatch_ack gpio request s.world.board.dev.led
  let response := ackPacket 256 request code payload
  let t := lib.turn s.world.board.dev.oscoreCtx request response
  let e : Event σ := .oscore (lib.taking request gpio s.world.board.dev.oscoreCtx)
  have hstep : s.world.board.step e = _ := taking_served s.world.board h.ready hbuild
  have hcalls : s.world.board.newCalls e = t.calls := newCalls_eq (congrArg Board.log hstep)
  have hpromised : Promised exporter s.world.track i (s.world.board.newCalls e) :=
    hcalls ▸ promised_of_serves t.serves
  let s' := (s.seal i session request).request e i (some (s.next i session request))
  have hboard : s'.world.board = s.world.board.step e := rfl
  have hopened := lib.holds_accept h.holds
  refine ⟨s', t, .tail (.tail .refl (.protect i session request h.phase))
    (.request e i (some _) hpromised (h.opens request gpio)), ⟨h.phase, ?_, ?_, ?_, ?_⟩, rfl,
    ?_, ?_, ?_, ?_, rfl, rfl, ?_, rfl⟩
  · rw [hboard, hstep]
    exact h.ready
  · rw [hboard, hstep]
    exact lib.holds_protect _ hopened
  · rw [hboard, hstep, latest_append, h.keyed]
    rfl
  · -- the one number that is new was the client's next
    have hwindow : s'.window = s.count i :: s.window := by
      show s.count i :: (s.world.board.newCalls e).foldl windowCall s.window = _
      rw [hcalls]
      rfl
    intro n hn
    show n < (s.seal i session request).count i
    rw [count_seal]
    rw [hwindow] at hn
    rcases List.mem_cons.mp hn with rfl | hn
    · exact Nat.lt_succ_self _
    · exact Nat.lt_succ_of_lt (h.window n hn)
  · rw [hboard, hstep]
    exact hbuild
  · show (lib.unprotect session (lib.protect _ response.data).1).bind Rfc7252.decode = _
    rw [lib.unprotect_protect _ hopened]
    exact decode_ackPacket 256 request payload hcode
  · rw [hboard, hstep]
  · show s.served ++ ((s.world.board.newCalls e).filterMap Call.dispatched).map Prod.fst = _
    rw [hcalls]
    rfl
  · show (s.world.board.newCalls e).foldl (Track.call i) s.world.track = _
    rw [hcalls]
    rfl

/-! ### Any number of them -/

/--
The dispatcher called on one request after another, each with what the driver answers:
the responses it builds, and the LED at the end.
-/
def dispatchAll (led : Led) : List (Request × Int) → List (Request × Except Int Packet) × Led
  | [] => ([], led)
  | (request, gpio) :: rest =>
      let (built, led) := coapServerDispatchInner gpio request EDHOC_MSG_MAX led
      let (later, led) := dispatchAll led rest
      ((request, built) :: later, led)

theorem Connected.serves (exporter : Transcript → SessionKeys) {i : Nat}
    {session : OscoreInitParams} (asked : List (Request × Int)) :
    ∀ {s : Secure σ}, Connected lib s i session →
      ∃ (s' : Secure σ) (turns : List (Turn σ)), Relation.ReflTransGen (SecureStep exporter) s s' ∧
        Connected lib s' i session ∧
        dispatchAll s.world.board.dev.led asked
          = (turns.map fun t => (t.request, .ok t.response), s'.world.board.dev.led) ∧
        (∀ t ∈ turns, t.Received lib session) ∧
        s'.world.board.log = s.world.board.log ++ turns.flatMap Turn.calls ∧
        s'.served = s.served ++ asked.map Prod.fst := by
  induction asked with
  | nil =>
      intro s h
      exact ⟨s, [], .refl, h, rfl, by simp, by simp, by simp⟩
  | cons first rest ih =>
      obtain ⟨request, gpio⟩ := first
      intro s h
      obtain ⟨s₁, t, hrun₁, hconnected, rfl, hbuild, hreceived, hlog₁, hserved₁, -⟩ :=
        h.serve exporter request gpio
      obtain ⟨s₂, turns, hrun₂, hconnected₂, hlater, hall, hlog₂, hserved₂⟩ := ih hconnected
      refine ⟨s₂, t :: turns, hrun₁.trans hrun₂, hconnected₂, ?_, ?_, ?_, ?_⟩
      · rw [dispatchAll, hbuild]
        dsimp only
        rw [hlater]
        rfl
      · intro t' ht'
        rcases List.mem_cons.mp ht' with rfl | ht'
        · exact hreceived
        · exact hall t' ht'
      · rw [hlog₂, hlog₁, List.append_assoc, List.flatMap_cons]
      · simp [hserved₂, hserved₁]

/-! ### Behind a handshake -/

/-- A call of the responder opens nothing. -/
theorem opens_of_responds {c : Call σ} (h : c.responds = true) : c.opens = false := by
  cases c <;> first | rfl | exact Bool.noConfusion h

theorem opens_edhoc (s : Secure σ) (request : Request) (eng : Engine σ) :
    Opens s (.edhoc request eng) none := by
  refine ⟨?_, by simp, by simp, by simp⟩
  obtain ⟨⟨new, hlog, hnew⟩, -⟩ := responds_edhoc s.world.board request eng
  rw [newCalls_eq hlog]
  symm
  refine List.any_eq_false.mpr ?_
  intro c hc
  rw [opens_of_responds (hnew c hc)]
  exact Bool.noConfusion

/-- What the steps of a handshake leave alone: nothing is protected, accepted or served. -/
structure Untouched (s s' : Secure σ) : Prop where
  sealed : s'.sealed = s.sealed
  accepted : s'.accepted = s.accepted
  served : s'.served = s.served
  led : s'.world.board.dev.led = s.world.board.dev.led
  window : s'.world.track.installed = s.world.track.installed ∨ s'.window = []

theorem Untouched.trans {s s' s'' : Secure σ} (h : Untouched s s') (h' : Untouched s' s'')
    (hwindow : s''.world.track.installed = s'.world.track.installed → s''.window = s'.window) :
    Untouched s s'' where
  sealed := h'.sealed.trans h.sealed
  accepted := h'.accepted.trans h.accepted
  served := h'.served.trans h.served
  led := h'.led.trans h.led
  window := by
    rcases h'.window with hsame | hempty
    · rcases h.window with hsame' | hempty'
      · exact .inl (hsame.trans hsame')
      · exact .inr ((hwindow hsame).trans hempty')
    · exact .inr hempty

/-- A step of a handshake, with the bookkeeping of the secured link. -/
inductive SecureHandshake (exporter : Transcript → SessionKeys) : Secure σ → Secure σ → Prop
  | client {s : Secure σ} {w : World σ} (hstep : Step exporter s.world w)
      (hboard : w.board = s.world.board) : SecureHandshake exporter s { s with world := w }
  | edhoc {s : Secure σ} (request : Request) (eng : Engine σ) (i : Nat)
      (hpromised : Promised exporter s.world.track i (s.world.board.newCalls (.edhoc request eng))) :
      SecureHandshake exporter s (s.request (.edhoc request eng) i none)

theorem SecureHandshake.step {s s' : Secure σ} (h : SecureHandshake exporter s s') :
    SecureStep exporter s s' := by
  cases h with
  | client hstep hboard => exact .client hstep hboard
  | edhoc request eng i hpromised => exact .request _ i none hpromised (opens_edhoc s request eng)

theorem secure_run {s s' : Secure σ} (h : Relation.ReflTransGen (SecureHandshake exporter) s s') :
    Relation.ReflTransGen (SecureStep exporter) s s' :=
  Relation.ReflTransGen.mono (fun _ _ => SecureHandshake.step) _ _ h

theorem secure_of_step (s : Secure σ) {w' : World σ} (hstep : HandshakeStep exporter s.world w') :
    ∃ s', SecureHandshake exporter s s' ∧ s'.world = w' ∧ Untouched s s' ∧
      (s'.world.track.installed = s.world.track.installed → s'.window = s.window) := by
  cases hstep with
  | client hstep hboard =>
      have hinstalled := client_installs_nothing hstep hboard
      exact ⟨_, .client hstep hboard, rfl, ⟨rfl, rfl, rfl, by rw [hboard], .inl hinstalled⟩,
        fun _ => rfl⟩
  | edhoc request eng i hpromised =>
      have hrequest := SecureHandshake.edhoc request eng i hpromised
      have hled := (responds_edhoc s.world.board request eng).2
      rcases request_window none hpromised with ⟨hsame, hkept⟩ | ⟨t, hgrown, hempty⟩
      · exact ⟨_, hrequest, rfl,
          ⟨rfl, List.append_nil _, List.append_nil _, hled, .inl hsame⟩, fun _ => hkept⟩
      · refine ⟨_, hrequest, rfl,
          ⟨rfl, List.append_nil _, List.append_nil _, hled, .inr hempty⟩, ?_⟩
        intro hsame
        rw [hgrown] at hsame
        simp at hsame

theorem secure_of_handshake {w w' : World σ}
    (hrun : Relation.ReflTransGen (HandshakeStep exporter) w w') (s : Secure σ)
    (hs : s.world = w) :
    ∃ s', Relation.ReflTransGen (SecureHandshake exporter) s s' ∧ s'.world = w' ∧
      Untouched s s' := by
  induction hrun with
  | refl => exact ⟨s, .refl, hs, rfl, rfl, rfl, rfl, .inl rfl⟩
  | tail _ hstep ih =>
      obtain ⟨s', hrun', rfl, huntouched⟩ := ih
      obtain ⟨s'', hstep', hworld, huntouched', hwindow⟩ := secure_of_step s' hstep
      exact ⟨s'', hrun'.tail hstep', hworld, huntouched.trans huntouched' hwindow⟩

/-- A client that was idle can get connected, and the LED stays as it is. -/
theorem gets_connected (lib : Uoscore σ) (hsized : ∀ t, (exporter t).Sized) (s : Secure σ) (i : Nat)
    (hidle : (s.world.clients i).phase = .idle) :
    ∃ (s' : Secure σ) (session : OscoreInitParams),
      Relation.ReflTransGen (SecureHandshake exporter) s s' ∧ Connected lib s' i session ∧
      Untouched s s' ∧ s'.world.track.installed = s.world.track.installed ++ [s.world.next i] ∧
      s'.world.track.contexts = s.world.track.contexts + 1 ∧
      ∀ j, j ≠ i → s'.world.clients j = s.world.clients j := by
  obtain ⟨w', session, hrun, hphase, hready, hctx, hkeyed, hinstalled, hcontexts, hothers⟩ :=
    handshake_gets_through hsized lib.init s.world i hidle
  obtain ⟨s', hrun', rfl, huntouched⟩ := secure_of_handshake hrun s rfl
  have hempty : s'.window = [] := by
    refine huntouched.window.resolve_left ?_
    rw [hinstalled]
    simp
  exact ⟨s', session, hrun', ⟨hphase, hready, hctx ▸ lib.holds_init _, hkeyed, by simp [hempty]⟩,
    huntouched, hinstalled, hcontexts, hothers⟩

/-- A library that puts a number and the master secret in front of what it protects. -/
def tagging : Uoscore (Option OscoreInitParams × UInt8) where
  Holds params ctx := ctx.1 = some params
  init params := (some params, 0)
  accept ctx := ctx
  protect ctx data :=
    (ctx.2 :: ((ctx.1.map OscoreInitParams.masterSecret).getD [] ++ data), (ctx.1, ctx.2 + 1))
  unprotect params datagram :=
    if params.masterSecret <+: datagram.tail then
      some (datagram.tail.drop params.masterSecret.length)
    else none
  holds_init _ := rfl
  holds_accept h := h
  holds_protect _ h := h
  unprotect_protect := by
    intro params ctx data h
    simp [h, OscoreInitParams.swapped]

end UsbNcmNet
