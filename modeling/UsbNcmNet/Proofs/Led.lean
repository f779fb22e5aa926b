/-
The LED as one register behind two routes.

A PUT may come in the clear or decrypted, between EDHOC POSTs and requests that
are turned away at half a dozen places, and a GET by either route must report the
last value a PUT was acknowledged for.  The specification is a register: a machine
whose state is the last value written.  The board simulates it, with an
acknowledged PUT as a write and everything else as a stutter.
-/
import UsbNcmNet.Lib.Trace
import UsbNcmNet.Proofs.Board
import UsbNcmNet.Proofs.Onoff

namespace UsbNcmNet

open Trace

variable {σ : Type}

/-! ### The specification -/

/-- A register of one bit, initially off: writing replaces what it holds. -/
def register : Machine Bool Bool where
  init := false
  step := fun _ v => v

/-- A register holds the last value written. -/
theorem register_run (vs : List Bool) : register.run vs = vs.getLast?.getD false := by
  induction vs using List.reverseRecOn with
  | nil => rfl
  | append_singleton vs v _ => simp [register]

/-! ### What a request is answered -/

/-- A request the dispatcher was run on, with the response it built. -/
def Call.dispatched : Call σ → Option (Request × Except Int Packet)
  | .dispatchInner request built => some (request, built)
  | _ => none

/-- The dispatches an event leads to. -/
def Board.dispatches (b : Board σ) (e : Event σ) : List (Request × Except Int Packet) :=
  (b.newCalls e).filterMap Call.dispatched

/-- The value written by a request that was answered 2.04: the one its payload has the word for. -/
def ledWrite : Request × Except Int Packet → Option Bool
  | (request, .ok p) => if p.code = 0x44 then wordValue request.payload else none
  | (_, .error _) => none

/-! ### What reaches the dispatcher -/

/-- The request that an event brings to the dispatcher, if it gets that far. -/
def Event.inner (b : Board σ) : Event σ → Option Request
  | .edhoc _ _ => none
  | .oscore osc =>
      if b.dev.oscoreReady = true ∧
          (osc.oscore2coap.1 = .ok ∨ osc.oscore2coap.1 = .firstRequestAfterReboot) then
        osc.inner.toOption
      else none
  | .app request _ _ => some request

/-- What `gpio_pin_set_dt` returns if the event leads to a call of it. -/
def Event.gpio : Event σ → Int
  | .edhoc _ _ => 0
  | .oscore osc => osc.gpio
  | .app _ gpio _ => gpio

/-- The intercept dispatches what it can decrypt and parse, once there is a session. -/
theorem dispatches_oscore_eq_nil (osc : OscoreEngine σ) (b : Board σ) :
    b.dispatches (.oscore osc) = [] ↔ (Event.oscore osc).inner b = none := by
  unfold Board.dispatches Board.newCalls Board.step Event.handler oscorePost Event.inner
  cases hready : b.dev.oscoreReady with
  | false => simp [hready, Call.dispatched]
  | true =>
      by_cases hpkt : osc.oscore2coap.1 = .notOscorePkt
      · simp [hready, hpkt, Call.dispatched]
      by_cases herr : osc.oscore2coap.1 ≠ .ok ∧ osc.oscore2coap.1 ≠ .firstRequestAfterReboot
      · simp [hready, hpkt, herr, Call.dispatched]
      have hok : osc.oscore2coap.1 = .ok ∨ osc.oscore2coap.1 = .firstRequestAfterReboot := by
        rwa [not_and_or, not_not, not_not] at herr
      cases hinner : osc.inner with
      | error r => simp [hready, hpkt, herr, hinner, Call.dispatched, Except.toOption]
      | ok inner =>
          obtain ⟨p, led, hbuild, -⟩ :=
            dispatch_ran osc.gpio inner b.dev.led (by decide : 64 ≤ EDHOC_MSG_MAX)
          by_cases henc : (osc.coap2oscore p.data).err = .ok
          · simp [hready, hpkt, herr, hok, hinner, hbuild, henc, Call.dispatched, Except.toOption]
          · simp [hready, hpkt, herr, hok, hinner, hbuild, henc, Call.dispatched, Except.toOption]

/-- What an event does to the LED, by the request it brings: nothing, or one dispatch. -/
inductive InnerRan (b : Board σ) (e : Event σ) : Option Request → Prop
  | turnedAway (hnone : b.dispatches e = []) (hled : (b.step e).dev.led = b.dev.led) :
      InnerRan b e none
  | dispatched {request : Request} {p : Packet} (hone : b.dispatches e = [(request, .ok p)])
      (hran : Dispatched e.gpio request EDHOC_MSG_MAX b.dev.led p (b.step e).dev.led) :
      InnerRan b e (some request)

theorem inner_ran_oscore (osc : OscoreEngine σ) (b : Board σ) :
    InnerRan b (.oscore osc) ((Event.oscore osc).inner b) := by
  have hnil := dispatches_oscore_eq_nil osc b
  have haway : b.dispatches (.oscore osc) = [] →
      (b.step (.oscore osc)).dev.led = b.dev.led →
      InnerRan b (.oscore osc) ((Event.oscore osc).inner b) := by
    intro hnone hled
    rw [hnil.mp hnone]
    exact .turnedAway hnone hled
  have hran := oscorePost_ran osc b
  generalize b.ret (.oscore osc) = r, hb : b.step (.oscore osc) = b' at hran
  cases hran with
  | notReady _ =>
      refine haway ?_ (by rw [hb])
      simp [Board.dispatches, newCalls_eq (congrArg Board.log hb), Call.dispatched]
  | rejected _ =>
      refine haway ?_ (by rw [hb])
      simp [Board.dispatches, newCalls_eq (congrArg Board.log hb), Call.dispatched]
  | unbuilt _ _ hbuild =>
      -- the buffer is large enough for every response, so this does not happen
      obtain ⟨p, led, hok, -⟩ :=
        dispatch_ran osc.gpio _ b.dev.led (by decide : 64 ≤ EDHOC_MSG_MAX)
      rw [hok] at hbuild
      simp at hbuild
  | @answered inner p led _ tail _ hparse hbuild htail =>
      obtain ⟨p', led', hok, hran⟩ :=
        dispatch_ran osc.gpio inner b.dev.led (by decide : 64 ≤ EDHOC_MSG_MAX)
      rw [hok] at hbuild
      obtain ⟨hp, rfl⟩ := Prod.mk.inj hbuild
      obtain rfl := Except.ok.inj hp
      have hone : b.dispatches (.oscore osc) = [(inner, .ok p')] := by
        rw [Board.dispatches, newCalls_eq (congrArg Board.log hb)]
        rcases htail with rfl | rfl <;> rfl
      have hsome : (Event.oscore osc).inner b = some inner := by
        have hreach : (Event.oscore osc).inner b ≠ none := by
          rw [← hnil.ne, hone]
          simp
        simp only [Event.inner, hparse] at hreach ⊢
        split at hreach
        · rename_i hcond
          rw [if_pos hcond]
          rfl
        · exact absurd rfl hreach
      rw [hsome]
      exact .dispatched hone (by rw [hb]; exact hran)

/-- **What an event does to the LED.** -/
theorem inner_ran (b : Board σ) (e : Event σ) : InnerRan b e (e.inner b) := by
  cases e with
  | edhoc request eng =>
      obtain ⟨⟨new, hlog, hnew⟩, hled⟩ := responds_edhoc b request eng
      refine .turnedAway ?_ hled
      rw [Board.dispatches, newCalls_eq hlog, List.filterMap_eq_nil_iff]
      intro c hc
      have hresponds := hnew c hc
      cases c <;> first | rfl | exact Bool.noConfusion hresponds
  | oscore osc => exact inner_ran_oscore osc b
  | app request gpio send =>
      have hran := appRequest_ran gpio send request b
      generalize hb : b.step (.app request gpio send) = b' at hran
      cases hran with
      | mk hbuild htail =>
          obtain ⟨p, led, hok, hran⟩ := dispatch_ran gpio request b.dev.led
            (by decide : 64 ≤ CONFIG_COAP_SERVER_MESSAGE_SIZE)
          rw [hok] at hbuild
          obtain ⟨rfl, rfl⟩ := Prod.mk.inj hbuild
          refine .dispatched ?_ (by rw [hb]; exact hran)
          rw [Board.dispatches, newCalls_eq (congrArg Board.log hb)]
          rcases htail with rfl | ⟨q, rfl⟩ <;> rfl

/-- The ways an event bears on the LED: not at all, or through one run of the dispatcher. -/
inductive LedRan (b : Board σ) (e : Event σ) : Prop
  | untouched (hnone : b.dispatches e = []) (hled : (b.step e).dev.led = b.dev.led)
  | dispatched {gpio : Int} {request : Request} {bufLen : Nat} {p : Packet}
      (hone : b.dispatches e = [(request, .ok p)])
      (hran : Dispatched gpio request bufLen b.dev.led p (b.step e).dev.led)

theorem led_ran (b : Board σ) (e : Event σ) : LedRan b e := by
  have hran := inner_ran b e
  generalize e.inner b = reached at hran
  cases hran with
  | turnedAway hnone hled => exact .untouched hnone hled
  | dispatched hone hran => exact .dispatched hone hran

/-! ### The simulation -/

/-- An answer and what it writes: 2.04 is for the PUTs that have a value. -/
theorem Dispatched.write {gpio : Int} {request : Request} {bufLen : Nat} {led led' : Led}
    {p : Packet} (h : Dispatched gpio request bufLen led p led') :
    (p.code = 0x44 ∧ request.code = COAP_METHOD_PUT ∧ request.names ledPath ∧
      wordValue request.payload = some led'.state) ∨ (p.code ≠ 0x44 ∧ led' = led) := by
  cases h with
  | hello _ _ => exact .inr ⟨by show (0x45 : UInt8) ≠ 0x44; decide, rfl⟩
  | ledGet _ _ => exact .inr ⟨by show (0x45 : UInt8) ≠ 0x44; decide, rfl⟩
  | ledPutBad _ _ _ => exact .inr ⟨by show (0x80 : UInt8) ≠ 0x44; decide, rfl⟩
  | ledPut hcode hpath hvalue => exact .inl ⟨rfl, hcode, hpath, wordValue_eq_some hvalue⟩
  | notFound _ _ => exact .inr ⟨by show (0x84 : UInt8) ≠ 0x44; decide, rfl⟩

/-- Only an acknowledged PUT changes the flag, and to the value it asked for. -/
theorem Dispatched.state {gpio : Int} {request : Request} {bufLen : Nat} {led led' : Led}
    {p : Packet} (h : Dispatched gpio request bufLen led p led') :
    led'.state = (ledWrite (request, .ok p)).getD led.state := by
  rcases h.write with ⟨hcode, -, -, hvalue⟩ | ⟨hcode, rfl⟩
  · rw [ledWrite, if_pos hcode, hvalue]
    rfl
  · rw [ledWrite, if_neg hcode]
    rfl

/-- The value a request writes to the LED, if it does. -/
def Request.write (request : Request) : Option Bool :=
  if request.code = COAP_METHOD_PUT ∧ request.names ledPath then wordValue request.payload
  else none

/-- An answer is a 2.04 exactly when the request asks for a write. -/
theorem Dispatched.ledWrite_eq {gpio : Int} {request : Request} {bufLen : Nat} {led led' : Led}
    {p : Packet} (h : Dispatched gpio request bufLen led p led') :
    ledWrite (request, .ok p) = request.write := by
  have hget : request.code = COAP_METHOD_GET → request.write = none := by
    intro hcode
    rw [Request.write, if_neg (fun h => absurd (hcode.symm.trans h.1) (by decide))]
  cases h with
  | hello hcode _ =>
      rw [hget hcode]
      rfl
  | ledGet hcode _ =>
      rw [hget hcode]
      rfl
  | ledPutBad hcode hpath hvalue =>
      rw [Request.write, if_pos ⟨hcode, hpath⟩, wordValue_eq_none hvalue]
      rfl
  | ledPut hcode hpath _ =>
      rw [Request.write, if_pos ⟨hcode, hpath⟩]
      rfl
  | notFound _ hled =>
      rw [Request.write, if_neg (fun h => hled ⟨h.2, .inr h.1⟩)]
      rfl

/-- The board simulates the register: acknowledged PUTs are its writes. -/
def ledSimulation (ctx : σ) : Machine.Simulation (board ctx) register where
  abs b := b.dev.led.state
  label b e := latest ledWrite (b.dispatches e)
  init := rfl
  step b e := by
    cases led_ran b e with
    | untouched hnone hled => simp [hnone, hled]
    | @dispatched _ request _ p hone hran =>
        rw [hone, board_step, hran.state]
        cases h : ledWrite (request, .ok p) <;> simp [register, h]

/-- The flag is the last value written. -/
theorem led_state_eq (ctx : σ) (evs : List (Event σ)) :
    ((board ctx).run evs).dev.led.state = ((ledSimulation ctx).labels evs).getLast?.getD false :=
  ((ledSimulation ctx).run evs).trans (register_run _)

/--
**The LED is one register.**  After every run, whatever event comes next: a response
built for `GET /led` is a 2.05 whose payload is the one byte `'1'` or `'0'`, by the
value that the last acknowledged PUT, by either route, had the word for; a 2.04 is
built only for a PUT to `/led` whose payload begins with one of the words, and then
the LED has the value of that word; and unless a 2.04 is built the LED is left as it was.
-/
theorem led_register (ctx : σ) (evs : List (Event σ)) (e : Event σ) :
    (∀ request built, (request, built) ∈ ((board ctx).run evs).dispatches e →
      request.code = COAP_METHOD_GET → request.names ledPath →
      ∃ p, built = .ok p ∧ p.code = 0x45 ∧
        p.payload
          = [if ((ledSimulation ctx).labels evs).getLast?.getD false then 0x31 else 0x30]) ∧
    (∀ request p, (request, .ok p) ∈ ((board ctx).run evs).dispatches e → p.code = 0x44 →
      request.code = COAP_METHOD_PUT ∧ request.names ledPath ∧
        wordValue request.payload = some (((board ctx).run evs).step e).dev.led.state) ∧
    ((∀ request p, (request, .ok p) ∈ ((board ctx).run evs).dispatches e → p.code ≠ 0x44) →
      (((board ctx).run evs).step e).dev.led = ((board ctx).run evs).dev.led) := by
  cases led_ran ((board ctx).run evs) e with
  | untouched hnone hled =>
      rw [hnone]
      exact ⟨fun _ _ h => absurd h List.not_mem_nil, fun _ _ h => absurd h List.not_mem_nil,
        fun _ => hled⟩
  | @dispatched gpio request bufLen p hone hran =>
      rw [hone]
      generalize (((board ctx).run evs).step e).dev.led = led' at hran
      refine ⟨?_, ?_, ?_⟩
      · intro request' built hmem hget hpath
        obtain ⟨rfl, rfl⟩ := Prod.mk.inj (List.mem_singleton.mp hmem)
        rw [← led_state_eq, ← ledByte_eq]
        cases hran with
        | ledGet _ _ => exact ⟨_, rfl, rfl, rfl⟩
        | hello _ hpath' => exact absurd (hpath.2.symm.trans hpath'.2) (by decide)
        | ledPutBad hput _ _ => exact absurd (hget.symm.trans hput) (by decide)
        | ledPut hput _ _ => exact absurd (hget.symm.trans hput) (by decide)
        | notFound _ hled => exact absurd ⟨hpath, .inl hget⟩ hled
      · intro request' p' hmem hcode
        obtain ⟨rfl, hp⟩ := Prod.mk.inj (List.mem_singleton.mp hmem)
        obtain rfl := Except.ok.inj hp
        rcases hran.write with ⟨-, hput, hpath, hvalue⟩ | ⟨hother, -⟩
        · exact ⟨hput, hpath, hvalue⟩
        · exact absurd hcode hother
      · intro hother
        rcases hran.write with ⟨hcode, -⟩ | ⟨-, hled⟩
        · exact absurd hcode (hother request p (List.mem_singleton_self _))
        · exact hled

/-- The LED turned on over OSCORE, behind a handshake. -/
def litInside : List (Event Unit) :=
  wholeHandshake ++ [.oscore (opening (requestTo COAP_METHOD_PUT ledPath (some (ascii ['o', 'n']))))]

/-- A GET in the clear reports `'1'` after it; and `'0'` once a PUT in the clear turns it off. -/
theorem led_register_put_get :
    let get := requestTo COAP_METHOD_GET ledPath none
    let off := requestTo COAP_METHOD_PUT ledPath (some (ascii ['0']))
    (∃ p, ((board ()).run litInside).dispatches (.app get 0 0) = [(get, .ok p)] ∧
      p.payload = [0x31]) ∧
    ∃ p, ((board ()).run (litInside ++ [.app off 0 0])).dispatches (.app get 0 0)
        = [(get, .ok p)] ∧ p.payload = [0x30] := by
  intro get off
  have hmem : ∀ {d : Request × Except Int Packet} {ds}, ds = [d] → d ∈ ds := by
    rintro d ds rfl
    exact List.mem_singleton_self d
  constructor
  · obtain ⟨p, hp, -, hpayload⟩ := (led_register () litInside (.app get 0 0)).1 get _
      (hmem (d := (get, .ok (ackPacket 256 get 0x45 [0x31]))) rfl) rfl ⟨rfl, rfl⟩
    exact ⟨p, by rw [← hp]; rfl, hpayload⟩
  · obtain ⟨p, hp, -, hpayload⟩ := (led_register () (litInside ++ [.app off 0 0]) (.app get 0 0)).1
      get _ (hmem (d := (get, .ok (ackPacket 256 get 0x45 [0x30]))) rfl) rfl ⟨rfl, rfl⟩
    exact ⟨p, by rw [← hp]; rfl, hpayload⟩

end UsbNcmNet
