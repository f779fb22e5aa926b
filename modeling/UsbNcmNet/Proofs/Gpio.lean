/-
The flag and the pin.

`led_state` is what GET reports, and `led_gpio` is what is lit.  A PUT drives the pin
first and sets the flag after it, and does not look at what `gpio_pin_set_dt` returned:
when the call fails, the flag and the answer say what the pin does not show.

The specification is the driver: a machine whose steps are calls of `gpio_pin_set_dt`
with what they return, and whose state is the two copies of the LED.  The board
simulates it, and on a run of the driver the copies agree as long as no call fails.
-/
import UsbNcmNet.Proofs.Led
import UsbNcmNet.Proofs.Routes

namespace UsbNcmNet

open Trace

variable {σ : Type}

/-! ### The driver -/

/-- A call of `gpio_pin_set_dt`: the value, and what it returned. -/
structure PinSet where
  value : Bool
  ret : Int
  deriving DecidableEq, Repr

/-- The level the call has driven, if it succeeded. -/
def PinSet.driven (c : PinSet) : Option Bool := if c.ret < 0 then none else some c.value

/-- The logical level last successfully driven; `led_init` leaves the pin inactive. -/
def lastDriven (calls : List PinSet) : Bool := (latest PinSet.driven calls).getD false

/-- The LED under calls of the driver: the flag is set whatever comes back. -/
def driver : Machine Led PinSet where
  init := Led.boot
  step := fun led c => { state := c.value, pin := gpioPinSetDt c.ret c.value led.pin }

/-- The pin has the level last driven. -/
theorem driver_pin (calls : List PinSet) : (driver.run calls).pin = lastDriven calls := by
  induction calls using List.reverseRecOn with
  | nil => rfl
  | append_singleton calls c ih =>
      rw [Machine.run_concat]
      show gpioPinSetDt c.ret c.value (driver.run calls).pin = _
      rw [ih]
      unfold lastDriven gpioPinSetDt
      rw [latest_append]
      by_cases hfail : c.ret < 0
      · simp [PinSet.driven, hfail]
      · simp [PinSet.driven, hfail]

/-- While no call fails, the flag is the pin. -/
theorem driver_agrees {calls : List PinSet} (h : ∀ c ∈ calls, 0 ≤ c.ret) :
    (driver.run calls).state = (driver.run calls).pin := by
  induction calls using List.reverseRecOn with
  | nil => rfl
  | append_singleton calls c _ =>
      have hret : ¬ c.ret < 0 := Int.not_lt.mpr (h c (by simp))
      rw [Machine.run_concat]
      show c.value = gpioPinSetDt c.ret c.value (driver.run calls).pin
      rw [gpioPinSetDt, if_neg hret]

/-! ### The board drives it -/

/-- A PUT to `/led` with a payload that parses. -/
def Request.Drives (request : Request) : Prop :=
  request.code = COAP_METHOD_PUT ∧ request.names ledPath ∧ 0 ≤ putValue request.payload

instance (request : Request) : Decidable request.Drives :=
  inferInstanceAs (Decidable (_ ∧ _))

/-- The call of `gpio_pin_set_dt` that an event leads to. -/
def Event.pinSet (b : Board σ) (e : Event σ) : Option PinSet :=
  match e.inner b with
  | none => none
  | some request =>
      if request.Drives then some ⟨decide (putValue request.payload ≠ 0), e.gpio⟩ else none

/-- A run of the dispatcher: a driver call answered 2.04, or none and another answer. -/
theorem Dispatched.drives {gpio : Int} {request : Request} {bufLen : Nat} {led led' : Led}
    {p : Packet} (h : Dispatched gpio request bufLen led p led') :
    (request.Drives ∧ p.code = COAP_RESPONSE_CODE_CHANGED ∧
      led' = driver.step led ⟨decide (putValue request.payload ≠ 0), gpio⟩) ∨
    (¬ request.Drives ∧ p.code ≠ COAP_RESPONSE_CODE_CHANGED ∧ led' = led) := by
  cases h with
  | hello hcode _ =>
      refine .inr ⟨fun hd => ?_, content_ne_changed, rfl⟩
      exact absurd (hcode.symm.trans hd.1) (by decide)
  | ledGet hcode _ =>
      refine .inr ⟨fun hd => ?_, content_ne_changed, rfl⟩
      exact absurd (hcode.symm.trans hd.1) (by decide)
  | ledPutBad _ _ hvalue =>
      refine .inr ⟨fun hd => ?_, badRequest_ne_changed, rfl⟩
      exact absurd hd.2.2 (by omega)
  | ledPut hcode hpath hvalue => exact .inl ⟨⟨hcode, hpath, hvalue⟩, rfl, rfl⟩
  | notFound _ hled =>
      refine .inr ⟨fun hd => ?_, notFound_ne_changed, rfl⟩
      exact hled ⟨hd.2.1, .inr hd.1⟩

/-- What an event does by its call of the driver: nothing without one, else a 2.04 in any case. -/
inductive PinRan (b : Board σ) (e : Event σ) : Option PinSet → Prop
  | silent (hled : (b.step e).dev.led = b.dev.led)
      (hother : ∀ request p, (request, .ok p) ∈ b.dispatches e →
        p.code ≠ COAP_RESPONSE_CODE_CHANGED) : PinRan b e none
  | called {request : Request} {p : Packet} {c : PinSet} (hdrives : request.Drives)
      (hmem : (request, .ok p) ∈ b.dispatches e) (hcode : p.code = COAP_RESPONSE_CODE_CHANGED)
      (hled : (b.step e).dev.led = driver.step b.dev.led c) : PinRan b e (some c)

/-- **What an event does to the flag and the pin.** -/
theorem pinSet_ran (b : Board σ) (e : Event σ) : PinRan b e (e.pinSet b) := by
  unfold Event.pinSet
  have hran := inner_ran b e
  generalize e.inner b = reached at hran ⊢
  cases hran with
  | turnedAway hnone hled =>
      refine .silent hled ?_
      intro request p hmem
      rw [hnone] at hmem
      exact absurd hmem List.not_mem_nil
  | @dispatched request p hone hran =>
      have hmem : (request, .ok p) ∈ b.dispatches e := by
        rw [hone]
        exact List.mem_singleton_self _
      rcases hran.drives with ⟨hdrives, hcode, hled⟩ | ⟨hnot, hother, hled⟩
      · simp only [hdrives, if_true]
        exact .called hdrives hmem hcode hled
      · simp only [hnot, if_false]
        refine .silent hled ?_
        intro request' p' hmem'
        rw [hone, List.mem_singleton] at hmem'
        rw [Except.ok.inj (Prod.mk.inj hmem').2]
        exact hother

/-- What an event does to the LED is its call of the driver. -/
theorem led_step (b : Board σ) (e : Event σ) :
    (b.step e).dev.led = ((e.pinSet b).map (driver.step b.dev.led)).getD b.dev.led := by
  have hran := pinSet_ran b e
  generalize e.pinSet b = call at hran ⊢
  cases hran with
  | silent hled _ => exact hled
  | called _ _ _ hled => exact hled

/-- The board simulates the driver. -/
def driverSimulation (ctx : σ) : Machine.Simulation (board ctx) driver where
  abs b := b.dev.led
  label b e := e.pinSet b
  init := rfl
  step := led_step

/-! ### Two copies of one state -/

theorem led_run (ctx : σ) (evs : List (Event σ)) :
    ((board ctx).run evs).dev.led = driver.run ((driverSimulation ctx).labels evs) :=
  (driverSimulation ctx).run evs

/-- The pin of the board has the level last driven. -/
theorem pin_eq (ctx : σ) (evs : List (Event σ)) :
    ((board ctx).run evs).dev.led.pin = lastDriven ((driverSimulation ctx).labels evs) := by
  rw [led_run, driver_pin]

/-- What is said of the LED along a run is true of the pin. -/
structure LedTruthful (ctx : σ) (evs : List (Event σ)) : Prop where
  /-- After each request the flag is the level last driven. -/
  state : ∀ pre, pre <+: evs →
    ((board ctx).run pre).dev.led.state = lastDriven ((driverSimulation ctx).labels pre)
  /-- A PUT is answered 2.04 only if its driver call succeeded. -/
  changed : AtEach (fun pre e => ∀ request p,
    (request, .ok p) ∈ ((board ctx).run pre).dispatches e →
    request.code = COAP_METHOD_PUT → request.uriPath = ledPath →
    p.code = COAP_RESPONSE_CODE_CHANGED →
    ∃ c, e.pinSet ((board ctx).run pre) = some c ∧ 0 ≤ c.ret) evs

/-- No call of the driver fails along the run. -/
def DriverSucceeds (ctx : σ) (evs : List (Event σ)) : Prop :=
  AtEach (fun pre e => ∀ c, e.pinSet ((board ctx).run pre) = some c → 0 ≤ c.ret) evs

theorem DriverSucceeds.of_prefix {ctx : σ} {pre evs : List (Event σ)} (h : DriverSucceeds ctx evs)
    (hpre : pre <+: evs) : DriverSucceeds ctx pre := by
  obtain ⟨post, rfl⟩ := hpre
  exact (atEach_append.mp h).1

theorem DriverSucceeds.labels {ctx : σ} {evs : List (Event σ)} (h : DriverSucceeds ctx evs) :
    ∀ c ∈ (driverSimulation ctx).labels evs, 0 ≤ c.ret := by
  induction evs using List.reverseRecOn with
  | nil => intro c hc; exact absurd hc List.not_mem_nil
  | append_singleton evs e ih =>
      obtain ⟨hevs, he⟩ := atEach_concat.mp h
      intro c hc
      rw [Machine.Simulation.labels_concat, List.mem_append] at hc
      rcases hc with hc | hc
      · exact ih hevs c hc
      · exact he c (Option.mem_toList.mp hc)

/-- While no call fails, the flag of the board is the level last driven. -/
theorem DriverSucceeds.state {ctx : σ} {evs : List (Event σ)} (h : DriverSucceeds ctx evs) :
    ((board ctx).run evs).dev.led.state = lastDriven ((driverSimulation ctx).labels evs) := by
  rw [← pin_eq, led_run]
  exact driver_agrees h.labels

/-- A driver call is answered 2.04, so where only calls that succeed are, none fails. -/
theorem LedTruthful.driverSucceeds {ctx : σ} {evs : List (Event σ)} (h : LedTruthful ctx evs) :
    DriverSucceeds ctx evs := by
  intro pre e post hsplit c hc
  have hran := pinSet_ran ((board ctx).run pre) e
  rw [hc] at hran
  cases hran with
  | called hdrives hmem hcode _ =>
      obtain ⟨hput, hpath, -⟩ := hdrives
      obtain ⟨c', hc', hret⟩ := h.changed pre e post hsplit _ _ hmem hput hpath.2 hcode
      obtain rfl : c = c' := Option.some.inj (hc.symm.trans hc')
      exact hret

/--
**The LED is what it is said to be exactly as long as the driver does not fail.**  In
every run, by whatever mix of routes: the flag is the level last driven after each
request and a PUT is answered 2.04 only for a call that succeeded, if and only if no
call of `gpio_pin_set_dt` in the run fails.
-/
theorem ledTruthful_iff (ctx : σ) (evs : List (Event σ)) :
    LedTruthful ctx evs ↔ DriverSucceeds ctx evs := by
  constructor
  · intro h
    exact h.driverSucceeds
  · intro h
    refine ⟨fun pre hpre => (h.of_prefix hpre).state, ?_⟩
    intro pre e post hsplit request p hmem _ _ hcode
    have hran := pinSet_ran ((board ctx).run pre) e
    cases hc : e.pinSet ((board ctx).run pre) with
    | none =>
        rw [hc] at hran
        cases hran with
        | silent _ hother => exact absurd hcode (hother request p hmem)
    | some c => exact ⟨c, rfl, h pre e post hsplit c hc⟩

/-- A PUT of `1` whose driver call fails. -/
def failingPut : Event Unit :=
  .app (requestTo COAP_METHOD_PUT ledPath (some (ascii ['1']))) (- EIO) 0

/-- It is answered 2.04 and the flag goes on, while the pin stays off. -/
theorem failing_put_acknowledged :
    ((((board ()).run []).dispatches failingPut).map fun d => d.2.toOption.map Packet.code)
        = [some COAP_RESPONSE_CODE_CHANGED] ∧
      ((board ()).run [failingPut]).dev.led = { state := true, pin := false } ∧
      ¬ LedTruthful () [failingPut] := by
  refine ⟨rfl, rfl, ?_⟩
  intro h
  have hstate := h.state [failingPut] List.prefix_rfl
  have hdriven : lastDriven ((driverSimulation ()).labels [failingPut]) = false := rfl
  rw [hdriven] at hstate
  exact Bool.noConfusion hstate

end UsbNcmNet
