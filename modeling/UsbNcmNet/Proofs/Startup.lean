/-
Bring-up happens in order.

`main()` does four things, each of them a row of calls that ends at the first one that
fails: it brings up USB, and if that does not fail, it assigns the address, initialises
PSA in the build that needs it, and starts the service in the build where it does not
start itself.  Only USB is waited for; the other rows are tried whatever has become of
the ones before them.  `BroughtUp` says what that leaves behind when it is over, call by
call and answer by answer.  What `main()` has called at any moment is a beginning of such
a list, wherever the messages of the USB stack come in between, and whatever the calls
answer.

The device is enabled from one place only: by `main()` on a controller that does not
detect VBUS, by the callback on one that does.  There it follows the messages, one
command for each.
-/
import UsbNcmNet.Startup
import UsbNcmNet.Lib.Machine

namespace UsbNcmNet

open Startup Calls Trace

/-! ### The rows -/

/-- The answers that a row goes on from; nothing depends on the others. -/
def goesOn : StartupCall → Int → Bool
  | .usbdDeviceSetCodeTriple, _ | .usbdCanDetectVbus, _ | .netIfIpv4SetNetmaskByAddr, _
  | .psaCryptoInit, _ => true
  -- neither may be NULL
  | .netIfGetDefault, r | .netIfIpv4AddrAdd, r => r ≠ 0
  | .netAddrPtonAddr, r | .netAddrPtonNetmask, r => 0 ≤ r
  | _, r => r = 0

def setupRow (hwinfo : Bool) : List StartupCall :=
  [.usbdAddDescriptor .lang, .usbdAddDescriptor .mfr, .usbdAddDescriptor .product]
    ++ (if hwinfo then [.usbdAddDescriptor .sn] else [])
    ++ [.usbdAddConfiguration, .usbdRegisterAllClasses, .usbdDeviceSetCodeTriple,
      .usbdMsgRegisterCb, .usbdInit]

/-- USB is up when it is set up, and enabled if the callback will not do that. -/
def usbRow (hwinfo vbus : Bool) : List StartupCall :=
  setupRow hwinfo ++ .usbdCanDetectVbus :: if vbus then [] else [.usbdEnable]

def addressRow : List StartupCall :=
  [.netIfGetDefault, .netAddrPtonAddr, .netAddrPtonNetmask, .netIfIpv4AddrAdd,
    .netIfIpv4SetNetmaskByAddr]

def cryptoRow (build : Build) : List StartupCall := if build = .oscore then [.psaCryptoInit] else []

/-- Both credentials, and then the service. -/
def serverRow (build : Build) : List StartupCall :=
  if build = .dtls then [storePsk, storePskId, .coapServiceStart] else []

/-- The calls of `main()`, and what they have answered, when it is done. -/
inductive BroughtUp (build : Build) (hwinfo vbus : Bool) : List (StartupCall × Int) → Prop
  | failed {usb : List (StartupCall × Int)} (h : Failed goesOn (usbRow hwinfo vbus) usb) :
      BroughtUp build hwinfo vbus usb
  | up {usb address crypto server : List (StartupCall × Int)}
      (hup : Passed goesOn (usbRow hwinfo vbus) usb) (haddress : Tried goesOn addressRow address)
      (hcrypto : Tried goesOn (cryptoRow build) crypto)
      (hserver : Tried goesOn (serverRow build) server) :
      BroughtUp build hwinfo vbus (usb ++ address ++ crypto ++ server)

/-! ### `main()` as its rows -/

section
variable {α : Type}

theorem ncmUsbdInit_eq (hwinfo : Bool) :
    ncmUsbdInit hwinfo true = require goesOn (return false) (return true) (setupRow hwinfo) := by
  cases hwinfo
  · simp [ncmUsbdInit, setupRow, goesOn]
  · simp [ncmUsbdInit, setupRow, goesOn]

/-- The address is assigned or not, and `main()` goes on. -/
theorem assignStaticIpv4_bind (k : Calls StartupCall α) :
    (Startup.assignStaticIpv4 >>= fun _ => k) = attempt goesOn addressRow k := by
  unfold Startup.assignStaticIpv4
  simp only [bind_assoc, ite_then, pure_bind, attempt, addressRow, require_cons, require_nil, goesOn,
    decide_eq_true_eq, ite_not, if_true, ← Int.not_lt, ne_eq]

/-- Likewise the service. -/
theorem coapServerStart_bind (build : Build) (k : Calls StartupCall α) :
    (coapServerStart (build = .dtls) >>= fun _ => k) = attempt goesOn (serverRow build) k := by
  by_cases hbuild : build = .dtls
  · unfold coapServerStart serverRow
    simp only [hbuild, decide_true, Bool.not_true, Bool.false_eq_true, if_false, if_true, bind_assoc,
      ite_then, pure_bind, attempt, require_cons, require_nil, goesOn, storePsk, storePskId,
      decide_eq_true_eq, ite_not, ne_eq]
  · simp [coapServerStart, attempt, serverRow, hbuild]

end

theorem serve_eq (build : Build) : serve build =
    attempt goesOn addressRow
      (attempt goesOn (cryptoRow build) (attempt goesOn (serverRow build) (return 0))) := by
  rw [← coapServerStart_bind, ← assignStaticIpv4_bind]
  by_cases hbuild : build = .oscore
  · simp [serve, attempt, cryptoRow, hbuild]
  · simp [serve, attempt, cryptoRow, hbuild]

/-! ### What `main()` leaves behind -/

/-- What was answered about VBUS is what is so. -/
def Detects (vbus : Bool) (h : List (StartupCall × Int)) : Prop :=
  ∀ r, (.usbdCanDetectVbus, r) ∈ h → r = if vbus then 1 else 0

theorem Detects.left {vbus : Bool} {h h' : List (StartupCall × Int)} (hh : Detects vbus (h ++ h')) :
    Detects vbus h :=
  fun r hr => hh r (List.mem_append_left _ hr)

/-- `main()` is over and has returned `r`. -/
def Over (build : Build) (hwinfo : Bool) (h : List (StartupCall × Int)) (r : Int) : Prop :=
  r = 0 ∧ ∀ vbus, Detects vbus h → BroughtUp build hwinfo vbus h

section
variable {build : Build} {hwinfo : Bool} {usb : List (StartupCall × Int)}

/-- With USB up, the other rows are tried one after the other. -/
theorem serve_runs (hup : ∀ vbus, Detects vbus usb → Passed goesOn (usbRow hwinfo vbus) usb) :
    Runs (fun _ _ => True) (Over build hwinfo) usb (serve build) := by
  rw [serve_eq]
  refine Runs.attempt (fun _ _ _ _ _ _ => trivial) fun address haddress => ?_
  refine Runs.attempt (fun _ _ _ _ _ _ => trivial) fun crypto hcrypto => ?_
  refine Runs.attempt (fun _ _ _ _ _ _ => trivial) fun server hserver => ?_
  refine ⟨rfl, fun vbus hdetects => ?_⟩
  exact .up (hup vbus hdetects.left.left.left) haddress hcrypto hserver

/-- Without USB nothing else is begun. -/
theorem over_of_failed (h : ∀ vbus, Detects vbus usb → Failed goesOn (usbRow hwinfo vbus) usb) :
    Over build hwinfo usb 0 :=
  ⟨rfl, fun vbus hdetects => .failed (h vbus hdetects)⟩

end

/-- Where USB is set up, VBUS decides whether the device is enabled here. -/
theorem passed_detected {hwinfo vbus : Bool} {usb : List (StartupCall × Int)} {r : Int}
    (husb : Passed goesOn (setupRow hwinfo) usb)
    (hdetects : Detects vbus (usb ++ [(.usbdCanDetectVbus, r)])) :
    Passed goesOn (setupRow hwinfo ++ [.usbdCanDetectVbus]) (usb ++ [(.usbdCanDetectVbus, r)]) ∧
      (vbus = false ↔ r = 0) := by
  refine ⟨husb.append ((Passed.nil _).cons rfl), ?_⟩
  have hr := hdetects r (by simp)
  cases vbus with
  | false => exact iff_of_true rfl hr
  | true =>
      refine iff_of_false (by simp) ?_
      rw [hr]
      decide

/-- **`main()`** does what it is for, or gives up where USB fails, and returns 0. -/
theorem main_runs (build : Build) (hwinfo : Bool) :
    Runs (fun _ _ => True) (Over build hwinfo) [] (main build hwinfo) := by
  have hmain : main build hwinfo = require goesOn (return 0)
      (perform .usbdCanDetectVbus >>= fun r =>
        if r = 0 then require goesOn (return 0) (serve build) [.usbdEnable] else serve build)
      (setupRow hwinfo) := by
    unfold main
    rw [ncmUsbdInit_eq, require_bind]
    simp [goesOn]
  rw [hmain]
  refine Runs.row (fun _ _ _ _ _ _ => trivial) ?_ ?_
  · intro usb husb
    exact over_of_failed fun vbus _ => husb.append _
  · intro usb husb
    refine Runs.perform trivial fun r => ?_
    split
    · rename_i hr
      refine Runs.row (fun _ _ _ _ _ _ => trivial) ?_ ?_
      · intro new hnew
        refine over_of_failed fun vbus hdetects => ?_
        obtain ⟨hpassed, hvbus⟩ := passed_detected husb hdetects.left
        obtain rfl := hvbus.mpr hr
        have hboth := hpassed.failed hnew
        rwa [List.append_assoc] at hboth
      · intro new hnew
        refine serve_runs fun vbus hdetects => ?_
        obtain ⟨hpassed, hvbus⟩ := passed_detected husb hdetects.left
        obtain rfl := hvbus.mpr hr
        have hboth := hpassed.append hnew
        rwa [List.append_assoc] at hboth
    · rename_i hr
      refine serve_runs fun vbus hdetects => ?_
      obtain ⟨hpassed, hvbus⟩ := passed_detected husb hdetects
      cases vbus with
      | true => exact hpassed
      | false => exact absurd (hvbus.mp rfl) hr

/-- Call by call, `assign_static_ipv4` comes out as it does in one step of `main()`. -/
theorem assignStaticIpv4_result (net : NetAnswers) (answers : StartupCall → Int)
    (hiface : answers .netIfGetDefault = 0 ↔ net.iface = false)
    (haddr : answers .netAddrPtonAddr = net.ptonAddr)
    (hmask : answers .netAddrPtonNetmask = net.ptonNetmask)
    (hadd : answers .netIfIpv4AddrAdd = 0 ↔ net.addrAdd = false) :
    Startup.assignStaticIpv4.result answers = assignStaticIpv4 net := by
  unfold Startup.assignStaticIpv4 UsbNcmNet.assignStaticIpv4
  simp only [result_perform_bind, result_ite, result_pure, hiface, haddr, hmask, hadd]
  by_cases hpton : net.ptonAddr < 0
  · simp [hpton]
  · simp [hpton]

/-! ### Both threads -/

/-- The command a message of the USB stack stands for. -/
def vbusCommand : UsbdMsg → List StartupCall
  | .vbusReady => [.usbdEnable]
  | .vbusRemoved => [.usbdDisable]
  | .other => []

/-- What one callback calls. -/
def callbackCalls (vbus : Bool) (msg : UsbdMsg) : List StartupCall :=
  .usbdCanDetectVbus :: if vbus then vbusCommand msg else []

/-- What a callback has left to do, and the calls that makes. -/
inductive Left (vbus : Bool) : Calls StartupCall Unit → List StartupCall → Prop
  | idle : Left vbus (.ret ()) []
  | asked (msg : UsbdMsg) : Left vbus (usbdMsgCb msg) (callbackCalls vbus msg)
  | detected (msg : UsbdMsg) : Left vbus (onVbus msg) (vbusCommand msg)

theorem Left.returned {vbus : Bool} {a : Unit} {calls : List StartupCall}
    (h : Left vbus (.ret a) calls) : calls = [] := by
  generalize hp : (Calls.ret a : Calls StartupCall Unit) = p at h
  cases h with
  | idle => rfl
  | asked msg => nomatch hp
  | detected msg =>
      cases msg with
      | vbusReady => nomatch hp
      | vbusRemoved => nomatch hp
      | other => rfl

/-- One answer, and one call fewer to make. -/
theorem Left.step {vbus : Bool} {p : Calls StartupCall Unit} {c : StartupCall}
    {next : Int → Calls StartupCall Unit} {calls : List StartupCall} (h : Left vbus p calls)
    (hp : p = .call c next) (r : Int) :
    ∃ rest, Left vbus (next (answer vbus (some c) r)) rest ∧ calls = c :: rest := by
  cases h with
  | idle => nomatch hp
  | asked msg =>
      obtain ⟨rfl, hnext⟩ := Calls.call.inj hp
      subst hnext
      cases vbus with
      | false => exact ⟨[], .idle, rfl⟩
      | true => exact ⟨vbusCommand msg, .detected msg, rfl⟩
  | detected msg =>
      cases msg with
      | vbusReady =>
          obtain ⟨rfl, hnext⟩ := Calls.call.inj hp
          subst hnext
          exact ⟨[], .idle, rfl⟩
      | vbusRemoved =>
          obtain ⟨rfl, hnext⟩ := Calls.call.inj hp
          subst hnext
          exact ⟨[], .idle, rfl⟩
      | other => nomatch hp

/-- What holds between any two steps. -/
structure BringUp (build : Build) (hwinfo vbus : Bool) (s : Startup.State) : Prop where
  main : s.main.Ok (fun _ _ => True) (Over build hwinfo)
  detects : Detects vbus s.main.history
  registered : s.delivered ≠ [] → (.usbdMsgRegisterCb, 0) ∈ s.main.history
  callback : ∃ calls, Left vbus s.usb.rest calls ∧
    s.usb.history.map Prod.fst ++ calls = s.delivered.flatMap (callbackCalls vbus)

theorem bringUp_init (build : Build) (hwinfo vbus : Bool) :
    BringUp build hwinfo vbus (startup build hwinfo vbus).init where
  main := ⟨atEach_nil _, main_runs build hwinfo⟩
  detects _ hr := absurd hr List.not_mem_nil
  registered h := absurd rfl h
  callback := ⟨[], .idle, rfl⟩

theorem bringUp_step {build : Build} {hwinfo vbus : Bool} {s : Startup.State}
    (h : BringUp build hwinfo vbus s) (a : Startup.Action) :
    BringUp build hwinfo vbus (s.step vbus a) := by
  cases a with
  | main r =>
      rcases hrest : s.main.rest with a | ⟨c, next⟩
      · -- `main()` has returned
        have hstep : s.step vbus (.main r) = s := by
          simp [State.step, Thread.step, hrest]
        rw [hstep]
        exact h
      · have hstep : (s.step vbus (.main r)).main.history
            = s.main.history ++ [(c, answer vbus (some c) r)] := by
          simp [State.step, Thread.step, Thread.next, hrest]
        refine ⟨h.main.step _, ?_, ?_, h.callback⟩
        · intro r' hr'
          rw [hstep] at hr'
          rcases List.mem_append.mp hr' with hr' | hr'
          · exact h.detects r' hr'
          · obtain ⟨rfl, rfl⟩ := Prod.mk.inj (List.mem_singleton.mp hr')
            simp [answer]
        · intro hdelivered
          rw [hstep]
          exact List.mem_append_left _ (h.registered hdelivered)
  | usb r =>
      obtain ⟨calls, hleft, hcalls⟩ := h.callback
      rcases hrest : s.usb.rest with a | ⟨c, next⟩
      · have hstep : s.step vbus (.usb r) = s := by
          simp [State.step, Thread.step, hrest]
        rw [hstep]
        exact h
      · obtain ⟨rest, hrest', rfl⟩ := hleft.step hrest r
        refine ⟨h.main, h.detects, h.registered, rest, ?_, ?_⟩
        · simpa [State.step, Thread.step, Thread.next, hrest] using hrest'
        · simpa [State.step, Thread.step, Thread.next, hrest] using hcalls
  | message msg =>
      unfold State.step
      dsimp only
      split
      · rename_i hready
        obtain ⟨calls, hleft, hcalls⟩ := h.callback
        have hnone : calls = [] := by
          rcases hrest : s.usb.rest with a | ⟨c, next⟩
          · rw [hrest] at hleft
            exact hleft.returned
          · simp [Thread.next, hrest] at hready
        refine ⟨h.main, h.detects, fun _ => hready.1, _, .asked msg, ?_⟩
        rw [hnone, List.append_nil] at hcalls
        rw [List.flatMap_append, ← hcalls]
        simp
      · exact h

/-- What has been called can be gone on with to the end. -/
theorem BringUp.broughtUp {build : Build} {hwinfo vbus : Bool} {s : Startup.State}
    (h : BringUp build hwinfo vbus s) : ∃ later, BroughtUp build hwinfo vbus (s.main.history ++ later) := by
  obtain ⟨later, r, ⟨-, hover⟩, hlater⟩ := h.main.rest.exists_return fun _ => if vbus then 1 else 0
  refine ⟨later, hover vbus ?_⟩
  intro r hr
  rcases List.mem_append.mp hr with hr | hr
  · exact h.detects r hr
  · exact hlater _ hr

/-- `main()` enables the device only where VBUS is not detected. -/
theorem BroughtUp.not_enabled {build : Build} {hwinfo : Bool} {h : List (StartupCall × Int)}
    (hup : BroughtUp build hwinfo true h) (r : Int) : (.usbdEnable, r) ∉ h := by
  intro hr
  cases hup with
  | failed husb =>
      have hmem := Tried.mem (.inr husb) hr
      cases hwinfo <;> simp [usbRow, setupRow] at hmem
  | up husb haddress hcrypto hserver =>
      simp only [List.mem_append] at hr
      rcases hr with ((hr | hr) | hr) | hr
      · have hmem := Tried.mem (.inl husb) hr
        cases hwinfo <;> simp [usbRow, setupRow] at hmem
      · have hmem := haddress.mem hr
        simp [addressRow] at hmem
      · have hmem := hcrypto.mem hr
        cases build <;> simp [cryptoRow] at hmem
      · have hmem := hserver.mem hr
        cases build <;> simp [serverRow, storePsk, storePskId] at hmem

/--
**Bring-up happens in order**, in every build and wherever the messages of the USB stack
come in.  What `main()` has called at any moment, with the answers, is a beginning of a
bring-up: the steps of `ncm_usbd_init` in order, `usbd_enable` where VBUS is not detected,
and, if all of these succeeded and only then, the steps of the address assignment, each if
the one before it succeeded, PSA, both credentials and the service.  When it returns it
returns 0, and all of that is done.  It enables the device only where VBUS is not detected.
The callback runs only when it is registered, and what it has called so far is one command
for each message, in order, where VBUS is detected, and none where it is not.
-/
theorem startup_in_order (build : Build) (hwinfo vbus : Bool) (acts : List Startup.Action) :
    let s := (startup build hwinfo vbus).run acts
    (∃ later, BroughtUp build hwinfo vbus (s.main.history ++ later)) ∧
    (∀ r, s.main.rest = .ret r → r = 0 ∧ BroughtUp build hwinfo vbus s.main.history) ∧
    (∀ r, (.usbdEnable, r) ∈ s.main.history → vbus = false) ∧
    (s.delivered ≠ [] → (.usbdMsgRegisterCb, 0) ∈ s.main.history) ∧
    s.usb.history.map Prod.fst <+: s.delivered.flatMap (callbackCalls vbus) ∧
    (s.usb.next = none → s.usb.history.map Prod.fst = s.delivered.flatMap (callbackCalls vbus)) := by
  intro s
  have hinv : BringUp build hwinfo vbus s :=
    (startup build hwinfo vbus).run_induction (P := fun _ s => BringUp build hwinfo vbus s)
      (bringUp_init build hwinfo vbus) (fun _ _ a h => bringUp_step h a) acts
  obtain ⟨calls, hleft, hcalls⟩ := hinv.callback
  obtain ⟨later, hup⟩ := hinv.broughtUp
  refine ⟨⟨later, hup⟩, ?_, ?_, hinv.registered, ⟨calls, hcalls⟩, ?_⟩
  · intro r hr
    obtain ⟨hzero, hover⟩ := hinv.main.returned hr
    exact ⟨hzero, hover vbus hinv.detects⟩
  · intro r hr
    cases vbus with
    | false => rfl
    | true => exact absurd (List.mem_append_left later hr) (hup.not_enabled r)
  · intro hidle
    rcases hrest : s.usb.rest with a | ⟨c, next⟩
    · rw [hrest] at hleft
      rw [← hcalls, hleft.returned, List.append_nil]
    · simp [Thread.next, hrest] at hidle

end UsbNcmNet
