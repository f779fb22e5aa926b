/-
Boot: `main()` against the CoAP service thread, `src/main.c`.

`COAP_SERVICE_AUTOSTART` starts the service on a thread of its own, so requests
can come in as soon as the interface has its address, which is behind
`net_if_ipv4_addr_add` and in front of the netmask, wherever `main()` is at that
moment.  The two threads share nothing but the libraries: a handler reads and
writes globals that `main()` never touches.  Which calls a handler will make, and
what it will leave in the globals, is therefore settled when its request is
delivered, and only when it makes each of the calls is up to the scheduler.  While
a handler is running, `board` is what it will leave.

A step is one step of `main()`, the delivery of a request, or the next call of the
handler that is running.
-/
import UsbNcmNet.Board

namespace UsbNcmNet

variable {σ : Type}

def PSA_SUCCESS : Int := 0

/-- What the network stack answers to `assign_static_ipv4`. -/
structure NetAnswers where
  /-- `net_if_get_default` finds an interface. -/
  iface : Bool
  /-- `net_addr_pton` on the address and on the netmask. -/
  ptonAddr : Int
  ptonNetmask : Int
  /-- `net_if_ipv4_addr_add` finds room for the address. -/
  addrAdd : Bool
  deriving DecidableEq, Repr

/-- What `assign_static_ipv4` returns; 0 exactly when the address is on the interface. -/
def assignStaticIpv4 (net : NetAnswers) : Int :=
  if !net.iface then -ENODEV
  else if net.ptonAddr < 0 ∨ net.ptonNetmask < 0 then -EINVAL
  else if !net.addrAdd then -EADDRNOTAVAIL
  else 0

/-- The next thing `main()` will do. -/
inductive MainPc
  | ncmUsbdInit | usbdEnable | assignStaticIpv4 | setNetmask | psaCryptoInit | coapServerStart
  | returned
  deriving DecidableEq, Repr

/-- Both threads, and the calls made so far with whether PSA was up at the time. -/
structure System (σ : Type) where
  pc : MainPc
  /-- `net_if_ipv4_addr_add` has put the address on the interface. -/
  hasAddr : Bool
  /-- `psa_crypto_init` has returned `PSA_SUCCESS`. -/
  psaUp : Bool
  board : Board σ
  /-- The calls the running handler has yet to make. -/
  pending : List (Call σ)
  made : List (Call σ × Bool)

/-- One step of either thread, with what it is answered. -/
inductive Action (σ : Type)
  | ncmUsbdInit (ok canDetectVbus : Bool)
  | usbdEnable (ret : Int)
  /-- `assign_static_ipv4` up to its return, or up to `net_if_ipv4_addr_add` where that succeeds. -/
  | assignStaticIpv4 (net : NetAnswers)
  /-- The rest of it: `net_if_ipv4_set_netmask_by_addr`, whose answer is ignored. -/
  | setNetmask
  | psaCryptoInit (st : Int)
  | coapServerStart
  | deliver (e : Event σ)
  | makeCall

/-- The service can hand a request to a handler: it is reachable and none is running. -/
def System.accepts (s : System σ) : Bool := s.hasAddr && s.pending.isEmpty

/-- An action that is not next, or not possible, changes nothing. -/
def System.step (s : System σ) : Action σ → System σ
  | .ncmUsbdInit ok canDetectVbus =>
      if s.pc = .ncmUsbdInit then
        { s with
          pc := if !ok then .returned else if canDetectVbus then .assignStaticIpv4
            else .usbdEnable }
      else s
  | .usbdEnable ret =>
      if s.pc = .usbdEnable then
        { s with pc := if ret ≠ 0 then .returned else .assignStaticIpv4 }
      else s
  | .assignStaticIpv4 net =>
      -- the result is ignored: boot goes on without an address
      if s.pc = .assignStaticIpv4 then
        { s with
          pc := if assignStaticIpv4 net = 0 then .setNetmask else .psaCryptoInit
          hasAddr := decide (assignStaticIpv4 net = 0) }
      else s
  | .setNetmask => if s.pc = .setNetmask then { s with pc := .psaCryptoInit } else s
  | .psaCryptoInit st =>
      -- a failure is logged and boot goes on
      if s.pc = .psaCryptoInit then
        { s with pc := .coapServerStart, psaUp := decide (st = PSA_SUCCESS) }
      else s
  | .coapServerStart => if s.pc = .coapServerStart then { s with pc := .returned } else s
  | .deliver e =>
      if s.accepts then { s with board := s.board.step e, pending := s.board.newCalls e } else s
  | .makeCall =>
      match s.pending with
      | [] => s
      | c :: rest => { s with pending := rest, made := s.made ++ [(c, s.psaUp)] }

/-- The system from power-on; `ctx` is the zeroed `struct context`. -/
def system (ctx : σ) : Machine (System σ) (Action σ) where
  init :=
    { pc := .ncmUsbdInit, hasAddr := false, psaUp := false, board := (board ctx).init
      pending := [], made := [] }
  step := System.step

@[simp] theorem system_step (ctx : σ) : (system ctx).step = System.step := rfl

end UsbNcmNet
