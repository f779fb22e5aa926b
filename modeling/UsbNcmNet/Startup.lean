/-
Bring-up: `src/usbd_setup.c`, `src/main.c` and `coap_server_start`, call by call.

`main()` runs once.  The USB stack calls `usbd_msg_cb` on a thread of its own, one
message at a time, as soon as the callback is registered, so it may come between any
two calls of `main()`.  Neither thread has any state but what its calls have answered.

A call answers a number; a pointer is 0 when it is NULL, a truth value when it is
false.  Whether the controller detects VBUS is a matter of the board and answered the
same every time.  Descriptors and addresses are constants of the source and stand
behind the names of the calls.
-/
import UsbNcmNet.Boot
import UsbNcmNet.Lib.Calls

namespace UsbNcmNet

namespace Startup

inductive Descriptor
  | lang | mfr | product | sn
  deriving DecidableEq, Repr

inductive CredentialType
  | psk | pskId
  deriving DecidableEq, Repr

inductive StartupCall
  | usbdAddDescriptor (d : Descriptor)
  | usbdAddConfiguration
  | usbdRegisterAllClasses
  | usbdDeviceSetCodeTriple
  | usbdMsgRegisterCb
  | usbdInit
  | usbdCanDetectVbus
  | usbdEnable
  | usbdDisable
  | netIfGetDefault
  | netAddrPtonAddr
  | netAddrPtonNetmask
  | netIfIpv4AddrAdd
  | netIfIpv4SetNetmaskByAddr
  | psaCryptoInit
  | tlsCredentialAdd (tag : Nat) (type : CredentialType) (data : Bytes)
  | coapServiceStart
  deriving DecidableEq, Repr

open Calls

/-! ### `usbd_setup.c` -/

/-- False where the source returns NULL. -/
def ncmUsbdInit (hwinfo msgCb : Bool) : Calls StartupCall Bool := do
  if (← perform (.usbdAddDescriptor .lang)) ≠ 0 then return false
  if (← perform (.usbdAddDescriptor .mfr)) ≠ 0 then return false
  if (← perform (.usbdAddDescriptor .product)) ≠ 0 then return false
  if hwinfo then
    if (← perform (.usbdAddDescriptor .sn)) ≠ 0 then return false
  if (← perform .usbdAddConfiguration) ≠ 0 then return false
  if (← perform .usbdRegisterAllClasses) ≠ 0 then return false
  let _ ← perform .usbdDeviceSetCodeTriple
  if msgCb then
    if (← perform .usbdMsgRegisterCb) ≠ 0 then return false
  if (← perform .usbdInit) ≠ 0 then return false
  return true

/-! ### `coap_server_start` -/

def PSK_TAG : Nat := 1

def pskKey : Bytes := ascii "zbook-dtls-psk!!".toList

def pskId : Bytes := ascii "zbook".toList

/-- The call that stores a credential. -/
def storePsk : StartupCall := .tlsCredentialAdd PSK_TAG .psk pskKey

def storePskId : StartupCall := .tlsCredentialAdd PSK_TAG .pskId pskId

/-- Without DTLS the service is already running. -/
def coapServerStart (dtls : Bool) : Calls StartupCall Int := do
  if !dtls then return 0
  let err ← perform storePsk
  if err ≠ 0 then return err
  let err ← perform storePskId
  if err ≠ 0 then return err
  let err ← perform .coapServiceStart
  if err ≠ 0 then return err
  return 0

/-! ### `main.c` -/

inductive UsbdMsg
  | vbusReady | vbusRemoved | other
  deriving DecidableEq, Repr

/-- `usbd_msg_cb` behind its check. -/
def onVbus : UsbdMsg → Calls StartupCall Unit
  | .vbusReady => do let _ ← perform .usbdEnable
  | .vbusRemoved => do let _ ← perform .usbdDisable
  | .other => return ()

def usbdMsgCb (msg : UsbdMsg) : Calls StartupCall Unit := do
  if (← perform .usbdCanDetectVbus) = 0 then return ()
  onVbus msg

def assignStaticIpv4 : Calls StartupCall Int := do
  if (← perform .netIfGetDefault) = 0 then return -ENODEV
  if (← perform .netAddrPtonAddr) < 0 then return -EINVAL
  if (← perform .netAddrPtonNetmask) < 0 then return -EINVAL
  if (← perform .netIfIpv4AddrAdd) = 0 then return -EADDRNOTAVAIL
  let _ ← perform .netIfIpv4SetNetmaskByAddr
  return 0

/-- The three builds: `prj.conf` alone, with `dtls.conf`, with `oscore.conf`. -/
inductive Build
  | plain | dtls | oscore
  deriving DecidableEq, Repr

/-- `main()` behind the bring-up of USB; what fails here is logged and passed over. -/
def serve (build : Build) : Calls StartupCall Int := do
  let _ ← assignStaticIpv4
  if build = .oscore then
    let _ ← perform .psaCryptoInit
  let _ ← coapServerStart (build = .dtls)
  return 0

def main (build : Build) (hwinfo : Bool) : Calls StartupCall Int := do
  if !(← ncmUsbdInit hwinfo true) then return 0
  if (← perform .usbdCanDetectVbus) = 0 then
    if (← perform .usbdEnable) ≠ 0 then return 0
  serve build

/-! ### Both threads -/

structure State where
  main : Thread StartupCall Int
  /-- All callbacks so far, and what is left of the one that is running. -/
  usb : Thread StartupCall Unit
  /-- The messages the callback was called with. -/
  delivered : List UsbdMsg

/-- One step: a call of either thread is answered, or a message comes in. -/
inductive Action
  | main (r : Int)
  | usb (r : Int)
  | message (msg : UsbdMsg)
  deriving DecidableEq, Repr

/-- Whether VBUS is detected does not depend on when it is asked. -/
def answer (vbus : Bool) (c : Option StartupCall) (r : Int) : Int :=
  if c = some .usbdCanDetectVbus then (if vbus then 1 else 0) else r

/-- The stack delivers a message once there is a callback and it is not running. -/
def State.step (vbus : Bool) (s : State) : Action → State
  | .main r => { s with main := s.main.step (answer vbus s.main.next r) }
  | .usb r => { s with usb := s.usb.step (answer vbus s.usb.next r) }
  | .message msg =>
      if (.usbdMsgRegisterCb, 0) ∈ s.main.history ∧ s.usb.next = none then
        { s with
          usb := { s.usb with rest := usbdMsgCb msg }
          delivered := s.delivered ++ [msg] }
      else s

def startup (build : Build) (hwinfo vbus : Bool) : Machine State Action where
  init := { main := ⟨main build hwinfo, []⟩, usb := ⟨.ret (), []⟩, delivered := [] }
  step := State.step vbus

end Startup

end UsbNcmNet
