/-
`main` of `host_client/src/client.cpp`, call by call.

The handshake is the one that `Host.Client` cuts at the two `recv`s; here it is part of
a program, with the command line and the set-up before it and the requests behind it.

A call answers a number, and 0 is success for those that return an `enum`.  What is sent
and received stands behind the names of the calls, and of a payload only its length is
asked for.  The command line is without the name of the program.
-/
import UsbNcmNet.Host.Bench
import UsbNcmNet.Host.Client
import UsbNcmNet.Lib.Calls

namespace UsbNcmNet

namespace Initiator

/-! ### The command line -/

structure Options where
  bench : Bool
  count : Int
  warmup : Int
  /-- `g_host`. -/
  host : List Char
  deriving DecidableEq, Repr

def Options.default : Options where
  bench := false
  count := 1000
  warmup := 50
  host := "192.0.2.1".toList

def isspace (c : Char) : Bool := c = ' ' ∨ (9 ≤ c.toNat ∧ c.toNat ≤ 13)

def digits (s : List Char) : Int :=
  (s.takeWhile Char.isDigit).foldl (fun n c => 10 * n + (c.toNat - 48)) 0

/-- Of the C library; beyond the range of `int` it has no meaning there. -/
def atoi (s : List Char) : Int :=
  match s.dropWhile isspace with
  | '-' :: s => -digits s
  | '+' :: s => digits s
  | s => digits s

/-- The loop over `argv`.  An option without its value is passed over. -/
def Options.parse (o : Options) : List (List Char) → Options
  | [] => o
  | [arg] =>
      if arg = "--bench".toList then { o with bench := true }
      else if arg.head? ≠ some '-' then { o with host := arg }
      else o
  | arg :: value :: rest =>
      if arg = "--bench".toList then { o with bench := true }.parse (value :: rest)
      else if arg = "--count".toList then { o with count := atoi value }.parse rest
      else if arg = "--warmup".toList then { o with warmup := atoi value }.parse rest
      else if arg.head? ≠ some '-' then { o with host := arg }.parse (value :: rest)
      else o.parse (value :: rest)

/-! ### Calls -/

/-- The EDHOC messages of the client. -/
inductive Posted
  | message1 | message3
  deriving DecidableEq, Repr

/-- The arguments of `oscore_request`. -/
structure AppRequest where
  code : UInt8
  uri : List Char
  payload : Option Bytes
  deriving DecidableEq, Repr

inductive ClientCall
  | psaCryptoInit
  | sockInit
  | setRcvTimeo (seconds : Nat)
  | contextInit
  | configure (c : SetupCall)
  | message1Compose
  | message2Process
  | message3Compose
  | message4Process
  | exportOscoreSession
  | contextDeinit
  | oscoreContextInit
  /-- `send`, `recv`, `validate` and `getPayloadLength` in `edhoc_post`. -/
  | postSend (m : Posted)
  | postRecv (m : Posted)
  | postValidate (m : Posted)
  | postPayloadLength (m : Posted)
  /-- The calls of `oscore_request`. -/
  | coap2oscore (r : AppRequest)
  | send (r : AppRequest)
  | recv (r : AppRequest)
  | oscore2coap (r : AppRequest)
  | validate (r : AppRequest)
  | close
  deriving DecidableEq, Repr

open Calls

/-- `edhoc_post`; `*resp_len` is `MSG_MAX` both times. -/
def edhocPost (m : Posted) : Calls ClientCall Int := do
  if (← perform (.postSend m)) < 0 then return -1
  if (← perform (.postRecv m)) < 0 then return -1
  if (← perform (.postValidate m)) = 0 then return -1
  if (← perform (.postPayloadLength m)) > MSG_MAX then return -1
  return 0

/-- `oscore_request`; `reboot` is `first_request_after_reboot`. -/
def oscoreRequest (reboot : Int) (r : AppRequest) : Calls ClientCall Int := do
  if (← perform (.coap2oscore r)) ≠ 0 then return -1
  if (← perform (.send r)) < 0 then return -1
  if (← perform (.recv r)) < 0 then return -1
  let e ← perform (.oscore2coap r)
  if e ≠ 0 ∧ e ≠ reboot then return -1
  if (← perform (.validate r)) = 0 then return -1
  return 0

/-! ### Requests -/

def getHello : AppRequest := ⟨COAP_METHOD_GET, "hello".toList, none⟩

def getLed : AppRequest := ⟨COAP_METHOD_GET, "led".toList, none⟩

def putLed (value : Char) : AppRequest := ⟨COAP_METHOD_PUT, "led".toList, some (ascii [value])⟩

/-- The round-trip of the demo. -/
def demo : List AppRequest := [getHello, getLed, putLed '1', getLed, putLed '0']

/-- Requests one after another; what becomes of one does not matter to the next. -/
def requestAll (reboot : Int) : List AppRequest → Calls ClientCall Unit
  | [] => return ()
  | r :: rs => do
      let _ ← oscoreRequest reboot r
      requestAll reboot rs

/-- The loop of `bench_endpoint`; false where it does not get that far. -/
def benchEndpoint (reboot : Int) (r : AppRequest) (count warmup : Int) :
    Calls ClientCall Bool := do
  if count < 0 ∨ INT_MAX < count + warmup then return false
  requestAll reboot (List.replicate (count + warmup).toNat r)
  return true

/-! ### `main` -/

/-- Behind the handshake; `none` where the program is terminated. -/
def serve (reboot : Int) (o : Options) : Calls ClientCall (Option Int) := do
  if o.bench then
    let _ ← perform (.setRcvTimeo 2)
    if !(← benchEndpoint reboot getHello o.count o.warmup) then return none
    if !(← benchEndpoint reboot getLed o.count o.warmup) then return none
    if !(← benchEndpoint reboot (putLed '1') o.count o.warmup) then return none
  else
    requestAll reboot demo
  let _ ← perform .close
  return some 0

/-- From message_1 on. -/
def handshake (reboot : Int) (o : Options) : Calls ClientCall (Option Int) := do
  if (← perform .message1Compose) ≠ EDHOC_SUCCESS then return some 1
  if (← edhocPost .message1) ≠ 0 then return some 1
  if (← perform .message2Process) ≠ EDHOC_SUCCESS then return some 1
  if (← perform .message3Compose) ≠ EDHOC_SUCCESS then return some 1
  if (← edhocPost .message3) ≠ 0 then return some 1
  if (← perform .message4Process) ≠ EDHOC_SUCCESS then return some 1
  if (← perform .exportOscoreSession) ≠ EDHOC_SUCCESS then return some 1
  let _ ← perform .contextDeinit
  if (← perform .oscoreContextInit) ≠ 0 then return some 1
  serve reboot o

/-- The set-up of the engine context, up to the first call that fails. -/
def contextSetup : List ClientCall := .contextInit :: clientSetupCalls.map .configure

def main (reboot : Int) (argv : List (List Char)) : Calls ClientCall (Option Int) := do
  let o := Options.default.parse argv
  if (← perform .psaCryptoInit) ≠ 0 then return some 1
  if (← perform .sockInit) < 0 then return some 1
  let _ ← perform (.setRcvTimeo 5)
  require (fun _ r => r = EDHOC_SUCCESS) (return some 1) (handshake reboot o) contextSetup

/-- How far the program is after the given answers. -/
def run (reboot : Int) (argv : List (List Char)) (answers : List Int) :
    Thread ClientCall (Option Int) :=
  answers.foldl Thread.step ⟨main reboot argv, []⟩

end Initiator

end UsbNcmNet
