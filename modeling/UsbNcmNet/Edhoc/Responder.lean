/-
The EDHOC responder and the OSCORE intercept of `src/edhoc_oscore.c`.

The EDHOC engine (libedhoc), the OSCORE library (uoscore) and the socket are not
part of the repository.  What they answer during one request is an input,
`Engine` for an EDHOC POST and `OscoreEngine` for an OSCORE one, and nothing is
assumed of it: a call may succeed or fail, and whatever buffer it is given may
hold anything afterwards, also after a failure.

The handlers run in `Fw`, over the firmware's globals and a log of the calls it
makes.  The log is what the temporal statements are about: which engine call was
made, in which order, with which outcome.  It also records when a handler was
entered and with which payload.

`σ` is the type of uoscore's `struct context`: opaque here, since the firmware
only passes its address around.
-/
import UsbNcmNet.Coap.Server
import UsbNcmNet.Edhoc.Framing

namespace UsbNcmNet

def EDHOC_SUCCESS : Int := 0
def EDHOC_MSG_MAX : Nat := 256

/-! ### What the firmware hands to the libraries -/

/-- The engine calls of `edhoc_setup` after `edhoc_context_init`, with their arguments. -/
inductive SetupCall
  | setMethods (methods : List Nat)
  | setCipherSuites (suites : List Nat)
  | setConnectionId (cid : ConnectionId)
  | bindKeys
  | bindCrypto
  | bindCredentials
  deriving DecidableEq, Repr

/-- `oscore_master_secret`, `oscore_master_salt`, `oscore_sender_id`, `oscore_recipient_id`. -/
structure KeyBuffers where
  masterSecret : Vector UInt8 16
  masterSalt : Vector UInt8 8
  senderId : Vector UInt8 8
  recipientId : Vector UInt8 8
  deriving DecidableEq, Repr

/-- uoscore's `enum err`, as far as the firmware tells its values apart. -/
inductive Err
  | ok
  | notOscorePkt
  | firstRequestAfterReboot
  | other (n : Nat)
  deriving DecidableEq, Repr

inductive AeadAlg
  | aesCcm16_64_128
  deriving DecidableEq, Repr

inductive Hkdf
  | sha256
  deriving DecidableEq, Repr

/-- `struct oscore_init_params`. -/
structure OscoreInitParams where
  masterSecret : Bytes
  senderId : Bytes
  recipientId : Bytes
  idContext : Bytes
  masterSalt : Bytes
  aeadAlg : AeadAlg
  hkdf : Hkdf
  freshMasterSecretSalt : Bool
  deriving DecidableEq, Repr

/-- The parameters `derive_and_init_oscore` builds from the exported buffers. -/
def oscoreInitParams (keys : KeyBuffers) (senderIdLen recipientIdLen : Nat) :
    OscoreInitParams where
  masterSecret := keys.masterSecret.toList
  senderId := keys.senderId.toList.take senderIdLen
  recipientId := keys.recipientId.toList.take recipientIdLen
  idContext := []
  masterSalt := keys.masterSalt.toList
  aeadAlg := .aesCcm16_64_128
  hkdf := .sha256
  freshMasterSecretSalt := true

/-! ### What the libraries answer -/

/-- A compose call: its return value and `out_buf[0 .. out_len)`. -/
structure Compose where
  ret : Int
  out : Bytes
  deriving DecidableEq, Repr

/-- `edhoc_export_oscore_session`: the buffers are as the call leaves them, failed or not. -/
structure Export where
  ret : Int
  keys : KeyBuffers
  senderIdLen : Nat
  recipientIdLen : Nat
  deriving DecidableEq, Repr

/-- The parameters an exported session hands to `oscore_context_init`. -/
def Export.params (s : Export) : OscoreInitParams :=
  oscoreInitParams s.keys s.senderIdLen s.recipientIdLen

/-- The answers of the libraries during one EDHOC POST. -/
structure Engine (σ : Type) where
  contextInit : Int
  configure : SetupCall → Int
  message1Process : Int
  message2Compose : Compose
  message3Process : Int
  message4Compose : Compose
  exportOscoreSession : Export
  /-- The error code and the context as the call leaves it. -/
  oscoreContextInit : Err × σ
  send : Int

/-- A `coap2oscore` call: its result, `oscore_out[0 .. oscore_len)` and the context it leaves. -/
structure Protect (σ : Type) where
  err : Err
  out : Bytes
  ctx : σ

/-- The answers of the libraries during one OSCORE POST. -/
structure OscoreEngine (σ : Type) where
  oscore2coap : Err × σ
  /-- `coap_packet_parse` on the decrypted bytes. -/
  inner : Except Int Request
  gpio : Int
  /-- By the bytes it is called on, which are those of the response built here. -/
  coap2oscore : Bytes → Protect σ
  send : Int

/-! ### State and log -/

/-- What is handed to `coap_resource_send`: a built packet, or bytes to send verbatim. -/
inductive Outgoing
  | packet (p : Packet)
  | verbatim (data : Bytes)
  deriving DecidableEq, Repr

/-- One entry of the log: a handler entered, or a call made with its outcome. -/
inductive Call (σ : Type)
  | edhocPost (payload : Option Bytes)
  | oscorePost
  | contextInit (ret : Int)
  | configure (c : SetupCall) (ret : Int)
  | message1Process (msg : Bytes) (ret : Int)
  | message2Compose (ret : Int)
  | message3Process (msg : Bytes) (ret : Int)
  | message4Compose (ret : Int)
  | contextDeinit
  | exportOscoreSession (session : Export)
  | oscoreContextInit (params : OscoreInitParams) (err : Err) (ctx : σ)
  | oscore2coap (err : Err) (ctx : σ)
  | coap2oscore (data : Bytes) (err : Err) (ctx : σ)
  | dispatchInner (request : Request) (built : Except Int Packet)
  | coapResourceSend (pkt : Outgoing)

/-- The firmware's globals. -/
structure Device (σ : Type) where
  oscoreCtx : σ
  oscoreReady : Bool
  keys : KeyBuffers
  edhocCtxActive : Bool
  led : Led

/-- The globals together with the log of every call made since boot. -/
structure Board (σ : Type) where
  dev : Device σ
  log : List (Call σ)

/-- Handlers: computations over the board. -/
abbrev Fw (σ : Type) := StateM (Board σ)

variable {σ : Type}

/-- Make a call: it goes on the log. -/
def call (c : Call σ) : Fw σ Unit := modify fun b => { b with log := b.log ++ [c] }

/-- Write the globals. -/
def update (f : Device σ → Device σ) : Fw σ Unit := modify fun b => { b with dev := f b.dev }

/-- Run a handler: its result and the board it leaves. -/
def Fw.exec {α : Type} (m : Fw σ α) (b : Board σ) : α × Board σ := Id.run (StateT.run m b)

/-! ### The EDHOC responder -/

/-- Method 3, cipher suite 0, the fixed C_R, then the three bindings. -/
def setupCalls : List SetupCall :=
  [.setMethods [3], .setCipherSuites [0], .setConnectionId (.oneByteInteger edCRInt),
    .bindKeys, .bindCrypto, .bindCredentials]

/-- Each configuration call in turn, up to the first that fails. -/
def configureAll (eng : Engine σ) : List SetupCall → Fw σ Int
  | [] => return EDHOC_SUCCESS
  | c :: rest => do
      call (.configure c (eng.configure c))
      if eng.configure c ≠ EDHOC_SUCCESS then
        return eng.configure c
      configureAll eng rest

/-- Initialise a fresh responder context for one handshake. -/
def edhocSetup (eng : Engine σ) : Fw σ Int := do
  call (.contextInit eng.contextInit)
  if eng.contextInit ≠ EDHOC_SUCCESS then
    return eng.contextInit
  configureAll eng setupCalls

/-- After message_3, export the OSCORE session and stand up the OSCORE context. -/
def deriveAndInitOscore (eng : Engine σ) : Fw σ Int := do
  let session := eng.exportOscoreSession
  call (.exportOscoreSession session)
  update fun d => { d with keys := session.keys }
  if session.ret ≠ EDHOC_SUCCESS then
    return - EIO
  call (.oscoreContextInit session.params eng.oscoreContextInit.1 eng.oscoreContextInit.2)
  update fun d => { d with oscoreCtx := eng.oscoreContextInit.2 }
  if eng.oscoreContextInit.1 ≠ .ok then
    return - EIO
  update fun d => { d with oscoreReady := true }
  return 0

/-- The message_1 half of the critical section: `rc` and message_2. -/
def edhocMessage1 (eng : Engine σ) (msg : Bytes) : Fw σ (Int × Bytes) := do
  if (← get).dev.edhocCtxActive then
    call .contextDeinit
    update fun d => { d with edhocCtxActive := false }
  update fun d => { d with oscoreReady := false }
  let mut rc ← edhocSetup eng
  let mut out : Bytes := []
  if rc = EDHOC_SUCCESS then
    update fun d => { d with edhocCtxActive := true }
    call (.message1Process msg eng.message1Process)
    rc := eng.message1Process
  if rc = EDHOC_SUCCESS then
    call (.message2Compose eng.message2Compose.ret)
    rc := eng.message2Compose.ret
    out := eng.message2Compose.out
  if rc ≠ EDHOC_SUCCESS then
    if (← get).dev.edhocCtxActive then
      call .contextDeinit
      update fun d => { d with edhocCtxActive := false }
  return (rc, out)

/-- The message_3 half of the critical section: `rc` and message_4. -/
def edhocMessage3 (eng : Engine σ) (msg : Bytes) : Fw σ (Int × Bytes) := do
  if !(← get).dev.edhocCtxActive then
    return (-EINVAL, [])
  call (.message3Process msg eng.message3Process)
  let mut rc := eng.message3Process
  let mut out : Bytes := []
  if rc = EDHOC_SUCCESS then
    call (.message4Compose eng.message4Compose.ret)
    rc := eng.message4Compose.ret
    out := eng.message4Compose.out
  if rc = EDHOC_SUCCESS then
    rc ← deriveAndInitOscore eng
  call .contextDeinit
  update fun d => { d with edhocCtxActive := false }
  return (rc, out)

/-- The 2.04 reply: piggybacked, with the composed message as payload if there is one. -/
def edhocResponse (request : Request) (out : Bytes) : Except Int Packet := do
  let response ← coapPacketInit EDHOC_MSG_MAX COAP_VERSION_1 .ack request.token
    COAP_RESPONSE_CODE_CHANGED request.id
  if out.length > 0 then
    let response ← coapPacketAppendPayloadMarker response
    coapPacketAppendPayload response out
  else
    return response

/-- Everything after the critical section: nothing on failure, else build and send. -/
def edhocReply (eng : Engine σ) (request : Request) (rc : Int) (out : Bytes) : Fw σ Int := do
  if rc ≠ EDHOC_SUCCESS then
    return -EBADMSG
  match edhocResponse request out with
  | .error r => return r
  | .ok response =>
      call (.coapResourceSend (.packet response))
      return eng.send

/-- The `/.well-known/edhoc` handler. -/
def edhocPost (eng : Engine σ) (request : Request) : Fw σ Int := do
  call (.edhocPost request.payload)
  match edhocDeframe request.payload with
  | .error r => return r
  | .ok (.message1 msg) =>
      let (rc, out) ← edhocMessage1 eng msg
      edhocReply eng request rc out
  | .ok (.message3 msg) =>
      let (rc, out) ← edhocMessage3 eng msg
      edhocReply eng request rc out

/-! ### The OSCORE intercept -/

/-- The root-path handler: decrypt, dispatch, encrypt, send. -/
def oscorePost (osc : OscoreEngine σ) : Fw σ Int := do
  call .oscorePost
  if !(← get).dev.oscoreReady then
    return -ENOTCONN
  call (.oscore2coap osc.oscore2coap.1 osc.oscore2coap.2)
  update fun d => { d with oscoreCtx := osc.oscore2coap.2 }
  if osc.oscore2coap.1 = .notOscorePkt then
    return -ENOENT
  if osc.oscore2coap.1 ≠ .ok ∧ osc.oscore2coap.1 ≠ .firstRequestAfterReboot then
    return -EBADMSG
  match osc.inner with
  | .error r => return r
  | .ok innerReq =>
      let answer :=
        coapServerDispatchInner osc.gpio innerReq EDHOC_MSG_MAX (← get).dev.led
      call (.dispatchInner innerReq answer.1)
      update fun d => { d with led := answer.2 }
      match answer.1 with
      | .error r => return r
      | .ok innerRsp =>
          let protect := osc.coap2oscore innerRsp.data
          call (.coap2oscore innerRsp.data protect.err protect.ctx)
          update fun d => { d with oscoreCtx := protect.ctx }
          if protect.err ≠ .ok then
            return -EBADMSG
          call (.coapResourceSend (.verbatim protect.out))
          return osc.send

end UsbNcmNet
