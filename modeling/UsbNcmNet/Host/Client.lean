/-
The EDHOC initiator of `host_client/src/client.cpp`.

One run of the client is one handshake.  `main` blocks in `recv` twice, for
message_2 and for message_4, so a run is three stretches of code: up to the first
`recv`, between the two, and after the second.  Each stretch is a function of what
the libraries and the socket answer in it; a run that returns early is over.

`edhoc_post` of the client takes the payload of whatever datagram comes next: it
looks at neither the code, the token nor the message id of the reply.
-/
import UsbNcmNet.Edhoc.Responder

namespace UsbNcmNet

def MSG_MAX : Nat := 256

/-- Method 3, cipher suite 0, the client's C_I, then the three bindings. -/
def clientSetupCalls : List SetupCall :=
  [.setMethods [3], .setCipherSuites [0], .setConnectionId (.oneByteInteger edCIInt),
    .bindKeys, .bindCrypto, .bindCredentials]

/-- The RFC 9668 framing: 0xf5 before message_1, the encoded C_R before message_3. -/
def Framed.encode : Framed → Bytes
  | .message1 msg => 0xf5 :: msg
  | .message3 msg => cidToCbor edCRInt.val :: msg

/-- The EDHOC message inside the framing. -/
def Framed.msg : Framed → Bytes
  | .message1 msg => msg
  | .message3 msg => msg

/-- Where a run stands. -/
inductive ClientPhase
  | idle
  | awaiting2
  | awaiting4
  /-- Past message_4, with the OSCORE context if that came up as well. -/
  | complete (session : Option OscoreInitParams)
  | failed
  deriving DecidableEq, Repr

/-- What is answered up to the first `recv`. -/
structure StartAnswers where
  psaCryptoInit : Int
  sockInit : Int
  contextInit : Int
  configure : SetupCall → Int
  message1Compose : Compose
  send : Int

/-- What is answered from the first `recv` up to the second. -/
structure Message2Answers where
  /-- The payload received; `none` is a timeout or an invalid datagram. -/
  recv : Option Bytes
  message2Process : Int
  message3Compose : Compose
  send : Int

/-- What is answered after the second `recv`. -/
structure Message4Answers where
  recv : Option Bytes
  message4Process : Int
  exportOscoreSession : Export
  oscoreContextInit : Err

/-- `edhoc_post` after its `recv`: a payload that does not fit `resp` is an error. -/
def clientRecv (recv : Option Bytes) : Option Bytes :=
  match recv with
  | none => none
  | some resp => if MSG_MAX < resp.length then none else some resp

/-- Up to the first `recv`: the phase reached and what was POSTed. -/
def clientStart (a : StartAnswers) : ClientPhase × Option Framed :=
  if a.psaCryptoInit ≠ 0 then (.failed, none)
  else if a.sockInit < 0 then (.failed, none)
  else if a.contextInit ≠ EDHOC_SUCCESS ∨
      (clientSetupCalls.any fun c => a.configure c != EDHOC_SUCCESS) then (.failed, none)
  else if a.message1Compose.ret ≠ EDHOC_SUCCESS then (.failed, none)
  else if a.send < 0 then (.failed, none)
  else (.awaiting2, some (.message1 a.message1Compose.out))

/-- Between the two `recv`s. -/
def clientMessage2 (a : Message2Answers) : ClientPhase × Option Framed :=
  match clientRecv a.recv with
  | none => (.failed, none)
  | some _ =>
      if a.message2Process ≠ EDHOC_SUCCESS then (.failed, none)
      else if a.message3Compose.ret ≠ EDHOC_SUCCESS then (.failed, none)
      else if a.send < 0 then (.failed, none)
      else (.awaiting4, some (.message3 a.message3Compose.out))

/-- After the second `recv`: nothing more goes out before the session is there. -/
def clientMessage4 (a : Message4Answers) : ClientPhase :=
  match clientRecv a.recv with
  | none => .failed
  | some _ =>
      if a.message4Process ≠ EDHOC_SUCCESS then .failed
      else if a.exportOscoreSession.ret ≠ EDHOC_SUCCESS then .complete none
      else if a.oscoreContextInit ≠ .ok then .complete none
      else .complete (some a.exportOscoreSession.params)

end UsbNcmNet
