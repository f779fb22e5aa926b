/-
The board as a machine.

Three handlers share one set of globals: the EDHOC responder, the OSCORE
intercept, and `app_request` for what comes in the clear.  The CoAP server
thread runs them one at a time, so a run of the board is a sequence of requests,
each with whatever the libraries answered while it was handled.
-/
import UsbNcmNet.Lib.Machine
import UsbNcmNet.Edhoc.Responder

namespace UsbNcmNet

variable {σ : Type}

/-- `oscore.conf`: the EDHOC POSTs do not fit the default of 64. -/
def CONFIG_COAP_SERVER_MESSAGE_SIZE : Nat := 256

/-- The plaintext handler of `hello` and `led`: dispatch, then transmit. -/
def appRequest (gpio send : Int) (request : Request) : Fw σ Int := do
  let answer :=
    coapServerDispatchInner gpio request CONFIG_COAP_SERVER_MESSAGE_SIZE (← get).dev.led
  call (.dispatchInner request answer.1)
  update fun d => { d with led := answer.2 }
  match answer.1 with
  | .error r => return r
  | .ok response =>
      call (.coapResourceSend (.packet response))
      return send

/-! ### Two routes to one dispatcher -/

/-- What a client gets to see of a response, and the LED behind it. -/
structure Answer where
  code : UInt8
  payload : Bytes
  led : Led
  deriving DecidableEq, Repr

/-- The answer in a response that was built. -/
def answerOf : Except Int Packet × Led → Option Answer
  | (.ok p, led) => some ⟨p.code, p.payload, led⟩
  | (.error _, _) => none

/-- In the clear: the service's table first, then `app_request`; `none` if it is not its request. -/
def clearRoute (gpio : Int) (request : Request) (led : Led) : Option Answer :=
  match coapServiceLookup request with
  | .error code => some ⟨code, [], led⟩
  | .ok .appRequest =>
      answerOf (coapServerDispatchInner gpio request CONFIG_COAP_SERVER_MESSAGE_SIZE led)
  | .ok _ => none

/-- Decrypted: `oscore_post` dispatches whatever it finds inside. -/
def innerRoute (gpio : Int) (request : Request) (led : Led) : Option Answer :=
  answerOf (coapServerDispatchInner gpio request EDHOC_MSG_MAX led)

/-! ### Events -/

/-- One request, with the answers of the libraries while it is handled. -/
inductive Event (σ : Type)
  | edhoc (request : Request) (eng : Engine σ)
  | oscore (osc : OscoreEngine σ)
  | app (request : Request) (gpio send : Int)

/-- The handler an event runs. -/
def Event.handler : Event σ → Fw σ Int
  | .edhoc request eng => edhocPost eng request
  | .oscore osc => oscorePost osc
  | .app request gpio send => appRequest gpio send request

def Board.step (b : Board σ) (e : Event σ) : Board σ := (e.handler.exec b).2

/-- What the handler returns to the CoAP service. -/
def Board.ret (b : Board σ) (e : Event σ) : Int := (e.handler.exec b).1

/-- The calls a request adds to the log. -/
def Board.newCalls (b : Board σ) (e : Event σ) : List (Call σ) := (b.step e).log.drop b.log.length

/-- The globals as the C runtime leaves them: all zero. -/
def Device.boot (ctx : σ) : Device σ where
  oscoreCtx := ctx
  oscoreReady := false
  keys :=
    { masterSecret := Vector.replicate 16 0, masterSalt := Vector.replicate 8 0
      senderId := Vector.replicate 8 0, recipientId := Vector.replicate 8 0 }
  edhocCtxActive := false
  led := Led.boot

/-- The board from boot; `ctx` is the zeroed `struct context`. -/
def board (ctx : σ) : Machine (Board σ) (Event σ) where
  init := { dev := Device.boot ctx, log := [] }
  step := Board.step

@[simp] theorem board_step (ctx : σ) : (board ctx).step = Board.step := rfl

end UsbNcmNet
