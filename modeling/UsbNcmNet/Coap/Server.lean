/-
The CoAP resources of `src/coap_server.c`.

Two resources, `hello` and `led`, behind one dispatcher.  The dispatcher is
reached from two sides: `app_request` runs it on a request that came in the
clear, and the OSCORE intercept of `src/edhoc_oscore.c` runs it on a decrypted
one.  It only builds the response; sending is the caller's business.

`led_state` is the software flag that GET reports.  The pin behind it is driven
by `gpio_pin_set_dt`, whose result the firmware discards, so both are state and
the driver's answer is an input.
-/
import UsbNcmNet.Coap.Message

namespace UsbNcmNet

/-! ### The LED -/

/-- `led_state`, and the logical level last driven on `led_gpio`. -/
structure Led where
  state : Bool
  pin : Bool
  deriving DecidableEq, Repr

/-- The flag is zero-initialised and `led_init` configures the pin inactive. -/
def Led.boot : Led := { state := false, pin := false }

/-- The pin after `gpio_pin_set_dt`, which leaves it alone when it fails. -/
def gpioPinSetDt (ret : Int) (value : Bool) (pin : Bool) : Bool :=
  if ret < 0 then pin else value

/-! ### Response builders -/

def helloText : Bytes :=
  ascii ['H', 'e', 'l', 'l', 'o', ' ', 'f', 'r', 'o', 'm', ' ', 'Z', 'B', 'o', 'o', 'k', ' ',
    'o', 'v', 'e', 'r', ' ', 'U', 'S', 'B', '-', 'N', 'C', 'M', '\n']

def buildHello (bufLen : Nat) (token : Token) (id : UInt16) : Except Int Packet := do
  let response ← coapPacketInit bufLen COAP_VERSION_1 .ack token COAP_RESPONSE_CODE_CONTENT id
  let response ← coapPacketAppendPayloadMarker response
  coapPacketAppendPayload response helloText

/-- `"1"`/`"on"` is 1, `"0"`/`"off"` is 0, anything else -1; a prefix is enough. -/
def parseOnoff (payload : Bytes) : Int :=
  if 1 ≤ payload.length ∧ payload.take 1 = ascii ['1'] then 1
  else if 1 ≤ payload.length ∧ payload.take 1 = ascii ['0'] then 0
  else if 2 ≤ payload.length ∧ payload.take 2 = ascii ['o', 'n'] then 1
  else if 3 ≤ payload.length ∧ payload.take 3 = ascii ['o', 'f', 'f'] then 0
  else -1

/-- The byte GET reports for a value of the flag. -/
def ledByte (state : Bool) : UInt8 := UInt8.ofNat (if state then '1' else '0').toNat

def buildLedGet (led : Led) (bufLen : Nat) (token : Token) (id : UInt16) :
    Except Int Packet := do
  let response ← coapPacketInit bufLen COAP_VERSION_1 .ack token COAP_RESPONSE_CODE_CONTENT id
  let response ← coapPacketAppendPayloadMarker response
  coapPacketAppendPayload response [ledByte led.state]

/-- The value a PUT payload asks for; a missing payload is as bad as a wrong one. -/
def putValue (payload : Option Bytes) : Int :=
  match payload with
  | none => -1
  | some p => parseOnoff p

/-- The flag is written before the response is built, whatever the driver said. -/
def buildLedPut (gpio : Int) (request : Request) (bufLen : Nat) (token : Token) (id : UInt16)
    (led : Led) : Except Int Packet × Led :=
  let value := putValue request.payload
  if value < 0 then
    (coapPacketInit bufLen COAP_VERSION_1 .ack token COAP_RESPONSE_CODE_BAD_REQUEST id, led)
  else
    let on := decide (value ≠ 0)
    (coapPacketInit bufLen COAP_VERSION_1 .ack token COAP_RESPONSE_CODE_CHANGED id,
      { state := on, pin := gpioPinSetDt gpio on led.pin })

/-! ### Dispatch -/

def helloPath : List Bytes := [ascii ['h', 'e', 'l', 'l', 'o']]
def ledPath : List Bytes := [ascii ['l', 'e', 'd']]

/--
Route a parsed request to a resource and build its response in `bufLen` bytes.
At most two Uri-Path options are asked for, and an error counts as none.
-/
def coapServerDispatchInner (gpio : Int) (request : Request) (bufLen : Nat) (led : Led) :
    Except Int Packet × Led :=
  let options := match coapFindOptions request COAP_OPTION_URI_PATH 2 with
    | .error _ => []
    | .ok options => options
  if request.code = COAP_METHOD_GET ∧ coapUriPathMatch helloPath options then
    (buildHello bufLen request.token request.id, led)
  else if coapUriPathMatch ledPath options ∧ request.code = COAP_METHOD_GET then
    (buildLedGet led bufLen request.token request.id, led)
  else if coapUriPathMatch ledPath options ∧ request.code = COAP_METHOD_PUT then
    buildLedPut gpio request bufLen request.token request.id led
  else
    (coapPacketInit bufLen COAP_VERSION_1 .ack request.token COAP_RESPONSE_CODE_NOT_FOUND
      request.id, led)

/-! ### The resource table

`COAP_RESOURCE_DEFINE` entries: a path and a handler for each method it has.
The service looks a request up in the table before any handler runs.
-/

/-- The handlers the table can name. -/
inductive Handler
  | appRequest | edhocPost | oscorePost
  deriving DecidableEq, Repr

structure Resource where
  path : List Bytes
  get : Option Handler := none
  post : Option Handler := none
  put : Option Handler := none
  deriving DecidableEq, Repr

/-- The handler for a method code; the methods not listed have none anywhere. -/
def Resource.method (r : Resource) (code : UInt8) : Option Handler :=
  if code = COAP_METHOD_GET then r.get
  else if code = COAP_METHOD_POST then r.post
  else if code = COAP_METHOD_PUT then r.put
  else none

def hello : Resource := { path := helloPath, get := some .appRequest }

def led : Resource := { path := ledPath, get := some .appRequest, put := some .appRequest }

def edhocPath : List Bytes :=
  [ascii ['.', 'w', 'e', 'l', 'l', '-', 'k', 'n', 'o', 'w', 'n'], ascii ['e', 'd', 'h', 'o', 'c']]

def edhoc : Resource := { path := edhocPath, post := some .edhocPost }

def oscoreRoot : Resource := { path := [], post := some .oscorePost }

/-- The resources of the OSCORE build. -/
def resources : List Resource := [edhoc, hello, led, oscoreRoot]

/-- The handler the service runs for a request, or the code it answers with itself. -/
def coapServiceLookup (request : Request) : Except UInt8 Handler :=
  match resources.find? fun r => coapUriPathMatch r.path request.options with
  | none => .error COAP_RESPONSE_CODE_NOT_FOUND
  | some r =>
      match r.method request.code with
      | none => .error COAP_RESPONSE_CODE_NOT_ALLOWED
      | some handler => .ok handler

end UsbNcmNet
