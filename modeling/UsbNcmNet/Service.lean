/-
The CoAP service between the socket and the plaintext handlers.

A datagram is parsed, looked up in the resource table and handed to the handler found
there.  `coap_packet_parse` is Zephyr's and a parameter here; of it the firmware relies
on its reading well-formed messages as what they are.  Requests for the two security
resources are a matter of the libraries as well, and are not followed here.
-/
import UsbNcmNet.Board
import UsbNcmNet.Lib.Rfc7252

namespace UsbNcmNet

variable {σ : Type}

/-- The type from the two bits of the header. -/
def CoapType.ofBits : Fin 4 → CoapType
  | 0 => .con
  | 1 => .nonCon
  | 2 => .ack
  | 3 => .reset

/-- A message of the format as `coap_packet_parse` leaves it to be read. -/
def parsedRequest (m : Rfc7252.Message) (htoken : m.token.length ≤ COAP_TOKEN_MAX_LEN) : Request where
  type := CoapType.ofBits m.type
  code := m.code
  id := m.id
  token := ⟨m.token, htoken⟩
  options := m.options.map fun o => ⟨o.1, o.2⟩
  findFails := false
  payload := if m.payload = [] then none else some m.payload

/-- The option slots of the service's parser. -/
def MAX_OPTIONS : Nat := 16

/-- The bytes of a value that a `struct coap_option` holds. -/
def COAP_OPTION_VALUE_LEN : Nat := 12

/-- The options fit in the slots: their count, their 16-bit numbers and their values. -/
structure FitsSlots (options : List (Nat × Bytes)) : Prop where
  count : options.length ≤ MAX_OPTIONS
  number : ∀ o ∈ options, o.1 < 65536
  value : ∀ o ∈ options, o.2.length ≤ COAP_OPTION_VALUE_LEN

/-- A well-formed message that fits the receive buffer and the option slots is parsed as it reads. -/
def ParsesWellFormed (parse : Bytes → Option Request) : Prop :=
  ∀ data m htoken, data.length ≤ CONFIG_COAP_SERVER_MESSAGE_SIZE → FitsSlots m.options →
    Rfc7252.decode data = some m → parse data = some (parsedRequest m htoken)

/-- The datagram of a packet that is sent. -/
def Call.datagram : Call σ → Option Bytes
  | .coapResourceSend (.packet p) => some p.data
  | _ => none

/-- One datagram received: the event it is, if it is for a plaintext handler. -/
def clearEvent (parse : Bytes → Option Request) (gpio send : Int) (data : Bytes) :
    Option (Event σ) :=
  match parse data with
  | none => none
  | some request =>
      match coapServiceLookup request with
      | .ok .appRequest => some (.app request gpio send)
      | _ => none

/-- The datagrams that an event sends. -/
def Board.sends (b : Board σ) (e : Event σ) : List Bytes := (b.newCalls e).filterMap Call.datagram

end UsbNcmNet
