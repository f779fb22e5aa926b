/-
CoAP messages as the firmware sees them through Zephyr's `coap.h`.

A request is what `coap_packet_parse` leaves the handlers to read: type, code,
message id, token, options and payload.  A response is a `struct coap_packet`
under construction over a buffer of fixed size: `coap_packet_init` writes the
four header bytes and the token, and each append either fits in what is left of
the buffer or fails.  `Packet.data` is the RFC 7252 layout of the result.

Zephyr itself is not part of the repository.  What is modelled of it is what the
handlers rely on: the layout, the room checks, and that `coap_find_options`
returns the first options of the number asked for, in order, or an error.
-/
import Mathlib.Tactic.Common

namespace UsbNcmNet

abbrev Bytes := List UInt8

/-- The bytes of a C string literal. -/
def ascii (s : List Char) : Bytes := s.map fun c => UInt8.ofNat c.toNat

/-! ### errno -/

def ENOENT : Int := 2
def EIO : Int := 5
def ENODEV : Int := 19
def EINVAL : Int := 22
def EBADMSG : Int := 77
def EADDRNOTAVAIL : Int := 125
def ENOTCONN : Int := 128

/-! ### Types, codes and options -/

/-- `COAP_TYPE_*`. -/
inductive CoapType
  | con | nonCon | ack | reset
  deriving DecidableEq, Repr

/-- The two type bits of the first header byte. -/
def CoapType.bits : CoapType → UInt8
  | .con => 0
  | .nonCon => 1
  | .ack => 2
  | .reset => 3

def COAP_VERSION_1 : UInt8 := 1
def COAP_TOKEN_MAX_LEN : Nat := 8
def COAP_MARKER : UInt8 := 0xff

def COAP_METHOD_GET : UInt8 := 1
def COAP_METHOD_POST : UInt8 := 2
def COAP_METHOD_PUT : UInt8 := 3

/-- A response code `class.detail` as its code byte. -/
def makeResponseCode (cls det : UInt8) : UInt8 := cls <<< 5 ||| det

def COAP_RESPONSE_CODE_CHANGED : UInt8 := makeResponseCode 2 4
def COAP_RESPONSE_CODE_CONTENT : UInt8 := makeResponseCode 2 5
def COAP_RESPONSE_CODE_BAD_REQUEST : UInt8 := makeResponseCode 4 0
def COAP_RESPONSE_CODE_NOT_FOUND : UInt8 := makeResponseCode 4 4
def COAP_RESPONSE_CODE_NOT_ALLOWED : UInt8 := makeResponseCode 4 5

def COAP_OPTION_URI_PATH : Nat := 11

/-- One option of a request, its number already summed from the deltas. -/
structure CoapOption where
  number : Nat
  value : Bytes
  deriving DecidableEq, Repr

/-- A token of at most eight bytes; its length is the header's `tkl`. -/
abbrev Token := { t : Bytes // t.length ≤ COAP_TOKEN_MAX_LEN }

/-! ### Requests -/

/-- A parsed request. -/
structure Request where
  type : CoapType
  code : UInt8
  id : UInt16
  token : Token
  options : List CoapOption
  /-- Whether `coap_find_options` fails on this packet's option area. -/
  findFails : Bool
  /-- `coap_packet_get_payload`: `none` is the `NULL` pointer. -/
  payload : Option Bytes
  deriving DecidableEq, Repr

/-- The complete Uri-Path of a request, segment by segment. -/
def Request.uriPath (request : Request) : List Bytes :=
  (request.options.filter (·.number == COAP_OPTION_URI_PATH)).map (·.value)

/-- The first `veclen` options with the given number, or a negative error. -/
def coapFindOptions (request : Request) (number veclen : Nat) : Except Int (List CoapOption) :=
  if request.findFails then .error (-EINVAL)
  else .ok ((request.options.filter (·.number == number)).take veclen)

/-- Segment-wise equality with no Uri-Path option left over. -/
def coapUriPathMatch (path : List Bytes) (options : List CoapOption) : Bool :=
  (options.filter (·.number == COAP_OPTION_URI_PATH)).map (·.value) == path

/-! ### Responses under construction -/

/-- A `struct coap_packet` being built in a buffer of `maxLen` bytes. -/
structure Packet where
  maxLen : Nat
  ver : UInt8
  type : CoapType
  token : Token
  code : UInt8
  id : UInt16
  marker : Bool
  payload : Bytes
  deriving DecidableEq, Repr

/-- How many bytes of the buffer are in use. -/
def Packet.offset (p : Packet) : Nat :=
  4 + p.token.val.length + (if p.marker then 1 else 0) + p.payload.length

/-- The bytes written so far: header, token, marker, payload. -/
def Packet.data (p : Packet) : Bytes :=
  [p.ver <<< 6 ||| p.type.bits <<< 4 ||| UInt8.ofNat p.token.val.length, p.code,
    (p.id >>> 8).toUInt8, p.id.toUInt8] ++ p.token.val
    ++ (if p.marker then [COAP_MARKER] else []) ++ p.payload

def coapPacketInit (maxLen : Nat) (ver : UInt8) (type : CoapType) (token : Token)
    (code : UInt8) (id : UInt16) : Except Int Packet :=
  if 4 + token.val.length ≤ maxLen then
    .ok { maxLen, ver, type, token, code, id, marker := false, payload := [] }
  else .error (-EINVAL)

def coapPacketAppendPayloadMarker (p : Packet) : Except Int Packet :=
  if p.offset + 1 ≤ p.maxLen then .ok { p with marker := true } else .error (-EINVAL)

def coapPacketAppendPayload (p : Packet) (payload : Bytes) : Except Int Packet :=
  if p.offset + payload.length ≤ p.maxLen then .ok { p with payload := p.payload ++ payload }
  else .error (-EINVAL)

end UsbNcmNet
