/-
Building a piggybacked response.

Every response of the firmware is made the same way: `coap_packet_init` as an ACK
with the request's token and id, then, if there is a payload, the marker and the
payload.  The token has at most eight bytes, so the first step never runs out of
room in the buffers the firmware uses; the payload can.
-/
import UsbNcmNet.Board

namespace UsbNcmNet

@[simp] theorem content_ne_changed : COAP_RESPONSE_CODE_CONTENT ≠ COAP_RESPONSE_CODE_CHANGED := by
  decide

@[simp] theorem badRequest_ne_changed :
    COAP_RESPONSE_CODE_BAD_REQUEST ≠ COAP_RESPONSE_CODE_CHANGED := by
  decide

@[simp] theorem notFound_ne_changed :
    COAP_RESPONSE_CODE_NOT_FOUND ≠ COAP_RESPONSE_CODE_CHANGED := by
  decide

theorem Packet.length_data (p : Packet) : p.data.length = p.offset := by
  unfold Packet.data Packet.offset
  cases p.marker <;> simp <;> omega

/-- The finished ACK to a request. -/
def ackPacket (bufLen : Nat) (request : Request) (code : UInt8) (payload : Bytes) : Packet where
  maxLen := bufLen
  ver := COAP_VERSION_1
  type := .ack
  token := request.token
  code := code
  id := request.id
  marker := decide (payload ≠ [])
  payload := payload

/-- Header, token, marker and payload fit; no payload needs no marker. -/
def PayloadFits (bufLen : Nat) (request : Request) (payload : Bytes) : Prop :=
  payload = [] ∨ 4 + request.token.val.length + 1 + payload.length ≤ bufLen

instance (bufLen : Nat) (request : Request) (payload : Bytes) :
    Decidable (PayloadFits bufLen request payload) :=
  inferInstanceAs (Decidable (_ ∨ _))

theorem token_length (request : Request) : request.token.val.length ≤ 8 := request.token.property

variable {bufLen : Nat} {request : Request} {code : UInt8}

theorem coapPacketInit_ack (hbuf : 12 ≤ bufLen) :
    coapPacketInit bufLen COAP_VERSION_1 .ack request.token code request.id
      = .ok (ackPacket bufLen request code []) := by
  have htkl := token_length request
  have hroom : 4 + request.token.val.length ≤ bufLen := by omega
  simp [coapPacketInit, hroom, ackPacket]

/-- Marker and payload go in together or not at all. -/
theorem coapPacketAppend_ack (bufLen : Nat) (request : Request) (code : UInt8) {payload : Bytes}
    (hne : payload ≠ []) :
    (do let response ← coapPacketAppendPayloadMarker (ackPacket bufLen request code [])
        coapPacketAppendPayload response payload)
      = if PayloadFits bufLen request payload then .ok (ackPacket bufLen request code payload)
        else .error (-EINVAL) := by
  by_cases hfits : 4 + request.token.val.length + 1 + payload.length ≤ bufLen
  · have hmark : 4 + request.token.val.length + 1 ≤ bufLen := by omega
    simp [coapPacketAppendPayloadMarker, coapPacketAppendPayload, Packet.offset, ackPacket,
      PayloadFits, hne, hmark, hfits, bind, Except.bind]
  · by_cases hmark : 4 + request.token.val.length + 1 ≤ bufLen <;>
      simp [coapPacketAppendPayloadMarker, coapPacketAppendPayload, Packet.offset, ackPacket,
        PayloadFits, hne, hmark, hfits, bind, Except.bind]

theorem ackPacket_fits {payload : Bytes} (hbuf : 12 ≤ bufLen)
    (h : PayloadFits bufLen request payload) :
    (ackPacket bufLen request code payload).data.length ≤ bufLen := by
  have htkl := token_length request
  rw [Packet.length_data]
  unfold Packet.offset ackPacket
  rcases h with rfl | h
  · simp; omega
  · by_cases hne : payload = []
    · simp [hne]; omega
    · simpa [hne] using h

end UsbNcmNet
