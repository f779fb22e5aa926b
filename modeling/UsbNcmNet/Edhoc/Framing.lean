/-
The RFC 9668 transport framing of an EDHOC POST.

An EDHOC message does not travel bare: message_1 is prefixed with CBOR `true`
(0xf5) and message_3 with the CBOR encoding of the responder's connection
identifier C_R.  The device tells the two apart by the first byte alone and
measures the C_R prefix with a hand-written CBOR length decoder; the host writes
the prefix with `cid_to_cbor`.

`scripts/edhoc_keys.py` fixes the two connection identifiers of the deployment.
-/
import UsbNcmNet.Coap.Message

namespace UsbNcmNet

/-! ### Connection identifiers -/

/-- The integers whose CBOR encoding is one byte. -/
abbrev OneByteInt := { v : Int // -24 ≤ v ∧ v ≤ 23 }

/-- `struct edhoc_connection_id`. -/
inductive ConnectionId
  | oneByteInteger (v : OneByteInt)
  | byteString (b : Bytes)
  deriving DecidableEq, Repr

/-- CBOR encoding of a one-byte connection identifier, `host_client/src/client.cpp`. -/
def cidToCbor (v : Int) : UInt8 :=
  if 0 ≤ v then UInt8.ofNat v.toNat else UInt8.ofNat (0x20 + (-v).toNat - 1)

/-- The OSCORE identifier a connection identifier becomes (RFC 9528, 3.3.3). -/
def ConnectionId.oscoreId : ConnectionId → Bytes
  | .oneByteInteger v => [cidToCbor v.val]
  | .byteString b => b

/-- `C_R_INT`: chosen by the device, fixed for every handshake. -/
def edCRInt : OneByteInt := ⟨-8, by decide⟩

/-- `C_I_INT`: what the repository's own client chooses. -/
def edCIInt : OneByteInt := ⟨-14, by decide⟩

/-! ### Deframing -/

/-- Length in bytes of the leading CBOR data item, as the firmware computes it. -/
def cborItemLen (p : Bytes) : UInt32 :=
  if p.length = 0 then 0
  else
    let major := p.getD 0 0 >>> 5
    let ai := p.getD 0 0 &&& 0x1f
    let hdr : UInt32 :=
      if ai = 24 then 2
      else if ai = 25 then 3
      else if ai = 26 then 5
      else if ai = 27 then 9
      else 1
    -- byte and text strings carry a payload after the header
    let payload : UInt32 :=
      if major = 2 ∨ major = 3 then
        if ai < 24 then ai.toUInt32
        else if ai = 24 ∧ 2 ≤ p.length then (p.getD 1 0).toUInt32
        else if ai = 25 ∧ 3 ≤ p.length then
          (p.getD 1 0).toUInt32 <<< 8 ||| (p.getD 2 0).toUInt32
        else 0
      else 0
    hdr + payload

/-- What a POST carries once the framing is off. -/
inductive Framed
  | message1 (msg : Bytes)
  | message3 (msg : Bytes)
  deriving DecidableEq, Repr

/-- The payload checks and the framing strip at the head of `edhoc_post`. -/
def edhocDeframe (payload : Option Bytes) : Except Int Framed :=
  match payload with
  | none => .error (-EINVAL)
  | some p =>
      if p.length = 0 then .error (-EINVAL)
      else if p.getD 0 0 = 0xf5 then .ok (.message1 (p.drop 1))
      else
        let skip := cborItemLen p
        if skip = 0 ∨ p.length ≤ skip.toNat then .error (-EINVAL)
        else .ok (.message3 (p.drop skip.toNat))

/-- The payload begins with CBOR `true`. -/
def startsMessage1 (payload : Option Bytes) : Bool :=
  match payload with
  | none => false
  | some p => p.head? == some 0xf5

end UsbNcmNet
