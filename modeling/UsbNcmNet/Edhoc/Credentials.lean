/-
The credentials of the two ends, from `scripts/edhoc_keys.py` to `cred_verify`.

The script writes two headers of macros, one for the firmware and one for the
client, and each end checks the identifier of the other against its own header.
A credential is named by a `kid` of one byte.  On the wire such a byte string may
stand as the integer whose CBOR encoding it is, so the header carries the kid
twice: as the byte, and as that integer.

Keys and credentials are opaque here.  The structures of libedhoc are modelled by
the fields the callbacks read and write.
-/
import UsbNcmNet.Coap.Message

namespace UsbNcmNet

/-! ### `edhoc_keys.py` -/

/-- `kid_wire_int`: the integer a kid is transported as; `none` if it stays a byte string. -/
def kidWireInt (kid : UInt8) : Option Int :=
  let v : Int := kid.toNat
  if v ≤ 0x17 then some v
  else if 0x20 ≤ v ∧ v ≤ 0x37 then some (-1 - (v - 0x20))
  else none

/-- What a macro stands for in the C source: a constant, or a name nothing declares. -/
inductive MacroText
  | constant (v : Int)
  | undeclared (name : String)
  deriving DecidableEq, Repr

/-- What Python writes for a value in an f-string. -/
def interpolate : Option Int → MacroText
  | some v => .constant v
  | none => .undeclared "None"

/-- What the script is configured with, and the key material it makes. -/
structure KeyConfig where
  kidI : UInt8
  kidR : UInt8
  credI : Bytes
  credR : Bytes
  gI : Bytes
  gR : Bytes
  deriving DecidableEq, Repr

/-- The macros about the peer: `ED_KID_x`, `ED_KID_x_INT`, `ED_CRED_x` and `ED_G_x`. -/
structure PeerMacros where
  edKid : UInt8
  edKidInt : MacroText
  edCred : Bytes
  edG : Bytes
  deriving DecidableEq, Repr

/-- `include/edhoc_creds.h`: the peer of the device is the initiator. -/
def deviceHeader (cfg : KeyConfig) : PeerMacros where
  edKid := cfg.kidI
  edKidInt := interpolate (kidWireInt cfg.kidI)
  edCred := cfg.credI
  edG := cfg.gI

/-- `host_client/edhoc_creds_client.h`: the peer of the client is the responder. -/
def clientHeader (cfg : KeyConfig) : PeerMacros where
  edKid := cfg.kidR
  edKidInt := interpolate (kidWireInt cfg.kidR)
  edCred := cfg.credR
  edG := cfg.gR

/-! ### `cred_verify` -/

/-- The COSE header label of a key identifier. -/
def EDHOC_COSE_HEADER_KID : Int := 4

inductive EncodeType
  | integer | byteString
  deriving DecidableEq, Repr

/-- `struct edhoc_auth_cred_key_id`, with room for `n + 1` bytes of identifier. -/
structure KeyId (n : Nat) where
  encodeType : EncodeType
  keyIdInt : Int
  keyIdBstr : Vector UInt8 (n + 1)
  keyIdBstrLength : Nat
  cred : Bytes
  credLen : Nat
  credIsCbor : Bool
  length_le : keyIdBstrLength ≤ n + 1
  deriving DecidableEq, Repr

/-- `key_id_bstr[0]`. -/
def KeyId.firstByte {n : Nat} (k : KeyId n) : UInt8 := k.keyIdBstr[0]

/-- `struct edhoc_auth_creds`, and what the two output parameters point to. -/
structure VerifyState (n : Nat) where
  label : Int
  keyId : KeyId n
  publicKey : Bytes
  publicKeyLength : Nat
  deriving DecidableEq, Repr

inductive VerifyResult
  | success | credentialsFailure
  deriving DecidableEq, Repr

/-- The assignments behind the checks: the byte-string form, whichever one arrived. -/
def VerifyState.accept {n : Nat} (hdr : PeerMacros) (s : VerifyState n) : VerifyState n :=
  { s with
    keyId :=
      { s.keyId with
        encodeType := .byteString
        keyIdBstr := s.keyId.keyIdBstr.set 0 hdr.edKid
        keyIdBstrLength := 1
        cred := hdr.edCred
        credLen := hdr.edCred.length
        credIsCbor := true
        length_le := Nat.le_add_left 1 n }
    publicKey := hdr.edG
    publicKeyLength := hdr.edG.length }

/--
The body both callbacks share, over the macros of the header it is compiled
with.  A header whose `ED_KID_x_INT` is no constant leaves nothing to run: the
comparison names an undeclared identifier and the file does not compile.
-/
def credVerify {n : Nat} (hdr : PeerMacros) :
    Option (VerifyState n → VerifyResult × VerifyState n) :=
  match hdr.edKidInt with
  | .undeclared _ => none
  | .constant edKidInt => some fun s =>
      if s.label ≠ EDHOC_COSE_HEADER_KID then (.credentialsFailure, s)
      else
        match s.keyId.encodeType with
        | .integer =>
            if s.keyId.keyIdInt ≠ edKidInt then (.credentialsFailure, s)
            else (.success, s.accept hdr)
        | .byteString =>
            if s.keyId.keyIdBstrLength ≠ 1 ∨ s.keyId.firstByte ≠ hdr.edKid then
              (.credentialsFailure, s)
            else (.success, s.accept hdr)

/-- `cred_verify` of `src/edhoc_oscore.c`. -/
def deviceCredVerify {n : Nat} (cfg : KeyConfig) :
    Option (VerifyState n → VerifyResult × VerifyState n) := credVerify (deviceHeader cfg)

/-- `cred_verify` of `host_client/src/client.cpp`. -/
def clientCredVerify {n : Nat} (cfg : KeyConfig) :
    Option (VerifyState n → VerifyResult × VerifyState n) := credVerify (clientHeader cfg)

end UsbNcmNet
