/-
The key material of the two ends, from `scripts/edhoc_keys.py` to `cred_fetch`.

The script draws a key pair for each end, wraps each public key in a CWT Claims Set
and writes everything into two headers, as C arrays.  What one end fetches as its own
credential the other has to find among its macros about the peer.

`cbor2` is not part of the model: `dumps` stands for `cbor2.dumps(…, canonical=True)`,
and `Deterministic` is what it promises.  The key store behind `key_import` is seen
only through what it answers and which key it is given.
-/
import UsbNcmNet.Edhoc.Credentials
import UsbNcmNet.Edhoc.Responder
import UsbNcmNet.Host.Latency
import UsbNcmNet.Lib.CborValue

namespace UsbNcmNet

/-- Canonical CBOR: a value whose maps are in canonical order is written as it stands. -/
def Deterministic (dumps : Cbor.Value → Bytes) : Prop :=
  ∀ v : Cbor.Value, v.Fits → v.Sorted → dumps v = v.encode

/-! ### `edhoc_keys.py` -/

/-- `gen_x25519`: the private scalar and the public point, raw. -/
structure KeyPair where
  priv : Vector UInt8 32
  pub : Vector UInt8 32
  deriving DecidableEq, Repr

/-- A Python dictionary, in the order in which it is written down. -/
def dict (entries : List (Cbor.Value × Cbor.Value)) : Cbor.Value :=
  .map (entries.foldr (fun entry rest => .cons entry.1 entry.2 rest) .nil)

def coseKey (kid pub : Bytes) : Cbor.Value :=
  dict [(.int 1, .int 1), (.int 2, .bytes kid), (.int (-1), .int 4), (.int (-2), .bytes pub)]

/-- What `ccs` hands to `cbor2`. -/
def claims (subject : String) (kid pub : Bytes) : Cbor.Value :=
  dict [(.int 2, .text (utf8 subject.toList)), (.int 8, dict [(.int 1, coseKey kid pub)])]

def ccs (dumps : Cbor.Value → Bytes) (subject : String) (kid pub : Bytes) : Bytes :=
  dumps (claims subject kid pub)

/-- The names the two credentials are issued to. -/
def subjectI : String := "usb-ncm-initiator"

def subjectR : String := "usb-ncm-responder"

/-- `main`, as far as the kids and the keys go. -/
def keyConfig (dumps : Cbor.Value → Bytes) (kidI kidR : UInt8) (i r : KeyPair) : KeyConfig where
  kidI
  kidR
  credI := ccs dumps subjectI [kidI] i.pub.toList
  credR := ccs dumps subjectR [kidR] r.pub.toList
  gI := i.pub.toList
  gR := r.pub.toList

/-- The macros about the end itself: `ED_KID_x`, `ED_CRED_x` and `ED_x_PRIV`. -/
structure OwnMacros where
  edKid : UInt8
  edCred : Bytes
  edPriv : Bytes
  deriving DecidableEq, Repr

/-- In `include/edhoc_creds.h` the device is the responder. -/
def deviceOwn (cfg : KeyConfig) (r : KeyPair) : OwnMacros where
  edKid := cfg.kidR
  edCred := cfg.credR
  edPriv := r.priv.toList

/-- In `host_client/edhoc_creds_client.h` the client is the initiator. -/
def clientOwn (cfg : KeyConfig) (i : KeyPair) : OwnMacros where
  edKid := cfg.kidI
  edCred := cfg.credI
  edPriv := i.priv.toList

/-! ### The text of an array -/

/-- `f"0x{b:02x}"`. -/
def hexByte (b : UInt8) : List Char :=
  ['0', 'x', Nat.digitChar (b.toNat / 16), Nat.digitChar (b.toNat % 16)]

def arrayHead : List Char := "static const uint8_t ".toList

def cArray (name : List Char) (data : Bytes) (comment : Option (List Char)) : List Char :=
  let body := List.intercalate [',', ' '] (data.map hexByte)
  let line := arrayHead ++ (name ++ (['[', ']', ' ', '=', ' ', '\x7b'] ++ (body ++ ['\x7d', ';'])))
  match comment with
  | some (c :: cs) =>
      ['\t', '/', '*', ' '] ++ (c :: cs) ++ [' ', '*', '/', '\n', '\t'] ++ line
  | _ => '\t' :: line

/-! ### `cred_fetch` -/

/-- `struct edhoc_auth_creds` as `cred_fetch` fills it; `privKey` is the key behind `priv_key_id`. -/
structure FetchState (n : Nat) where
  label : Int
  keyId : KeyId n
  privKey : Bytes
  deriving DecidableEq, Repr

/-- The body both callbacks share; `keyImport` is what the key store answers. -/
def credFetch {n : Nat} (own : OwnMacros) (keyImport : Int) (s : FetchState n) :
    VerifyResult × FetchState n :=
  let s :=
    { s with
      label := EDHOC_COSE_HEADER_KID
      keyId :=
        { s.keyId with
          cred := own.edCred
          credLen := own.edCred.length
          credIsCbor := true
          encodeType := .byteString
          keyIdBstr := s.keyId.keyIdBstr.set 0 own.edKid (Nat.succ_pos n)
          keyIdBstrLength := 1
          length_le := Nat.succ_pos n } }
  if keyImport ≠ EDHOC_SUCCESS then (.credentialsFailure, s)
  else (.success, { s with privKey := own.edPriv })

end UsbNcmNet
