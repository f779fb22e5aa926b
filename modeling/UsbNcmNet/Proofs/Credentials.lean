/-
Whether each end recognises the other.

One identity goes through four forms: the kid in the script, the two macros of the
header, and the integer or the byte string that libedhoc presents.  For a kid that
compresses to an integer they agree.  For one that does not, the script writes
Python's `None` into the header, and there is no `cred_verify` at all.
-/
import UsbNcmNet.Edhoc.Credentials
import UsbNcmNet.Lib.Cbor

namespace UsbNcmNet

variable {n : Nat}

/-! ### The integer of a kid -/

/-- The byte is the whole CBOR encoding of an integer. -/
def Compresses (kid : UInt8) : Prop :=
  kid.toNat ≤ 0x17 ∨ (0x20 ≤ kid.toNat ∧ kid.toNat ≤ 0x37)

instance (kid : UInt8) : Decidable (Compresses kid) := inferInstanceAs (Decidable (_ ∨ _))

/-- **`kid_wire_int` is the integer whose encoding the kid is.** -/
theorem kidWireInt_eq_some_iff {kid : UInt8} {v : Int} :
    kidWireInt kid = some v ↔ Cbor.encodeInt v = [kid] := by
  rw [Cbor.encodeInt_eq_singleton]
  unfold kidWireInt
  dsimp only
  split
  · rw [Option.some.injEq]
    omega
  · split
    · rw [Option.some.injEq]
      omega
    · simp only [reduceCtorEq, false_iff]
      omega

theorem kidWireInt_of_compresses {kid : UInt8} (h : Compresses kid) :
    ∃ v, kidWireInt kid = some v := by
  unfold kidWireInt
  dsimp only
  split
  · exact ⟨_, rfl⟩
  · unfold Compresses at h
    rw [if_pos (by omega)]
    exact ⟨_, rfl⟩

theorem kidWireInt_of_not_compresses {kid : UInt8} (h : ¬ Compresses kid) :
    kidWireInt kid = none := by
  unfold Compresses at h
  unfold kidWireInt
  dsimp only
  rw [if_neg (by omega), if_neg (by omega)]

/-! ### What `cred_verify` owes -/

/-- The identifier as a byte string. -/
def KeyId.bytes (k : KeyId n) : Bytes := k.keyIdBstr.toList.take k.keyIdBstrLength

/-- libedhoc presents the kid: as its byte string, or as the integer it is the encoding of. -/
def Presents (kid : UInt8) (s : VerifyState n) : Prop :=
  s.label = EDHOC_COSE_HEADER_KID ∧
    match s.keyId.encodeType with
    | .integer => Cbor.encodeInt s.keyId.keyIdInt = [kid]
    | .byteString => s.keyId.bytes = [kid]

/-- The peer's credential is in place: the byte-string kid, the CRED and the public key. -/
structure PeerInPlace (kid : UInt8) (cred g : Bytes) (s : VerifyState n) : Prop where
  encodeType : s.keyId.encodeType = .byteString
  bytes : s.keyId.bytes = [kid]
  length : s.keyId.keyIdBstrLength = 1
  cred : s.keyId.cred = cred ∧ s.keyId.credLen = cred.length ∧ s.keyId.credIsCbor = true
  publicKey : s.publicKey = g ∧ s.publicKeyLength = g.length

/--
`cred_verify` exists, accepts exactly the identifiers that present the kid, leaves
the same credential whichever form arrived, and changes nothing when it refuses.
-/
def VerifiesPeer (verify : Option (VerifyState n → VerifyResult × VerifyState n)) (kid : UInt8)
    (cred g : Bytes) : Prop :=
  ∃ f, verify = some f ∧ ∀ s,
    ((f s).1 = .success ↔ Presents kid s) ∧
    ((f s).1 = .success → PeerInPlace kid cred g (f s).2) ∧
    ((f s).1 ≠ .success → (f s).2 = s)

theorem bytes_eq_singleton_iff (k : KeyId n) (kid : UInt8) :
    k.bytes = [kid] ↔ k.keyIdBstrLength = 1 ∧ k.firstByte = kid := by
  have hle := k.length_le
  have hcons : k.keyIdBstr.toList = k.firstByte :: k.keyIdBstr.toList.tail := by
    show k.keyIdBstr.toList = k.keyIdBstr[0] :: k.keyIdBstr.toList.tail
    rw [← Vector.getElem_toList (by simp), List.getElem_zero, List.cons_head_tail]
  unfold KeyId.bytes
  constructor
  · intro h
    have hlen := congrArg List.length h
    rw [List.length_take, Vector.length_toList, List.length_singleton] at hlen
    have hone : k.keyIdBstrLength = 1 := by omega
    rw [hone, hcons] at h
    exact ⟨hone, by simpa using h⟩
  · rintro ⟨hone, hfirst⟩
    rw [hone, hcons, hfirst]
    rfl

theorem peerInPlace_accept (hdr : PeerMacros) (s : VerifyState n) :
    PeerInPlace hdr.edKid hdr.edCred hdr.edG (s.accept hdr) where
  encodeType := rfl
  bytes := (bytes_eq_singleton_iff _ _).mpr ⟨rfl, Vector.getElem_set_self _⟩
  length := rfl
  cred := ⟨rfl, rfl, rfl⟩
  publicKey := ⟨rfl, rfl⟩

/-- The test of the source, with the constant the macro stands for. -/
def Accepts (kidInt : Int) (kid : UInt8) (s : VerifyState n) : Prop :=
  s.label = EDHOC_COSE_HEADER_KID ∧
    match s.keyId.encodeType with
    | .integer => s.keyId.keyIdInt = kidInt
    | .byteString => s.keyId.keyIdBstrLength = 1 ∧ s.keyId.firstByte = kid

/-- The two ways out of `cred_verify`. -/
theorem credVerify_ran {hdr : PeerMacros} {v : Int} (hint : hdr.edKidInt = .constant v) :
    ∃ f, credVerify (n := n) hdr = some f ∧ ∀ s,
      (Accepts v hdr.edKid s ∧ f s = (.success, s.accept hdr)) ∨
      (¬ Accepts v hdr.edKid s ∧ f s = (.credentialsFailure, s)) := by
  unfold credVerify
  rw [hint]
  refine ⟨_, rfl, ?_⟩
  intro s
  unfold Accepts
  by_cases hlabel : s.label = EDHOC_COSE_HEADER_KID
  · cases s.keyId.encodeType with
    | integer =>
        by_cases hint : s.keyId.keyIdInt = v
        · exact .inl ⟨⟨hlabel, hint⟩, by simp [hlabel, hint]⟩
        · exact .inr ⟨fun h => hint h.2, by simp [hlabel, hint]⟩
    | byteString =>
        by_cases hbytes : s.keyId.keyIdBstrLength = 1 ∧ s.keyId.firstByte = hdr.edKid
        · exact .inl ⟨⟨hlabel, hbytes⟩, by simp [hlabel, hbytes]⟩
        · refine .inr ⟨fun h => hbytes h.2, ?_⟩
          have hor : s.keyId.keyIdBstrLength ≠ 1 ∨ s.keyId.firstByte ≠ hdr.edKid :=
            not_and_or.mp hbytes
          simp only [hlabel, ne_eq, not_true_eq_false, if_false, if_pos hor]
  · exact .inr ⟨fun h => hlabel h.1, by simp [hlabel]⟩

/-- With the integer of the kid, the test is the right one. -/
theorem accepts_iff_presents {kid : UInt8} {v : Int} (hv : kidWireInt kid = some v)
    (s : VerifyState n) : Accepts v kid s ↔ Presents kid s := by
  unfold Accepts Presents
  cases s.keyId.encodeType with
  | integer =>
      have hint : Cbor.encodeInt s.keyId.keyIdInt = [kid] ↔ s.keyId.keyIdInt = v := by
        rw [← kidWireInt_eq_some_iff, hv, Option.some.injEq]
        exact eq_comm
      dsimp only
      rw [hint]
  | byteString =>
      dsimp only
      rw [bytes_eq_singleton_iff]

/-- A header with the right integer makes a `cred_verify` that does all of it. -/
theorem verifiesPeer_of_constant {hdr : PeerMacros} {v : Int} (hint : hdr.edKidInt = .constant v)
    (hv : kidWireInt hdr.edKid = some v) :
    VerifiesPeer (n := n) (credVerify hdr) hdr.edKid hdr.edCred hdr.edG := by
  obtain ⟨f, hf, hran⟩ := credVerify_ran hint
  refine ⟨f, hf, ?_⟩
  intro s
  have htest := accepts_iff_presents hv s
  rcases hran s with ⟨haccept, hs⟩ | ⟨hreject, hs⟩
  · rw [hs]
    exact ⟨iff_of_true rfl (htest.mp haccept), fun _ => peerInPlace_accept hdr s,
      fun h => absurd rfl h⟩
  · rw [hs]
    exact ⟨iff_of_false (by simp) (mt htest.mpr hreject), fun h => by simp at h, fun _ => rfl⟩

/-- One end, with the header the script makes for a peer of the given kid. -/
theorem verifiesPeer_credVerify_iff (kid : UInt8) (cred g : Bytes) :
    VerifiesPeer (n := n) (credVerify ⟨kid, interpolate (kidWireInt kid), cred, g⟩) kid cred g ↔
      Compresses kid := by
  by_cases h : Compresses kid
  · obtain ⟨v, hv⟩ := kidWireInt_of_compresses h
    refine iff_of_true (verifiesPeer_of_constant (v := v) ?_ hv) h
    show interpolate (kidWireInt kid) = .constant v
    rw [hv]
    rfl
  · refine iff_of_false ?_ h
    rintro ⟨f, hf, -⟩
    rw [kidWireInt_of_not_compresses h] at hf
    simp [credVerify, interpolate] at hf

/--
**Each end recognises the other exactly when the other's kid compresses.**  For
any other kid the header does not compile.
-/
theorem verifiesPeer_iff_compresses (n : Nat) (cfg : KeyConfig) :
    (VerifiesPeer (n := n) (deviceCredVerify cfg) cfg.kidI cfg.credI cfg.gI ↔
      Compresses cfg.kidI) ∧
    (VerifiesPeer (n := n) (clientCredVerify cfg) cfg.kidR cfg.credR cfg.gR ↔
      Compresses cfg.kidR) :=
  ⟨verifiesPeer_credVerify_iff cfg.kidI cfg.credI cfg.gI,
    verifiesPeer_credVerify_iff cfg.kidR cfg.credR cfg.gR⟩

/-- The kids of the deployment compress, to -11 and -12. -/
example : kidWireInt 0x2a = some (-11) ∧ kidWireInt 0x2b = some (-12) := by decide

/-- An initiator with kid 0x40: the macro is `None`, and the device has no `cred_verify`. -/
theorem no_credVerify_for_0x40 :
    (deviceHeader ⟨0x40, 0x2b, [], [], [], []⟩).edKidInt = .undeclared "None" ∧
      ¬ VerifiesPeer (n := 0) (deviceCredVerify ⟨0x40, 0x2b, [], [], [], []⟩) 0x40 [] [] := by
  refine ⟨rfl, ?_⟩
  rintro ⟨f, hf, -⟩
  simp [deviceCredVerify, deviceHeader, credVerify, interpolate, kidWireInt] at hf

end UsbNcmNet
