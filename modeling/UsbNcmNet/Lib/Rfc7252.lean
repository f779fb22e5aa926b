/-
The CoAP message format (RFC 7252, section 3).

A message is a header of four bytes, the token, the options and, behind the
marker, the payload.  An option is written as the difference of its number from
the one before it and its length, each in half a byte, with one or two bytes of
extension where it does not fit.  The format leaves no choice: a message that can
be encoded decodes to itself, and what decodes is the encoding of what it decodes
to.  A marker with no payload behind it is a format error.
-/
import Mathlib.Tactic.Common

namespace Rfc7252

abbrev Bytes := List UInt8

/-- A message; `type` is the two bits of the header, an option is a number and a value. -/
structure Message where
  type : Fin 4
  code : UInt8
  id : UInt16
  token : Bytes
  options : List (Nat × Bytes)
  payload : Bytes
  deriving DecidableEq, Repr

def marker : UInt8 := 0xff

/-- The two bits of a type, at the bottom of the given number. -/
def typeBits (n : Nat) : Fin 4 := Fin.ofNat 4 n

theorem val_typeBits (n : Nat) : (typeBits n).val = n % 4 := rfl

/-! ### Encoding -/

/-- The half byte for an option delta or an option length. -/
def nibble (n : Nat) : Nat :=
  if n < 13 then n
  else if n < 269 then 13
  else 14

/-- And the bytes that extend it. -/
def extension (n : Nat) : Bytes :=
  if n < 13 then []
  else if n < 269 then [UInt8.ofNat (n - 13)]
  else [UInt8.ofNat ((n - 269) / 256), UInt8.ofNat (n - 269)]

def encodeOption (last : Nat) (o : Nat × Bytes) : Bytes :=
  UInt8.ofNat (16 * nibble (o.1 - last) + nibble o.2.length) ::
    (extension (o.1 - last) ++ (extension o.2.length ++ o.2))

/-- The options in order, `last` being the number of the one before. -/
def encodeOptions : Nat → List (Nat × Bytes) → Bytes
  | _, [] => []
  | last, o :: os => encodeOption last o ++ encodeOptions o.1 os

/-- No marker without a payload. -/
def encodePayload (payload : Bytes) : Bytes := if payload = [] then [] else marker :: payload

def encode (m : Message) : Bytes :=
  UInt8.ofNat (64 + 16 * m.type.val + m.token.length) :: m.code :: UInt8.ofNat (m.id.toNat / 256) ::
    UInt8.ofNat m.id.toNat :: (m.token ++ (encodeOptions 0 m.options ++ encodePayload m.payload))

/-! ### Decoding -/

/-- The number behind a half byte, and what is left; 15 is reserved. -/
def readExtension (nib : Nat) (bs : Bytes) : Option (Nat × Bytes) :=
  if nib < 13 then some (nib, bs)
  else if nib = 13 then
    match bs with
    | b :: bs => some (b.toNat + 13, bs)
    | [] => none
  else if nib = 14 then
    match bs with
    | b :: c :: bs => some (256 * b.toNat + c.toNat + 269, bs)
    | _ => none
  else none

/-- Options and payload; the fuel is for the recursion and never too little. -/
def decodeBody : Nat → Nat → Bytes → Option (List (Nat × Bytes) × Bytes)
  | _, _, [] => some ([], [])
  | 0, _, _ :: _ => none
  | fuel + 1, last, b :: bs =>
      if b = marker then
        if bs = [] then none else some ([], bs)
      else
        match readExtension (b.toNat / 16) bs with
        | none => none
        | some (delta, bs) =>
            match readExtension (b.toNat % 16) bs with
            | none => none
            | some (len, bs) =>
                if bs.length < len then none
                else
                  (decodeBody fuel (last + delta) (bs.drop len)).map fun body =>
                    ((last + delta, bs.take len) :: body.1, body.2)

/-- Version 1, a token of at most eight bytes, and nothing in an empty message. -/
def decode : Bytes → Option Message
  | b :: code :: hi :: lo :: bs =>
      let tkl := b.toNat % 16
      if b.toNat / 64 = 1 ∧ tkl ≤ 8 ∧ tkl ≤ bs.length ∧ (code = 0 → bs = []) then
        (decodeBody (bs.length + 1) 0 (bs.drop tkl)).map fun body =>
          { type := typeBits (b.toNat / 16), code
            id := UInt16.ofNat (256 * hi.toNat + lo.toNat), token := bs.take tkl
            options := body.1, payload := body.2 }
      else none
  | _ => none

/-! ### Half bytes -/

theorem nibble_lt (n : Nat) : nibble n < 15 := by
  unfold nibble
  repeat' split
  all_goals omega

theorem readExtension_extension {n : Nat} (h : n < 65536 + 269) (bs : Bytes) :
    readExtension (nibble n) (extension n ++ bs) = some (n, bs) := by
  unfold nibble extension
  by_cases h13 : n < 13
  · simp [readExtension, h13]
  · by_cases h269 : n < 269
    · simp only [readExtension, h13, h269, if_true, if_false, List.cons_append, List.nil_append,
        UInt8.toNat_ofNat']
      simp
      omega
    · simp only [readExtension, h13, h269, if_true, if_false, List.cons_append, List.nil_append,
        UInt8.toNat_ofNat']
      simp
      omega

theorem extension_of_readExtension {nib n : Nat} {bs rest : Bytes}
    (h : readExtension nib bs = some (n, rest)) : nibble n = nib ∧ bs = extension n ++ rest := by
  unfold readExtension at h
  split at h
  · rename_i hlt
    obtain ⟨rfl, rfl⟩ : nib = n ∧ bs = rest := by simpa using h
    simp [nibble, extension, hlt]
  · split at h
    · rename_i h13
      cases bs with
      | nil => simp at h
      | cons b bs =>
          obtain ⟨rfl, rfl⟩ : b.toNat + 13 = n ∧ bs = rest := by simpa using h
          have hb := b.toNat_lt
          rw [nibble, extension, if_neg (by omega), if_pos (by omega), if_neg (by omega),
            if_pos (by omega), Nat.add_sub_cancel, UInt8.ofNat_toNat]
          exact ⟨h13.symm, rfl⟩
    · split at h
      · rename_i h14
        match bs with
        | [] => simp at h
        | [_] => simp at h
        | b :: c :: bs =>
            obtain ⟨rfl, rfl⟩ : 256 * b.toNat + c.toNat + 269 = n ∧ bs = rest := by simpa using h
            have hb : (256 * b.toNat + c.toNat) / 256 = b.toNat := by
              have := c.toNat_lt
              omega
            have hc : UInt8.ofNat (256 * b.toNat + c.toNat) = c := by
              apply UInt8.toNat_inj.mp
              have := c.toNat_lt
              rw [UInt8.toNat_ofNat']
              omega
            rw [nibble, extension, if_neg (by omega), if_neg (by omega), if_neg (by omega),
              if_neg (by omega), Nat.add_sub_cancel, hb, hc, UInt8.ofNat_toNat]
            exact ⟨h14.symm, rfl⟩
      · simp at h

/-! ### Options and payload -/

/-- The options can be written: in order of their numbers, deltas and lengths within the format. -/
def OptionsFit : Nat → List (Nat × Bytes) → Prop
  | _, [] => True
  | last, o :: os =>
      last ≤ o.1 ∧ o.1 - last < 65536 + 269 ∧ o.2.length < 65536 + 269 ∧ OptionsFit o.1 os

theorem decodeBody_payload (fuel last : Nat) (payload : Bytes) (hfuel : 0 < fuel) :
    decodeBody fuel last (encodePayload payload) = some ([], payload) := by
  obtain ⟨fuel, rfl⟩ := Nat.exists_eq_succ_of_ne_zero (Nat.ne_of_gt hfuel)
  unfold encodePayload
  by_cases h : payload = []
  · simp [h, decodeBody]
  · simp [h, decodeBody]

/-- The first byte of an option gives its two half bytes back, and is no marker. -/
theorem optionByte {d l : Nat} (hd : d < 15) (hl : l < 15) :
    (UInt8.ofNat (16 * d + l)).toNat / 16 = d ∧ (UInt8.ofNat (16 * d + l)).toNat % 16 = l ∧
      UInt8.ofNat (16 * d + l) ≠ marker := by
  have hnat : (UInt8.ofNat (16 * d + l)).toNat = 16 * d + l := by
    rw [UInt8.toNat_ofNat']
    omega
  refine ⟨by omega, by omega, ?_⟩
  intro h
  rw [h] at hnat
  simp [marker] at hnat
  omega

theorem decodeBody_encode {os : List (Nat × Bytes)} {last fuel : Nat} (payload : Bytes)
    (hfit : OptionsFit last os) (hfuel : os.length < fuel) :
    decodeBody fuel last (encodeOptions last os ++ encodePayload payload) = some (os, payload) := by
  induction os generalizing last fuel with
  | nil => exact decodeBody_payload fuel last payload hfuel
  | cons o os ih =>
      obtain ⟨hlast, hdelta, hlen, hfit⟩ := hfit
      obtain ⟨fuel, rfl⟩ := Nat.exists_eq_succ_of_ne_zero (Nat.ne_zero_of_lt hfuel)
      obtain ⟨hdiv, hmod, hmarker⟩ := optionByte (nibble_lt (o.1 - last)) (nibble_lt o.2.length)
      have hrest : decodeBody fuel o.1 (encodeOptions o.1 os ++ encodePayload payload)
          = some (os, payload) := ih hfit (by simpa using hfuel)
      rw [encodeOptions, encodeOption, List.append_assoc, List.cons_append, decodeBody,
        if_neg hmarker, hdiv, hmod]
      simp only [List.append_assoc, readExtension_extension hdelta, readExtension_extension hlen]
      rw [if_neg (by simp), List.drop_left, List.take_left, Nat.add_sub_cancel' hlast, hrest]
      rfl

/-- What decodes is the encoding of what it decodes to. -/
theorem encode_of_decodeBody {fuel last : Nat} {bs payload : Bytes} {os : List (Nat × Bytes)}
    (h : decodeBody fuel last bs = some (os, payload)) :
    bs = encodeOptions last os ++ encodePayload payload := by
  induction fuel generalizing last bs os with
  | zero =>
      cases bs with
      | nil =>
          obtain ⟨rfl, rfl⟩ : [] = os ∧ [] = payload := by simpa [decodeBody] using h
          rfl
      | cons b bs => simp [decodeBody] at h
  | succ fuel ih =>
      cases bs with
      | nil =>
          obtain ⟨rfl, rfl⟩ : [] = os ∧ [] = payload := by simpa [decodeBody] using h
          rfl
      | cons b bs =>
          rw [decodeBody] at h
          split at h
          · rename_i hmarker
            split at h
            · simp at h
            · rename_i hne
              obtain ⟨rfl, rfl⟩ : [] = os ∧ bs = payload := by simpa using h
              simp [encodeOptions, encodePayload, hne, hmarker]
          · split at h
            · simp at h
            · rename_i delta bs₁ hdelta
              split at h
              · simp at h
              · rename_i len bs₂ hlen
                split at h
                · simp at h
                · rename_i hroom
                  obtain ⟨⟨os', payload'⟩, hbody, heq⟩ := Option.map_eq_some_iff.mp h
                  obtain ⟨rfl, rfl⟩ :
                      (last + delta, bs₂.take len) :: os' = os ∧ payload' = payload := by
                    simpa using heq
                  obtain ⟨hnd, rfl⟩ := extension_of_readExtension hdelta
                  obtain ⟨hnl, rfl⟩ := extension_of_readExtension hlen
                  have hrest := ih hbody
                  have htake : (bs₂.take len).length = len := by
                    rw [List.length_take]
                    omega
                  have hbyte : UInt8.ofNat (16 * (b.toNat / 16) + b.toNat % 16) = b := by
                    rw [Nat.div_add_mod, UInt8.ofNat_toNat]
                  rw [encodeOptions, encodeOption, Nat.add_sub_cancel_left, htake, hnd, hnl, hbyte]
                  simp only [List.cons_append, List.append_assoc, ← hrest, List.take_append_drop]

/-! ### Messages -/

/-- A message the format has room for. -/
structure Message.Valid (m : Message) : Prop where
  token : m.token.length ≤ 8
  options : OptionsFit 0 m.options
  empty : m.code = 0 → m.token = [] ∧ m.options = [] ∧ m.payload = []

theorem length_options_le (last : Nat) (os : List (Nat × Bytes)) :
    os.length ≤ (encodeOptions last os).length := by
  induction os generalizing last with
  | nil => simp
  | cons o os ih =>
      have := ih o.1
      simp [encodeOptions, encodeOption]
      omega

theorem id_of_bytes (id : UInt16) :
    UInt16.ofNat (256 * (UInt8.ofNat (id.toNat / 256)).toNat + (UInt8.ofNat id.toNat).toNat)
      = id := by
  have hlt := id.toNat_lt
  apply UInt16.toNat_inj.mp
  rw [UInt16.toNat_ofNat', UInt8.toNat_ofNat', UInt8.toNat_ofNat']
  omega

theorem bytes_of_id (hi lo : UInt8) :
    UInt8.ofNat ((UInt16.ofNat (256 * hi.toNat + lo.toNat)).toNat / 256) = hi ∧
      UInt8.ofNat (UInt16.ofNat (256 * hi.toNat + lo.toNat)).toNat = lo := by
  have hhi := hi.toNat_lt
  have hlo := lo.toNat_lt
  constructor <;> apply UInt8.toNat_inj.mp <;> rw [UInt8.toNat_ofNat', UInt16.toNat_ofNat'] <;>
    omega

/-- **Decoding undoes encoding.** -/
theorem decode_encode {m : Message} (h : m.Valid) : decode (encode m) = some m := by
  obtain ⟨htoken, hfit, hempty⟩ := h
  have htype := m.type.isLt
  have hnat : (UInt8.ofNat (64 + 16 * m.type.val + m.token.length)).toNat
      = 64 + 16 * m.type.val + m.token.length := by
    rw [UInt8.toNat_ofNat']
    omega
  have htkl : (64 + 16 * m.type.val + m.token.length) % 16 = m.token.length := by omega
  have hfuel : m.options.length
      < (m.token ++ (encodeOptions 0 m.options ++ encodePayload m.payload)).length + 1 := by
    have := length_options_le 0 m.options
    simp only [List.length_append]
    omega
  have hbody := decodeBody_encode m.payload hfit hfuel
  rw [encode, decode, hnat, htkl, if_pos]
  · rw [List.drop_left, List.take_left, hbody]
    have htypes : typeBits ((64 + 16 * m.type.val + m.token.length) / 16) = m.type := by
      apply Fin.ext
      rw [val_typeBits]
      omega
    rw [Option.map_some, id_of_bytes, htypes]
  · refine ⟨by omega, htoken, by simp, ?_⟩
    intro hcode
    obtain ⟨h1, h2, h3⟩ := hempty hcode
    simp [h1, h2, h3, encodeOptions, encodePayload]

/-- **And encoding undoes decoding.** -/
theorem encode_of_decode {bs : Bytes} {m : Message} (h : decode bs = some m) : bs = encode m := by
  match bs with
  | [] => simp [decode] at h
  | [_] => simp [decode] at h
  | [_, _] => simp [decode] at h
  | [_, _, _] => simp [decode] at h
  | b :: code :: hi :: lo :: bs =>
      rw [decode] at h
      split at h
      · rename_i hhead
        obtain ⟨hver, htkl, hlen, -⟩ := hhead
        obtain ⟨⟨os, payload⟩, hbody, rfl⟩ := Option.map_eq_some_iff.mp h
        obtain ⟨hhi, hlo⟩ := bytes_of_id hi lo
        have hb := b.toNat_lt
        have hfirst : UInt8.ofNat (64 + 16 * (typeBits (b.toNat / 16)).val
            + (bs.take (b.toNat % 16)).length) = b := by
          apply UInt8.toNat_inj.mp
          rw [UInt8.toNat_ofNat', List.length_take, val_typeBits]
          omega
        rw [encode]
        dsimp only
        rw [hfirst, hhi, hlo, ← encode_of_decodeBody hbody, List.take_append_drop]
      · simp at h

end Rfc7252
