/-
What the Python encoder's requests decode to.

`build_request` writes the length of a segment into the lower half of the option
byte and knows no extension, so a segment of 13 bytes is taken for an announcement
of one, and from 16 on the length spills into the delta.  A payload that is there
but empty leaves a marker with nothing behind it.  Everything else decodes to what
was asked for.
-/
import UsbNcmNet.Host.Latency
import UsbNcmNet.Lib.Rfc7252

namespace UsbNcmNet

open Rfc7252 (typeBits nibble extension encodeOption encodeOptions encodePayload OptionsFit)

/-! ### What is asked for -/

/-- The segments of a path; empty ones do not count. -/
def segments (uriPath : String) : List (List Char) := (splitPath uriPath).filter (· ≠ [])

/-- The options of a path. -/
def pathOptions (segs : List (List Char)) : List (Nat × Bytes) := segs.map fun seg => (11, utf8 seg)

/-- The message `build_request` is asked for; no payload and an empty one are the same. -/
def requestMessage (code : UInt8) (uriPath : String) (mtype : CoapType) (mid : Nat) (token : Bytes)
    (payload : Option Bytes) : Rfc7252.Message where
  type := typeBits mtype.bits.toNat
  code := code
  id := UInt16.ofNat mid
  token := token
  options := pathOptions (segments uriPath)
  payload := payload.getD []

/-- The request is encoded, and decodes to what was asked for. -/
def Invertible (code : UInt8) (uriPath : String) (mtype : CoapType) (mid : Nat) (token : Bytes)
    (payload : Option Bytes) : Prop :=
  ∃ bs, buildRequest code uriPath mtype mid token payload = some bs ∧
    Rfc7252.decode bs = some (requestMessage code uriPath mtype mid token payload)

/-! ### What is written -/

/-- The options as the loop writes them. -/
def rawOptions : Nat → List (List Char) → Bytes
  | _, [] => []
  | last, seg :: segs =>
      UInt8.ofNat ((11 - last) <<< 4 ||| (utf8 seg).length) :: (utf8 seg ++ rawOptions 11 segs)

/-- The marker and the payload as they are written. -/
def rawPayload : Option Bytes → Bytes
  | none => []
  | some payload => 0xff :: payload

theorem optionByte_lt {last len : Nat} (h : len ≤ 255) : (11 - last) <<< 4 ||| len < 256 := by
  have hshift : (11 - last) <<< 4 < 2 ^ 8 := by
    rw [Nat.shiftLeft_eq]
    omega
  exact Nat.or_lt_two_pow hshift (by omega)

theorem appendSegments_eq {segs : List (List Char)} {last : Nat} {out : Bytes}
    (h : ∀ seg ∈ segs, (utf8 seg).length ≤ 255) :
    appendSegments segs last out = some (out ++ rawOptions last (segs.filter (· ≠ []))) := by
  induction segs generalizing last out with
  | nil => simp [appendSegments, rawOptions]
  | cons seg segs ih =>
      have hsegs : ∀ seg ∈ segs, (utf8 seg).length ≤ 255 :=
        fun s hs => h s (List.mem_cons_of_mem _ hs)
      by_cases hseg : seg = []
      · rw [appendSegments, if_pos hseg, ih hsegs]
        simp [hseg]
      · have hbyte : (11 - last) <<< 4 ||| (utf8 seg).length < 256 :=
          optionByte_lt (h seg List.mem_cons_self)
        rw [appendSegments, if_neg hseg]
        simp only [appendByte, hbyte, if_true, bind, Option.bind]
        rw [ih hsegs]
        simp [hseg, rawOptions]

theorem headerByte_eq (mtype : CoapType) : ∀ n ≤ 8,
    COAP_VER <<< 6 ||| mtype.bits.toNat <<< 4 ||| n
      = 64 + 16 * (typeBits mtype.bits.toNat).val + n := by
  cases mtype <;> decide

variable {code : UInt8} {uriPath : String} {mtype : CoapType} {mid : Nat} {token : Bytes}

/-- The segments that are skipped have no bytes anyway. -/
theorem splitPath_short (h : ∀ seg ∈ segments uriPath, (utf8 seg).length ≤ 255) :
    ∀ seg ∈ splitPath uriPath, (utf8 seg).length ≤ 255 := by
  intro seg hseg
  by_cases hempty : seg = []
  · subst hempty
    decide
  · exact h seg (List.mem_filter.mpr ⟨hseg, by simpa using hempty⟩)

/-- **What `build_request` writes.** -/
theorem buildRequest_eq (payload : Option Bytes) (hmid : mid < 65536) (htoken : token.length ≤ 8)
    (hsegs : ∀ seg ∈ segments uriPath, (utf8 seg).length ≤ 255) :
    buildRequest code uriPath mtype mid token payload =
      some (UInt8.ofNat (64 + 16 * (typeBits mtype.bits.toNat).val + token.length) :: code ::
        UInt8.ofNat (mid / 256) :: UInt8.ofNat mid ::
        (token ++ (rawOptions 0 (segments uriPath) ++ rawPayload payload))) := by
  have hbyte : COAP_VER <<< 6 ||| mtype.bits.toNat <<< 4 ||| token.length < 256 := by
    rw [headerByte_eq mtype _ htoken]
    omega
  have hloop := @appendSegments_eq _ 0
    ([UInt8.ofNat (COAP_VER <<< 6 ||| mtype.bits.toNat <<< 4 ||| token.length)] ++ [code]
      ++ [UInt8.ofNat (mid / 256), UInt8.ofNat mid] ++ token) (splitPath_short hsegs)
  unfold buildRequest appendByte packU16
  simp only [hbyte, hmid, if_true, bind, Option.bind, List.nil_append, hloop]
  rw [headerByte_eq mtype _ htoken]
  cases payload <;> simp [rawPayload, segments]

/-! ### What should have been written -/

/-- The difference of two option numbers up to 11 needs no extension. -/
theorem delta_short (last : Nat) :
    nibble (11 - last) = 11 - last ∧ extension (11 - last) = [] := by
  have h : 11 - last < 13 := by omega
  simp [nibble, extension, h]

theorem encodeOption_path (last : Nat) (seg : List Char) :
    encodeOption last (11, utf8 seg) =
      UInt8.ofNat (16 * (11 - last) + nibble (utf8 seg).length) ::
        (extension (utf8 seg).length ++ utf8 seg) := by
  obtain ⟨hnibble, hext⟩ := delta_short last
  rw [encodeOption, hnibble, hext]
  rfl

theorem pathOptions_fit {segs : List (List Char)} {last : Nat} (hlast : last ≤ 11)
    (h : ∀ seg ∈ segs, (utf8 seg).length ≤ 255) : OptionsFit last (pathOptions segs) := by
  induction segs generalizing last with
  | nil => trivial
  | cons seg segs ih =>
      have hseg := h seg List.mem_cons_self
      exact ⟨hlast, by show 11 - last < _; omega, by show (utf8 seg).length < _; omega,
        ih (Nat.le_refl 11) fun s hs => h s (List.mem_cons_of_mem _ hs)⟩

/-- Short segments are written as they should be. -/
theorem rawOptions_eq {segs : List (List Char)} (last : Nat)
    (h : ∀ seg ∈ segs, (utf8 seg).length ≤ 12) :
    rawOptions last segs = encodeOptions last (pathOptions segs) := by
  induction segs generalizing last with
  | nil => rfl
  | cons seg segs ih =>
      have hseg : (utf8 seg).length < 13 := Nat.lt_succ_of_le (h seg List.mem_cons_self)
      have hor : (11 - last) <<< 4 ||| (utf8 seg).length
          = 16 * (11 - last) + (utf8 seg).length := by
        rw [← Nat.shiftLeft_add_eq_or_of_lt (by omega), Nat.shiftLeft_eq, Nat.mul_comm]
      rw [pathOptions, List.map_cons, encodeOptions, encodeOption_path, rawOptions, hor,
        ih 11 fun s hs => h s (List.mem_cons_of_mem _ hs)]
      simp [nibble, extension, hseg, pathOptions]

/-- So is a payload, unless it is there and empty. -/
theorem rawPayload_eq {payload : Option Bytes} (h : payload ≠ some []) :
    rawPayload payload = encodePayload (payload.getD []) := by
  cases payload with
  | none => rfl
  | some p =>
      have hp : p ≠ [] := fun heq => h (by rw [heq])
      simp [rawPayload, encodePayload, hp, Rfc7252.marker]

/-- How many bytes of extension a path needs, none of which are written. -/
def missing : List (List Char) → Nat
  | [] => 0
  | seg :: segs => (extension (utf8 seg).length).length + missing segs

theorem length_encodeOptions (segs : List (List Char)) (last : Nat) :
    (encodeOptions last (pathOptions segs)).length
      = (rawOptions last segs).length + missing segs := by
  induction segs generalizing last with
  | nil => rfl
  | cons seg segs ih =>
      have hrest := ih 11
      unfold pathOptions at hrest ⊢
      rw [List.map_cons, encodeOptions, encodeOption_path, rawOptions, missing]
      simp only [List.length_append, List.length_cons, hrest]
      omega

theorem short_of_missing {segs : List (List Char)} (h : missing segs = 0) :
    ∀ seg ∈ segs, (utf8 seg).length ≤ 12 := by
  induction segs with
  | nil => simp
  | cons seg segs ih =>
      obtain ⟨hzero, hrest⟩ := Nat.add_eq_zero_iff.mp h
      intro s hs
      rcases List.mem_cons.mp hs with rfl | hs
      · by_contra hc
        unfold extension at hzero
        rw [if_neg (by omega)] at hzero
        split at hzero <;> simp at hzero
      · exact ih hrest s hs

theorem ofNat_ne_marker {n : Nat} (h : n < 255) : UInt8.ofNat n ≠ 0xff := by
  intro heq
  have hnat := congrArg UInt8.toNat heq
  rw [UInt8.toNat_ofNat'] at hnat
  simp at hnat
  omega

/-- No byte of UTF-8 is the marker. -/
theorem marker_notMem_utf8 (seg : List Char) : (0xff : UInt8) ∉ utf8 seg := by
  intro h
  obtain ⟨c, -, hc⟩ := List.mem_flatMap.mp h
  unfold String.utf8EncodeChar at hc
  dsimp only at hc
  generalize c.val.toNat = v at hc
  repeat' split at hc
  all_goals simp only [List.mem_cons, List.not_mem_nil, or_false] at hc
  · exact ofNat_ne_marker (by omega) hc.symm
  · rcases hc with hc | hc <;> exact ofNat_ne_marker (by omega) hc.symm
  · rcases hc with hc | hc | hc <;> exact ofNat_ne_marker (by omega) hc.symm
  · rcases hc with hc | hc | hc | hc <;> exact ofNat_ne_marker (by omega) hc.symm

theorem marker_notMem_extension {n : Nat} (h : n ≤ 255) : (0xff : UInt8) ∉ extension n := by
  unfold extension
  split
  · simp
  · rw [if_pos (by omega), List.mem_singleton]
    exact fun heq => ofNat_ne_marker (by omega) heq.symm

/-- So options that are written right hold no marker. -/
theorem marker_notMem_options {segs : List (List Char)} (last : Nat)
    (h : ∀ seg ∈ segs, (utf8 seg).length ≤ 255) :
    (0xff : UInt8) ∉ encodeOptions last (pathOptions segs) := by
  induction segs generalizing last with
  | nil => simp [pathOptions, encodeOptions]
  | cons seg segs ih =>
      have hrest := ih 11 fun s hs => h s (List.mem_cons_of_mem _ hs)
      have hnibble := Rfc7252.nibble_lt (utf8 seg).length
      rw [pathOptions, List.map_cons, encodeOptions, encodeOption_path]
      simp only [List.cons_append, List.append_assoc, List.mem_cons, List.mem_append, not_or]
      exact ⟨fun heq => ofNat_ne_marker (by omega) heq.symm,
        marker_notMem_extension (h seg List.mem_cons_self), marker_notMem_utf8 seg, hrest⟩

/-! ### Both compared -/

theorem requestMessage_valid (payload : Option Bytes) (hcode : code ≠ 0)
    (htoken : token.length ≤ 8) (hsegs : ∀ seg ∈ segments uriPath, (utf8 seg).length ≤ 255) :
    (requestMessage code uriPath mtype mid token payload).Valid where
  token := htoken
  options := pathOptions_fit (Nat.zero_le 11) hsegs
  empty := fun h => absurd h hcode

theorem encode_requestMessage (payload : Option Bytes) (hmid : mid < 65536) :
    Rfc7252.encode (requestMessage code uriPath mtype mid token payload) =
      UInt8.ofNat (64 + 16 * (typeBits mtype.bits.toNat).val + token.length) :: code ::
        UInt8.ofNat (mid / 256) :: UInt8.ofNat mid ::
        (token ++ (encodeOptions 0 (pathOptions (segments uriPath))
          ++ encodePayload (payload.getD []))) := by
  have hid : (UInt16.ofNat mid).toNat = mid := by
    rw [UInt16.toNat_ofNat']
    omega
  unfold Rfc7252.encode requestMessage
  rw [hid]

/-- The round trip is a question of the options and the payload alone. -/
theorem invertible_iff_body (payload : Option Bytes) (hcode : code ≠ 0) (hmid : mid < 65536)
    (htoken : token.length ≤ 8) (hsegs : ∀ seg ∈ segments uriPath, (utf8 seg).length ≤ 255) :
    Invertible code uriPath mtype mid token payload ↔
      rawOptions 0 (segments uriPath) ++ rawPayload payload
        = encodeOptions 0 (pathOptions (segments uriPath)) ++ encodePayload (payload.getD []) := by
  have hbuild := @buildRequest_eq code uriPath mtype mid token payload hmid htoken hsegs
  have hencode := @encode_requestMessage code uriPath mtype mid token payload hmid
  have hvalid := @requestMessage_valid code uriPath mtype mid token payload hcode htoken hsegs
  constructor
  · rintro ⟨bs, hbs, hdecode⟩
    have heq := Rfc7252.encode_of_decode hdecode
    rw [hbuild] at hbs
    rw [← Option.some.inj hbs, hencode] at heq
    simpa using heq
  · intro hbody
    refine ⟨_, hbuild, ?_⟩
    rw [hbody, ← hencode]
    exact Rfc7252.decode_encode hvalid

/--
**Which requests come out as asked for**: those with no segment longer than 12
bytes and no payload that is present and empty.
-/
theorem invertible_iff (code : UInt8) (uriPath : String) (mtype : CoapType) (mid : Nat)
    (token : Bytes) (payload : Option Bytes) (hcode : code ≠ 0) (hmid : mid < 65536)
    (htoken : token.length ≤ 8) (hsegs : ∀ seg ∈ segments uriPath, (utf8 seg).length ≤ 255) :
    Invertible code uriPath mtype mid token payload ↔
      (∀ seg ∈ segments uriPath, (utf8 seg).length ≤ 12) ∧ payload ≠ some [] := by
  rw [invertible_iff_body payload hcode hmid htoken hsegs]
  constructor
  · intro hbody
    have hpayload : payload ≠ some [] := by
      rintro rfl
      -- the bare marker is in what was written, and not in what should have been
      have hmem : (0xff : UInt8) ∈ rawOptions 0 (segments uriPath) ++ rawPayload (some []) := by
        simp [rawPayload]
      rw [hbody] at hmem
      simp [encodePayload, marker_notMem_options 0 hsegs] at hmem
    refine ⟨?_, hpayload⟩
    have hlen := congrArg List.length hbody
    rw [rawPayload_eq hpayload, List.length_append, List.length_append,
      length_encodeOptions] at hlen
    exact short_of_missing (by omega)
  · rintro ⟨hshort, hpayload⟩
    rw [rawOptions_eq 0 hshort, rawPayload_eq hpayload]

/-- PUT of `1` to `/led`, as `coap_cli.py` sends it. -/
theorem invertible_put_led :
    Invertible 3 "led" .con 0x1234 [1, 2, 3, 4] (some [0x31]) :=
  (invertible_iff 3 "led" .con 0x1234 [1, 2, 3, 4] (some [0x31]) (by decide) (by decide)
    (by decide) (by decide)).mpr (by decide)

theorem not_invertible_of_decode {payload : Option Bytes}
    (h : (buildRequest code uriPath mtype mid token payload).bind Rfc7252.decode = none) :
    ¬ Invertible code uriPath mtype mid token payload := by
  rintro ⟨bs, hbs, hdecode⟩
  rw [hbs, Option.bind_some, hdecode] at h
  simp at h

/-- A segment of 13 bytes, and a payload that is there and empty: neither decodes at all. -/
theorem long_segment_and_empty_payload :
    ¬ Invertible 1 "temperature13" .con 0 [] none ∧ ¬ Invertible 3 "led" .con 0 [] (some []) :=
  ⟨not_invertible_of_decode (by decide), not_invertible_of_decode (by decide)⟩

end UsbNcmNet
