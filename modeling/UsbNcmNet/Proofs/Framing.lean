/-
What the framing of an EDHOC POST is worth.

The device measures the C_R in front of a message_3 with `cbor_item_len`, a chain
of tests on the first byte that knows five header widths and the payload of a
string whose length has at most two bytes.  For everything a C_R can be on the
wire that is enough, and deframing undoes the host's framing.  It is not enough
the other way round: items of other types, reserved widths and strings with a
longer length field are measured by their header alone and cut there.
-/
import UsbNcmNet.Host.Client
import UsbNcmNet.Lib.Cbor
import UsbNcmNet.Proofs.Responder

namespace UsbNcmNet

open Cbor (major info argLength argument WellFormed DefiniteString)

/-! ### `cbor_item_len` in numbers -/

theorem toNat_shiftRight_five (b : UInt8) : (b >>> 5).toNat = major b := by
  simp [major, UInt8.toNat_shiftRight, Nat.shiftRight_eq_div_pow]

theorem toNat_and_31 (b : UInt8) : (b &&& 0x1f).toNat = info b := by
  rw [UInt8.toNat_and, info]
  exact Nat.and_two_pow_sub_one_eq_mod b.toNat 5

theorem major_eq_iff (b : UInt8) {m : UInt8} : b >>> 5 = m ↔ major b = m.toNat := by
  rw [← toNat_shiftRight_five, UInt8.toNat_inj]

theorem info_eq_iff (b : UInt8) {ai : UInt8} : b &&& 0x1f = ai ↔ info b = ai.toNat := by
  rw [← toNat_and_31, UInt8.toNat_inj]

theorem info_lt_iff (b : UInt8) {ai : UInt8} : b &&& 0x1f < ai ↔ info b < ai.toNat := by
  rw [← toNat_and_31, UInt8.lt_iff_toNat_lt]

/-- The header alone: the initial byte and the argument it announces, if it announces one. -/
def headLength (b : UInt8) : Nat := 1 + (argLength (info b)).getD 0

/-- What the firmware takes for the payload of a string. -/
def stringLength (b : UInt8) (rest : Bytes) : Nat :=
  if info b < 24 then info b
  else if info b = 24 ∧ 1 ≤ rest.length then (rest.getD 0 0).toNat
  else if info b = 25 ∧ 2 ≤ rest.length then 256 * (rest.getD 0 0).toNat + (rest.getD 1 0).toNat
  else 0

/-- `hdr` of `cbor_item_len`. -/
def itemHeader (b : UInt8) : UInt32 :=
  if b &&& 0x1f = 24 then 2
  else if b &&& 0x1f = 25 then 3
  else if b &&& 0x1f = 26 then 5
  else if b &&& 0x1f = 27 then 9
  else 1

/-- `payload` of `cbor_item_len`. -/
def itemPayload (b : UInt8) (rest : Bytes) : UInt32 :=
  if b >>> 5 = 2 ∨ b >>> 5 = 3 then
    if b &&& 0x1f < 24 then (b &&& 0x1f).toUInt32
    else if b &&& 0x1f = 24 ∧ 1 ≤ rest.length then (rest.getD 0 0).toUInt32
    else if b &&& 0x1f = 25 ∧ 2 ≤ rest.length then
      (rest.getD 0 0).toUInt32 <<< 8 ||| (rest.getD 1 0).toUInt32
    else 0
  else 0

theorem cborItemLen_cons (b : UInt8) (rest : Bytes) :
    cborItemLen (b :: rest) = itemHeader b + itemPayload b rest := by
  simp [cborItemLen, itemHeader, itemPayload]

theorem itemHeader_toNat (b : UInt8) : (itemHeader b).toNat = headLength b := by
  have hlt : info b < 32 := Nat.mod_lt _ (by decide)
  unfold itemHeader headLength argLength
  simp only [info_eq_iff, UInt8.reduceToNat]
  by_cases h24 : info b < 24
  · rw [if_neg (by omega), if_neg (by omega), if_neg (by omega), if_neg (by omega), if_pos h24]
    rfl
  · rw [if_neg h24]
    split
    · rfl
    · split
      · rfl
      · split
        · rfl
        · split <;> rfl

theorem toNat_two_bytes (x y : UInt8) :
    (x.toUInt32 <<< 8 ||| y.toUInt32).toNat = 256 * x.toNat + y.toNat := by
  have hx := x.toNat_lt
  have hor := Nat.two_pow_add_eq_or_of_lt y.toNat_lt x.toNat
  simp only [UInt32.toNat_or, UInt32.toNat_shiftLeft, UInt8.toNat_toUInt32, Nat.shiftLeft_eq,
    UInt32.reduceToNat, Nat.reduceMod, Nat.reducePow]
  rw [Nat.mod_eq_of_lt (by omega), Nat.mul_comm]
  exact hor.symm

theorem itemPayload_toNat (b : UInt8) (rest : Bytes) :
    (itemPayload b rest).toNat =
      if major b = 2 ∨ major b = 3 then stringLength b rest else 0 := by
  unfold itemPayload stringLength
  simp only [major_eq_iff, info_eq_iff, info_lt_iff, UInt8.reduceToNat]
  split
  · split
    · rw [UInt8.toNat_toUInt32, toNat_and_31]
    · split
      · rw [UInt8.toNat_toUInt32]
      · split
        · rw [toNat_two_bytes]
        · rfl
  · rfl

theorem headLength_le (b : UInt8) : 1 ≤ headLength b ∧ headLength b ≤ 9 := by
  unfold headLength argLength
  repeat' split
  all_goals simp

theorem stringLength_lt (b : UInt8) (rest : Bytes) : stringLength b rest < 65536 := by
  have h0 := (rest.getD 0 0).toNat_lt
  have h1 := (rest.getD 1 0).toNat_lt
  unfold stringLength
  repeat' split
  all_goals omega

/-- The sum does not wrap. -/
theorem itemLen_lt (b : UInt8) (rest : Bytes) :
    (itemHeader b).toNat + (itemPayload b rest).toNat < 2 ^ 32 := by
  have hhead := headLength_le b
  have hstring := stringLength_lt b rest
  rw [itemHeader_toNat, itemPayload_toNat]
  split <;> omega

theorem cborItemLen_toNat (b : UInt8) (rest : Bytes) :
    (cborItemLen (b :: rest)).toNat =
      headLength b + if major b = 2 ∨ major b = 3 then stringLength b rest else 0 := by
  have hlt := itemLen_lt b rest
  rw [cborItemLen_cons, UInt32.toNat_add, Nat.mod_eq_of_lt hlt, itemHeader_toNat,
    itemPayload_toNat]

/-- Something is always skipped. -/
theorem cborItemLen_ne_zero (b : UInt8) (rest : Bytes) : cborItemLen (b :: rest) ≠ 0 := by
  intro h
  have hnat := cborItemLen_toNat b rest
  have hhead := headLength_le b
  rw [h] at hnat
  simp only [UInt32.toNat_zero] at hnat
  omega

theorem cborItemLen_of_not_string {b : UInt8} (rest : Bytes) (h2 : major b ≠ 2) (h3 : major b ≠ 3) :
    (cborItemLen (b :: rest)).toNat = headLength b := by
  rw [cborItemLen_toNat, if_neg (by omega)]
  omega

/-- A length of at most two bytes is read as the argument that it is. -/
theorem stringLength_eq {b : UInt8} {rest : Bytes} {k : Nat} (hk : argLength (info b) = some k)
    (hinfo : info b ≤ 25) (hrest : k ≤ rest.length) :
    stringLength b rest = argument b (rest.take k) := by
  unfold stringLength argument
  by_cases h24 : info b < 24
  · rw [if_pos h24, if_pos h24]
  · rw [if_neg h24, if_neg h24]
    rcases (by omega : info b = 24 ∨ info b = 25) with h | h
    · obtain rfl : 1 = k := by simpa [argLength, h] using hk
      cases rest with
      | nil => simp at hrest
      | cons x rest => simp [h, Cbor.bigEndian]
    · obtain rfl : 2 = k := by simpa [argLength, h] using hk
      cases rest with
      | nil => simp at hrest
      | cons x rest =>
          cases rest with
          | nil => simp at hrest
          | cons y rest => simp [h, Cbor.bigEndian]

theorem headLength_eq {b : UInt8} {k : Nat} (hk : argLength (info b) = some k) :
    headLength b = 1 + k := by
  rw [headLength, hk]
  rfl

/-- The prefix check on a payload that is no message_1. -/
theorem edhocDeframe_cons {b : UInt8} (rest : Bytes) (hb : b ≠ 0xf5) :
    edhocDeframe (some (b :: rest)) =
      if (b :: rest).length ≤ (cborItemLen (b :: rest)).toNat then .error (-EINVAL)
      else .ok (.message3 ((b :: rest).drop (cborItemLen (b :: rest)).toNat)) := by
  simp [edhocDeframe, hb, cborItemLen_ne_zero]

/-- A payload that begins with an item the firmware measures right is cut behind it. -/
theorem edhocDeframe_append {b : UInt8} {bs m : Bytes} (hb : b ≠ 0xf5) (hm : m ≠ [])
    (hlen : (cborItemLen (b :: bs ++ m)).toNat = (b :: bs).length) :
    edhocDeframe (some (b :: bs ++ m)) = .ok (.message3 m) := by
  have hpos : 0 < m.length := List.length_pos_iff.mpr hm
  rw [List.cons_append] at hlen ⊢
  rw [edhocDeframe_cons _ hb, hlen, if_neg (by simp; omega)]
  simp

/-! ### Round trip -/

/-- A C_R on the wire: the host's one byte, or a byte string in deterministic CBOR. -/
def ConnectionId.encode : ConnectionId → Bytes
  | .oneByteInteger v => [cidToCbor v.val]
  | .byteString bs => Cbor.encodeHead 2 bs.length ++ bs

/-- The host's byte is the whole head of an integer. -/
theorem cidToCbor_head (v : OneByteInt) :
    major (cidToCbor v.val) ≤ 1 ∧ info (cidToCbor v.val) < 24 := by
  obtain ⟨v, hlo, hhi⟩ := v
  dsimp only
  unfold cidToCbor major info
  split <;> rw [UInt8.toNat_ofNat'] <;> omega

theorem cborItemLen_cid (v : OneByteInt) (m : Bytes) :
    (cborItemLen (cidToCbor v.val :: m)).toNat = 1 := by
  obtain ⟨hmajor, hinfo⟩ := cidToCbor_head v
  rw [cborItemLen_of_not_string m (by omega) (by omega), headLength, argLength, if_pos hinfo]
  rfl

/-- A byte string whose length has at most two bytes is measured whole. -/
theorem cborItemLen_bytes {b : UInt8} {bs rest : Bytes} (hmajor : major b = 2)
    (hinfo : info b ≤ 25) (hstring : DefiniteString 2 (b :: bs)) :
    (cborItemLen (b :: bs ++ rest)).toNat = (b :: bs).length := by
  obtain ⟨k, hk, hlen⟩ := hstring.length_eq
  have htake : (bs ++ rest).take k = bs.take k := List.take_append_of_le_length (by omega)
  rw [List.cons_append, cborItemLen_toNat, if_pos (.inl hmajor), headLength_eq hk,
    stringLength_eq hk hinfo (by rw [List.length_append]; omega), htake, List.length_cons]
  omega

/-- The head of an integer or a byte string is not CBOR `true`. -/
theorem ne_true_of_major {b : UInt8} (h : major b ≤ 2) : b ≠ 0xf5 := by
  rintro rfl
  exact absurd h (by decide)

/-- A byte string as C_R is measured right, up to the longest payload there is. -/
theorem cborItemLen_byteString (bs m : Bytes) (hlen : bs.length < 256 ^ 2) :
    ∃ b hs, Cbor.encodeHead 2 bs.length ++ bs = b :: hs ∧ b ≠ 0xf5 ∧
      (cborItemLen (b :: hs ++ m)).toNat = (b :: hs).length := by
  have hhead : Cbor.Head 2 bs.length (Cbor.encodeHead 2 bs.length) :=
    Cbor.encodeHead_head (by decide) (by omega)
  have hshort := Cbor.length_encodeHead_le (m := 2) hlen
  have hstring : DefiniteString 2 (Cbor.encodeHead 2 bs.length ++ bs) := .mk hhead rfl
  obtain ⟨b, as, heq, hmajor, -, hk⟩ := hhead.cons
  rw [heq] at hshort hstring ⊢
  rw [List.length_cons] at hshort
  have hinfo : info b ≤ 25 := Cbor.argLength_le_two hk (by omega)
  exact ⟨b, as ++ bs, rfl, ne_true_of_major (by omega), cborItemLen_bytes hmajor hinfo hstring⟩

/--
**Deframing undoes framing.**  A message behind 0xf5 comes out as that message_1;
a message behind any C_R, an integer as the host encodes it or a byte string of
any length that fits a payload, comes out as that message_3, with `cbor_item_len`
measuring exactly the C_R.
-/
theorem framing_round_trip (m : Bytes) (hm : m ≠ []) :
    edhocDeframe (some (0xf5 :: m)) = .ok (.message1 m) ∧
    ∀ cr : ConnectionId, (cr.encode ++ m).length ≤ 65535 →
      (cborItemLen (cr.encode ++ m)).toNat = cr.encode.length ∧
      edhocDeframe (some (cr.encode ++ m)) = .ok (.message3 m) := by
  refine ⟨by simp [edhocDeframe], ?_⟩
  intro cr hlen
  cases cr with
  | oneByteInteger v =>
      have hskip := cborItemLen_cid v m
      obtain ⟨hmajor, -⟩ := cidToCbor_head v
      exact ⟨hskip, edhocDeframe_append (ne_true_of_major (by omega)) hm hskip⟩
  | byteString bs =>
      simp only [ConnectionId.encode, List.length_append] at hlen ⊢
      obtain ⟨b, hs, heq, hb, hskip⟩ := cborItemLen_byteString bs m (by omega)
      rw [← List.length_append, heq]
      exact ⟨hskip, edhocDeframe_append hb hm hskip⟩

/-- A C_R of 24 bytes, the first that needs a length byte of its own. -/
theorem framing_round_trip_at_24 :
    edhocDeframe (some (Cbor.encodeHead 2 24 ++ List.replicate 24 7 ++ [3]))
      = .ok (.message3 [3]) :=
  ((framing_round_trip [3] (by decide)).2 (.byteString (List.replicate 24 7)) (by decide)).2

/-! ### What is accepted -/

/--
What deframing owes a payload that is no message_1: it is rejected, or what is cut
off in front is exactly one well-formed item, an integer or a byte string of
definite length.
-/
def DeframesWhole (p : Bytes) : Prop :=
  edhocDeframe (some p) = .error (-EINVAL) ∨
    ∃ b bs msg, p = b :: bs ++ msg ∧ WellFormed (b :: bs) ∧ major b ≤ 2 ∧ info b ≤ 27 ∧
      edhocDeframe (some p) = .ok (.message3 msg)

/--
The payloads whose first byte `cbor_item_len` knows what to do with, or whose
length saves it.  An integer; a byte string with a length of at most two bytes, or a
longer length field that is zero; a payload that does not go beyond the header;
a text string that reaches to the end of the payload.
-/
def MeasuredRight (b : UInt8) (rest : Bytes) : Prop :=
  (major b ≤ 1 ∧ info b ≤ 27) ∨
  (major b = 2 ∧ info b ≤ 25) ∨
  (major b = 2 ∧ info b ≤ 27 ∧ argument b (rest.take (headLength b - 1)) = 0) ∨
  rest.length < headLength b ∨
  (major b = 3 ∧ info b ≤ 25 ∧
    rest.length < headLength b + argument b (rest.take (headLength b - 1)))

instance (b : UInt8) (rest : Bytes) : Decidable (MeasuredRight b rest) :=
  inferInstanceAs (Decidable (_ ∨ _))

theorem argLength_isSome {ai : Nat} (h : ai ≤ 27) : ∃ k, argLength ai = some k := by
  unfold argLength
  repeat' split
  all_goals first | exact ⟨_, rfl⟩ | omega

theorem info_le_of_argLength {ai k : Nat} (h : argLength ai = some k) : ai ≤ 27 := by
  by_contra hc
  rw [argLength, if_neg (by omega), if_neg (by omega), if_neg (by omega), if_neg (by omega),
    if_neg (by omega)] at h
  simp at h

theorem stringLength_of_long {b : UInt8} (rest : Bytes) (h : 26 ≤ info b) :
    stringLength b rest = 0 := by
  unfold stringLength
  rw [if_neg (by omega), if_neg (by omega), if_neg (by omega)]

/-- An accepted byte string whose length is what the firmware takes it for is cut whole. -/
theorem deframesWhole_of_bytes {b : UInt8} {rest : Bytes} {k : Nat} (hmajor : major b = 2)
    (hk : argLength (info b) = some k) (hskip : (cborItemLen (b :: rest)).toNat ≤ rest.length)
    (hlen : stringLength b rest = argument b (rest.take k)) : DeframesWhole (b :: rest) := by
  have hnat := cborItemLen_toNat b rest
  rw [if_pos (.inl hmajor), headLength_eq hk, hlen] at hnat
  have hdeframe := edhocDeframe_cons rest (ne_true_of_major (by omega : major b ≤ 2))
  rw [if_neg (by rw [List.length_cons]; omega)] at hdeframe
  refine .inr ⟨b, rest.take (k + argument b (rest.take k)), _, ?_, ?_, by omega,
    info_le_of_argLength hk, hdeframe⟩
  · rw [hnat, List.cons_append, show 1 + k + argument b (rest.take k)
      = (k + argument b (rest.take k)) + 1 by omega, List.drop_succ_cons, List.take_append_drop]
  · have htake : (rest.take (k + argument b (rest.take k))).take k = rest.take k := by
      rw [List.take_take, Nat.min_eq_left (by omega)]
    refine .string (m := 2) (.inl rfl) (hmajor ▸ DefiniteString.of_length_eq hk ?_)
    rw [htake, List.length_take]
    omega

theorem deframesWhole_of_integer {b : UInt8} {rest : Bytes} (hmajor : major b ≤ 1)
    (hinfo : info b ≤ 27) (hskip : (cborItemLen (b :: rest)).toNat ≤ rest.length) :
    DeframesWhole (b :: rest) := by
  obtain ⟨k, hk⟩ := argLength_isSome hinfo
  have hnat := cborItemLen_of_not_string rest (by omega : major b ≠ 2) (by omega)
  rw [headLength_eq hk] at hnat
  have hdeframe := edhocDeframe_cons rest (ne_true_of_major (by omega : major b ≤ 2))
  rw [if_neg (by rw [List.length_cons]; omega)] at hdeframe
  refine .inr ⟨b, rest.take k, _, ?_, ?_, by omega, hinfo, hdeframe⟩
  · rw [hnat, List.cons_append, Nat.add_comm, List.drop_succ_cons, List.take_append_drop]
  · have hhead := Cbor.Head.mk b (rest.take k) (by rw [hk, List.length_take]; congr 1; omega)
    exact .integer (by omega) hhead

/-- A payload that is measured right is cut right. -/
theorem deframesWhole_of_measured {b : UInt8} {rest : Bytes} (hb : b ≠ 0xf5)
    (h : MeasuredRight b rest) : DeframesWhole (b :: rest) := by
  by_cases hlong : (b :: rest).length ≤ (cborItemLen (b :: rest)).toNat
  · left
    rw [edhocDeframe_cons rest hb, if_pos hlong]
  · have hskip : (cborItemLen (b :: rest)).toNat ≤ rest.length := by
      rw [List.length_cons] at hlong
      omega
    have hnat := cborItemLen_toNat b rest
    rcases h with ⟨hmajor, hinfo⟩ | ⟨hmajor, hinfo⟩ | ⟨hmajor, hinfo, hzero⟩ | hshort |
      ⟨hmajor, hinfo, hshort⟩
    · exact deframesWhole_of_integer hmajor hinfo hskip
    · obtain ⟨k, hk⟩ := argLength_isSome (by omega : info b ≤ 27)
      have hhead := headLength_eq hk
      exact deframesWhole_of_bytes hmajor hk hskip (stringLength_eq hk hinfo (by omega))
    · obtain ⟨k, hk⟩ := argLength_isSome hinfo
      rw [headLength_eq hk, Nat.add_sub_cancel_left] at hzero
      by_cases h25 : info b ≤ 25
      · have hhead := headLength_eq hk
        exact deframesWhole_of_bytes hmajor hk hskip (stringLength_eq hk h25 (by omega))
      · exact deframesWhole_of_bytes hmajor hk hskip
          ((stringLength_of_long rest (by omega)).trans hzero.symm)
    · omega
    · obtain ⟨k, hk⟩ := argLength_isSome (by omega : info b ≤ 27)
      have hhead := headLength_eq hk
      rw [if_pos (.inr hmajor)] at hnat
      rw [hhead, Nat.add_sub_cancel_left] at hshort
      rw [stringLength_eq hk hinfo (by omega)] at hnat
      omega

/-- A payload that is rejected was measured right, or is not longer than its header says. -/
theorem measured_of_rejected {b : UInt8} {rest : Bytes}
    (hlong : rest.length < (cborItemLen (b :: rest)).toNat) : MeasuredRight b rest := by
  have hnat := cborItemLen_toNat b rest
  by_cases hhead : rest.length < headLength b
  · exact .inr (.inr (.inr (.inl hhead)))
  · by_cases h25 : info b ≤ 25
    · obtain ⟨k, hk⟩ := argLength_isSome (by omega : info b ≤ 27)
      have hlen := headLength_eq hk
      have hstring : stringLength b rest = argument b (rest.take k) :=
        stringLength_eq hk h25 (by omega)
      by_cases hstr : major b = 2 ∨ major b = 3
      · rw [if_pos hstr, hstring] at hnat
        rcases hstr with h2 | h3
        · exact .inr (.inl ⟨h2, h25⟩)
        · refine .inr (.inr (.inr (.inr ⟨h3, h25, ?_⟩)))
          rw [hlen, Nat.add_sub_cancel_left]
          omega
      · rw [if_neg hstr] at hnat
        omega
    · rw [stringLength_of_long rest (by omega)] at hnat
      split at hnat <;> omega

/-- An item that was cut off whole was measured right. -/
theorem measured_of_item {b : UInt8} {bs msg : Bytes} (hwf : WellFormed (b :: bs))
    (hmajor : major b ≤ 2) (hinfo : info b ≤ 27)
    (hskip : (cborItemLen (b :: (bs ++ msg))).toNat = bs.length + 1) :
    MeasuredRight b (bs ++ msg) := by
  have hnat := cborItemLen_toNat b (bs ++ msg)
  rcases hwf.inv hmajor with ⟨hint, -⟩ | ⟨hbytes, hstring⟩ | ⟨-, hindef, -⟩
  · exact .inl ⟨hint, hinfo⟩
  · obtain ⟨k, hk, hlen⟩ := hstring.length_eq
    by_cases h25 : info b ≤ 25
    · exact .inr (.inl ⟨hbytes, h25⟩)
    · -- only the header was skipped, so the string is empty
      refine .inr (.inr (.inl ⟨hbytes, hinfo, ?_⟩))
      rw [if_pos (.inl hbytes), stringLength_of_long _ (by omega), headLength_eq hk] at hnat
      rw [headLength_eq hk, Nat.add_sub_cancel_left, List.take_append_of_le_length (by omega)]
      omega
  · omega

theorem measured_of_deframesWhole {b : UInt8} {rest : Bytes} (hb : b ≠ 0xf5)
    (h : DeframesWhole (b :: rest)) : MeasuredRight b rest := by
  have hdeframe := edhocDeframe_cons rest hb
  rcases h with hreject | ⟨b', bs, msg, heq, hwf, hmajor, hinfo, haccept⟩
  · refine measured_of_rejected ?_
    rw [hdeframe] at hreject
    split at hreject
    · rename_i h
      rw [List.length_cons] at h
      omega
    · simp at hreject
  · rw [List.cons_append] at heq
    obtain ⟨rfl, rfl⟩ := List.cons.inj heq
    rw [hdeframe] at haccept
    split at haccept
    · simp at haccept
    · rename_i hshort
      have hdrop := Framed.message3.inj (Except.ok.inj haccept)
      have hlen := congrArg List.length hdrop
      rw [List.length_drop, List.length_cons, List.length_append] at hlen
      rw [List.length_cons, List.length_append] at hshort
      exact measured_of_item hwf hmajor hinfo (by omega)

/--
**What deframing accepts.**  A payload that is no message_1 is rejected or cut
behind one whole integer or byte string, exactly when its first byte and length are
among those `cbor_item_len` measures right.
-/
theorem deframesWhole_iff (b : UInt8) (rest : Bytes) (hb : b ≠ 0xf5) :
    DeframesWhole (b :: rest) ↔ MeasuredRight b rest :=
  ⟨measured_of_deframesWhole hb, deframesWhole_of_measured hb⟩

/-- A C_R of two bytes in front of a message. -/
theorem deframesWhole_of_two_bytes : DeframesWhole [0x42, 1, 2, 3] :=
  (deframesWhole_iff 0x42 [1, 2, 3] (by decide)).mpr (by decide)

/--
A byte string with a four-byte length is cut behind its header, so that its content
is taken for the message; an array is cut behind its first byte.
-/
theorem splits_items :
    edhocDeframe (some [0x5a, 0, 0, 0, 1, 0xaa, 3]) = .ok (.message3 [0xaa, 3]) ∧
      ¬ DeframesWhole [0x5a, 0, 0, 0, 1, 0xaa, 3] ∧
      edhocDeframe (some [0x81, 1, 3]) = .ok (.message3 [1, 3]) ∧ ¬ DeframesWhole [0x81, 1, 3] := by
  refine ⟨rfl, fun h => ?_, rfl, fun h => ?_⟩
  · exact absurd (measured_of_deframesWhole (by decide) h) (by decide)
  · exact absurd (measured_of_deframesWhole (by decide) h) (by decide)

end UsbNcmNet
