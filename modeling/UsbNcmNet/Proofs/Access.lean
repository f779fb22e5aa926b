/-
Whether the EDHOC request path stays inside the payload.

The message_3 branch checks that something is left behind the C_R before it goes
on; the message_1 branch strips its one byte and goes on regardless.  A payload
that is 0xf5 and nothing else therefore reaches the log line, and the engine, with
a message of no bytes that begins where the payload ends.  It is the only such
payload.
-/
import UsbNcmNet.Edhoc.Access
import UsbNcmNet.Proofs.Framing

namespace UsbNcmNet

variable {α β : Type}

/-! ### Running a traced computation -/

@[simp] theorem Traced.exec_pure (a : α) (t : List Access) : Traced.exec (pure a) t = (a, t) := rfl

@[simp] theorem Traced.exec_bind (m : Traced α) (f : α → Traced β) (t : List Access) :
    Traced.exec (m >>= f) t = (f (m.exec t).1).exec (m.exec t).2 := rfl

@[simp] theorem Traced.exec_map (f : α → β) (m : Traced α) (t : List Access) :
    Traced.exec (f <$> m) t = (f (m.exec t).1, (m.exec t).2) := rfl

@[simp] theorem Traced.exec_load (p : Bytes) (i : Nat) (t : List Access) :
    (load p i).exec t = (p.getD i 0, t ++ [.load i]) := rfl

@[simp] theorem Traced.exec_add32 (x y : UInt32) (t : List Access) :
    (add32 x y).exec t = (x + y, t ++ [.add x y]) := rfl

@[simp] theorem Traced.exec_sub32 (x y : UInt32) (t : List Access) :
    (sub32 x y).exec t = (x - y, t ++ [.sub x y]) := rfl

@[simp] theorem Traced.exec_ite (c : Prop) [Decidable c] (m n : Traced α) (t : List Access) :
    Traced.exec (if c then m else n) t = if c then m.exec t else n.exec t := by
  split <;> rfl

/-! ### Measuring the C_R -/

/-- The promoted `uint16_t` is the length, for every payload a datagram can carry. -/
theorem payloadLen_toNat {n : Nat} (h : n ≤ 65535) : (UInt16.ofNat n).toUInt32.toNat = n := by
  rw [UInt16.toNat_toUInt32, UInt16.toNat_ofNat']
  omega

theorem cborItemLenTraced_exec {b : UInt8} {rest : Bytes} {len : UInt32} (t : List Access)
    (hlen : len.toNat = rest.length + 1) :
    ∃ loads, (∀ a ∈ loads, a.Fine (rest.length + 1)) ∧
      (cborItemLenTraced (b :: rest) len).exec t
        = (cborItemLen (b :: rest),
            t ++ (loads ++ [.add (itemHeader b) (itemPayload b rest)])) := by
  have hne : len ≠ 0 := by
    rintro rfl
    simp at hlen
  have h2 : 2 ≤ len ↔ 1 ≤ rest.length := by
    rw [UInt32.le_iff_toNat_le, hlen]
    simp
  have h3 : 3 ≤ len ↔ 2 ≤ rest.length := by
    rw [UInt32.le_iff_toNat_le, hlen]
    simp
  rw [cborItemLen_cons]
  unfold cborItemLenTraced itemPayload
  rw [if_neg hne]
  by_cases hstr : b >>> 5 = 2 ∨ b >>> 5 = 3
  · by_cases h24 : b &&& 0x1f < 24
    · refine ⟨[.load 0, .load 0], by simp [Access.Fine], ?_⟩
      simp [hstr, h24, itemHeader]
    · by_cases hone : b &&& 0x1f = 24 ∧ 1 ≤ rest.length
      · refine ⟨[.load 0, .load 0, .load 1], by simp [Access.Fine]; omega, ?_⟩
        simp [hstr, h2, hone, itemHeader]
      · by_cases htwo : b &&& 0x1f = 25 ∧ 2 ≤ rest.length
        · refine ⟨[.load 0, .load 0, .load 1, .load 2], by simp [Access.Fine]; omega, ?_⟩
          cases rest with
          | nil => simp at htwo
          | cons x rest =>
              cases rest with
              | nil => simp at htwo
              | cons y rest => simp [hstr, h2, h3, htwo.1, itemHeader]
        · refine ⟨[.load 0, .load 0], by simp [Access.Fine], ?_⟩
          simp [hstr, h24, h2, h3, hone, htwo, itemHeader]
  · refine ⟨[.load 0, .load 0], by simp [Access.Fine], ?_⟩
    simp [hstr, itemHeader]

/-! ### The head of the handler -/

/-- The log line's load of the first byte of the message. -/
def logLoad (logEnabled : Bool) (off : UInt32) : List Access :=
  if logEnabled then [.load off.toNat] else []

/-- The message_1 branch: one byte is stripped, and nothing is asked of what is left. -/
theorem edhocLocate_message1 (logEnabled : Bool) {rest : Bytes} {len : UInt32}
    (hlen : len.toNat = rest.length + 1) :
    (edhocLocate logEnabled (0xf5 :: rest) len).exec []
      = (.ok ⟨true, 1, len - 1⟩, [.load 0, .sub len 1] ++ logLoad logEnabled 1) := by
  have hne : len ≠ 0 := by
    rintro rfl
    simp at hlen
  cases logEnabled <;> simp [edhocLocate, hne, logLoad]

/-- The message_3 branch: what is measured is compared with what there is. -/
theorem edhocLocate_message3 (logEnabled : Bool) {b : UInt8} {rest : Bytes} {len : UInt32}
    (hb : b ≠ 0xf5) (hlen : len.toNat = rest.length + 1) :
    ∃ loads, (∀ a ∈ loads, a.Fine (rest.length + 1)) ∧
      (edhocLocate logEnabled (b :: rest) len).exec [] =
        if len ≤ cborItemLen (b :: rest) then (.error (-EINVAL), loads)
        else (.ok ⟨false, cborItemLen (b :: rest), len - cborItemLen (b :: rest)⟩,
          loads ++ ([.sub len (cborItemLen (b :: rest))]
            ++ logLoad logEnabled (cborItemLen (b :: rest)))) := by
  have hne : len ≠ 0 := by
    rintro rfl
    simp at hlen
  obtain ⟨loads, hloads, hrun⟩ := cborItemLenTraced_exec (b := b) [.load 0] hlen
  refine ⟨.load 0 :: (loads ++ [.add (itemHeader b) (itemPayload b rest)]), ?_, ?_⟩
  · intro a ha
    rcases List.mem_cons.mp ha with rfl | ha
    · simp [Access.Fine]
    · rcases List.mem_append.mp ha with ha | ha
      · exact hloads a ha
      · obtain rfl := List.mem_singleton.mp ha
        exact itemLen_lt b rest
  · by_cases hle : len ≤ cborItemLen (b :: rest) <;> cases logEnabled <;>
      simp [edhocLocate, hne, hb, hrun, cborItemLen_ne_zero, hle, logLoad]

/-- **The traced handler computes what `edhocDeframe` does**, on every payload of a datagram. -/
theorem edhocPostHead_framed (logEnabled : Bool) {p : Bytes} (hlen : p.length ≤ 65535) :
    ((edhocPostHead logEnabled (some p)).exec []).1.map (Located.framed p)
      = edhocDeframe (some p) := by
  have hnat := payloadLen_toNat hlen
  unfold edhocPostHead
  dsimp only
  generalize (UInt16.ofNat p.length).toUInt32 = len at hnat
  cases p with
  | nil =>
      obtain rfl : len = 0 := UInt32.toNat_inj.mp hnat
      rfl
  | cons b rest =>
      by_cases hb : b = 0xf5
      · subst hb
        rw [edhocLocate_message1 logEnabled hnat]
        simp [Except.map, Located.framed, edhocDeframe]
      · obtain ⟨loads, -, hrun⟩ := edhocLocate_message3 logEnabled hb hnat
        rw [hrun, edhocDeframe_cons rest hb]
        have hle : len ≤ cborItemLen (b :: rest) ↔
            (b :: rest).length ≤ (cborItemLen (b :: rest)).toNat := by
          rw [UInt32.le_iff_toNat_le, hnat]
        by_cases h : len ≤ cborItemLen (b :: rest)
        · rw [if_pos h, if_pos (hle.mp h)]
          rfl
        · rw [if_neg h, if_neg (mt hle.mpr h)]
          simp [Except.map, Located.framed]

/-! ### Inside the payload -/

/--
Every load is inside the payload and nothing wraps; and a message that is handed on
has at least one byte and ends where the payload does.
-/
def StaysInside (logEnabled : Bool) (p : Bytes) : Prop :=
  (∀ a ∈ ((edhocPostHead logEnabled (some p)).exec []).2, a.Fine p.length) ∧
    ∀ msg, ((edhocPostHead logEnabled (some p)).exec []).1 = .ok msg →
      1 ≤ msg.len.toNat ∧ msg.off.toNat + msg.len.toNat = p.length

/-- The log line loads the first byte of the message. -/
theorem logLoad_fine {logEnabled : Bool} {off : UInt32} {n : Nat} (h : off.toNat < n) :
    ∀ a ∈ logLoad logEnabled off, a.Fine n := by
  unfold logLoad
  split
  · simpa [Access.Fine] using h
  · simp

theorem staysInside_message1 (logEnabled : Bool) {rest : Bytes} (hne : rest ≠ [])
    (hlen : (0xf5 :: rest).length ≤ 65535) : StaysInside logEnabled (0xf5 :: rest) := by
  have hpos : 0 < rest.length := List.length_pos_iff.mpr hne
  have hnat := payloadLen_toNat hlen
  unfold StaysInside edhocPostHead
  dsimp only
  generalize (UInt16.ofNat (0xf5 :: rest).length).toUInt32 = len at hnat
  rw [List.length_cons] at hnat ⊢
  have hle : 1 ≤ len := by
    rw [UInt32.le_iff_toNat_le, hnat]
    simp
  rw [edhocLocate_message1 logEnabled hnat]
  constructor
  · intro a ha
    rcases List.mem_append.mp ha with ha | ha
    · rcases List.mem_cons.mp ha with rfl | ha
      · simp [Access.Fine]
      · obtain rfl := List.mem_singleton.mp ha
        exact hle
    · exact logLoad_fine (by simp; omega) a ha
  · intro msg hmsg
    obtain rfl := Except.ok.inj hmsg
    rw [UInt32.toNat_sub_of_le _ _ hle, hnat]
    simp
    omega

theorem staysInside_message3 (logEnabled : Bool) {b : UInt8} {rest : Bytes} (hb : b ≠ 0xf5)
    (hlen : (b :: rest).length ≤ 65535) : StaysInside logEnabled (b :: rest) := by
  have hnat := payloadLen_toNat hlen
  unfold StaysInside edhocPostHead
  dsimp only
  generalize (UInt16.ofNat (b :: rest).length).toUInt32 = len at hnat
  rw [List.length_cons] at hnat ⊢
  obtain ⟨loads, hloads, hrun⟩ := edhocLocate_message3 logEnabled hb hnat
  rw [hrun]
  by_cases h : len ≤ cborItemLen (b :: rest)
  · rw [if_pos h]
    exact ⟨hloads, by simp⟩
  · have hlt : cborItemLen (b :: rest) < len := UInt32.not_le.mp h
    have hlt' : (cborItemLen (b :: rest)).toNat < rest.length + 1 := by
      rw [← hnat]
      exact UInt32.lt_iff_toNat_lt.mp hlt
    rw [if_neg h]
    constructor
    · intro a ha
      rcases List.mem_append.mp ha with ha | ha
      · exact hloads a ha
      · rcases List.mem_cons.mp ha with rfl | ha
        · exact UInt32.le_of_lt hlt
        · exact logLoad_fine hlt' a ha
    · intro msg hmsg
      obtain rfl := Except.ok.inj hmsg
      rw [UInt32.toNat_sub_of_le _ _ (UInt32.le_of_lt hlt), hnat]
      dsimp only
      omega

/-- 0xf5 and nothing else: the message is empty, and the log line loads what is behind it. -/
theorem not_staysInside_bare (logEnabled : Bool) : ¬ StaysInside logEnabled [0xf5] := by
  rintro ⟨-, h⟩
  have hnat : (1 : UInt32).toNat = ([] : Bytes).length + 1 := rfl
  have hrun := edhocLocate_message1 logEnabled hnat
  have := (h ⟨true, 1, 0⟩ (congrArg Prod.fst hrun)).1
  simp at this

/--
**The request path stays inside the payload, except for a bare 0xf5.**  With or
without logging, for every payload a datagram can carry.
-/
theorem staysInside_iff (logEnabled : Bool) (p : Bytes) (hne : 1 ≤ p.length)
    (hlen : p.length ≤ 65535) : StaysInside logEnabled p ↔ p ≠ [0xf5] := by
  constructor
  · rintro h rfl
    exact not_staysInside_bare logEnabled h
  · intro hbare
    cases p with
    | nil => simp at hne
    | cons b rest =>
        by_cases hb : b = 0xf5
        · subst hb
          exact staysInside_message1 logEnabled (fun h => hbare (by rw [h])) hlen
        · exact staysInside_message3 logEnabled hb hlen

theorem staysInside_shortest : StaysInside true [0xf5, 1] :=
  (staysInside_iff true [0xf5, 1] (by decide) (by decide)).mpr (by decide)

/-- A bare 0xf5 goes on with an empty message, and the log line loads the byte after the payload. -/
theorem bare_true_leaves_payload :
    (edhocPostHead true (some [0xf5])).exec []
        = (.ok ⟨true, 1, 0⟩, [.load 0, .sub 1 1, .load 1]) ∧
      ¬ StaysInside true [0xf5] :=
  ⟨rfl, not_staysInside_bare true⟩

end UsbNcmNet
