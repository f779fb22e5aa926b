/-
CBOR data items as byte strings (RFC 8949).

An item begins with a head: an initial byte, whose upper three bits are the major
type and whose lower five the additional information, and the bytes of the
argument that the additional information announces.  `WellFormed` is the grammar
of section 3, with every major type and the indefinite-length forms; it says
nothing about validity, so a text string may hold any bytes.

`encodeHead` writes the shortest head for an argument, which is what deterministic
encoding asks for.
-/
import Mathlib.Algebra.Group.Nat.Defs
import Mathlib.Tactic.Common

namespace Cbor

abbrev Bytes := List UInt8

/-! ### Heads -/

def major (b : UInt8) : Nat := b.toNat / 32

def info (b : UInt8) : Nat := b.toNat % 32

/-- How many bytes of argument follow the initial byte; 28 to 31 announce none. -/
def argLength (ai : Nat) : Option Nat :=
  if ai < 24 then some 0
  else if ai = 24 then some 1
  else if ai = 25 then some 2
  else if ai = 26 then some 4
  else if ai = 27 then some 8
  else none

theorem argLength_le_two {ai k : Nat} (h : argLength ai = some k) (hk : k ≤ 2) : ai ≤ 25 := by
  unfold argLength at h
  repeat' split at h
  all_goals simp at h
  all_goals omega

def bigEndian (bs : Bytes) : Nat := bs.foldl (fun n b => 256 * n + b.toNat) 0

/-- The argument of a head: the additional information itself, or the bytes after it. -/
def argument (b : UInt8) (bs : Bytes) : Nat := if info b < 24 then info b else bigEndian bs

/-- A complete head, with its major type and argument. -/
inductive Head : Nat → Nat → Bytes → Prop
  | mk (b : UInt8) (bs : Bytes) (h : argLength (info b) = some bs.length) :
      Head (major b) (argument b bs) (b :: bs)

/-- A string of definite length. -/
inductive DefiniteString (m : Nat) : Bytes → Prop
  | mk {n : Nat} {h s : Bytes} (hhead : Head m n h) (hlen : s.length = n) :
      DefiniteString m (h ++ s)

/-- The break that ends an item of indefinite length. -/
def breakByte : UInt8 := 0xff

/-! ### Items -/

/-- The byte string is exactly one well-formed data item. -/
inductive WellFormed : Bytes → Prop
  | integer {m n : Nat} {h : Bytes} (hm : m = 0 ∨ m = 1) (hhead : Head m n h) : WellFormed h
  | string {m : Nat} {i : Bytes} (hm : m = 2 ∨ m = 3) (hstring : DefiniteString m i) :
      WellFormed i
  | array {n : Nat} {h : Bytes} {items : List Bytes} (hhead : Head 4 n h)
      (hlen : items.length = n) (hitems : ∀ i ∈ items, WellFormed i) :
      WellFormed (h ++ items.flatten)
  | map {n : Nat} {h : Bytes} {items : List Bytes} (hhead : Head 5 n h)
      (hlen : items.length = 2 * n) (hitems : ∀ i ∈ items, WellFormed i) :
      WellFormed (h ++ items.flatten)
  | tag {n : Nat} {h i : Bytes} (hhead : Head 6 n h) (hitem : WellFormed i) :
      WellFormed (h ++ i)
  /-- Simple values and floats; a simple value below 32 has no two-byte form. -/
  | simple {n : Nat} {h : Bytes} (hhead : Head 7 n h) (hform : h.length = 2 → 32 ≤ n) :
      WellFormed h
  | chunks {m : Nat} {b : UInt8} {parts : List Bytes} (hm : m = 2 ∨ m = 3) (hmajor : major b = m)
      (hinfo : info b = 31) (hparts : ∀ c ∈ parts, DefiniteString m c) :
      WellFormed (b :: (parts.flatten ++ [breakByte]))
  | openArray {b : UInt8} {items : List Bytes} (hmajor : major b = 4) (hinfo : info b = 31)
      (hitems : ∀ i ∈ items, WellFormed i) : WellFormed (b :: (items.flatten ++ [breakByte]))
  | openMap {b : UInt8} {items : List Bytes} (hmajor : major b = 5) (hinfo : info b = 31)
      (hpairs : items.length % 2 = 0) (hitems : ∀ i ∈ items, WellFormed i) :
      WellFormed (b :: (items.flatten ++ [breakByte]))

theorem Head.cons {m n : Nat} {h : Bytes} (hhead : Head m n h) :
    ∃ b bs, h = b :: bs ∧ major b = m ∧ argument b bs = n ∧
      argLength (info b) = some bs.length := by
  cases hhead with
  | mk b bs hlen => exact ⟨b, bs, rfl, rfl, rfl, hlen⟩

/-- The initial byte of an item gives the major type of its head away. -/
private theorem Head.major_eq {m n : Nat} {h r rest : Bytes} {b : UInt8} (hhead : Head m n h)
    (heq : h ++ r = b :: rest) : major b = m := by
  obtain ⟨b', bs, rfl, hmajor, -, -⟩ := hhead.cons
  obtain ⟨rfl, -⟩ := List.cons.inj heq
  exact hmajor

/-- What an item whose initial byte is that of an integer or a byte string can be. -/
theorem WellFormed.inv {b : UInt8} {rest : Bytes} (h : WellFormed (b :: rest))
    (hmajor : major b ≤ 2) :
    (major b ≤ 1 ∧ argLength (info b) = some rest.length) ∨
      (major b = 2 ∧ DefiniteString 2 (b :: rest)) ∨
      (major b = 2 ∧ info b = 31 ∧ rest ≠ []) := by
  generalize hi : b :: rest = i at h
  have hcontra : ∀ {m n h r}, Head m n h → b :: rest = h ++ r → 3 ≤ m → False := by
    intro m n h r hhead heq hm
    have := hhead.major_eq heq.symm
    omega
  cases h with
  | integer hm hhead =>
      obtain ⟨b', bs, rfl, hmajor', -, hlen⟩ := hhead.cons
      obtain ⟨rfl, rfl⟩ := List.cons.inj hi
      exact .inl ⟨by omega, hlen⟩
  | @string m _ hm hstring =>
      cases hstring with
      | mk hhead hlen =>
          have heq := hhead.major_eq hi.symm
          obtain rfl : m = 2 := by omega
          exact .inr (.inl ⟨heq, hi ▸ .mk hhead hlen⟩)
  | array hhead _ _ => exact (hcontra hhead hi (by omega)).elim
  | map hhead _ _ => exact (hcontra hhead hi (by omega)).elim
  | tag hhead _ => exact (hcontra hhead hi (by omega)).elim
  | simple hhead _ => exact (hcontra hhead (hi.trans (List.append_nil _).symm) (by omega)).elim
  | chunks hm hmajor' hinfo _ =>
      obtain ⟨rfl, rfl⟩ := List.cons.inj hi
      exact .inr (.inr ⟨by omega, hinfo, by simp⟩)
  | openArray hmajor' _ _ =>
      obtain ⟨rfl, -⟩ := List.cons.inj hi
      omega
  | openMap hmajor' _ _ _ =>
      obtain ⟨rfl, -⟩ := List.cons.inj hi
      omega

/-- A string of definite length, byte by byte: the head, then as many bytes as it says. -/
theorem DefiniteString.length_eq {m : Nat} {b : UInt8} {rest : Bytes}
    (h : DefiniteString m (b :: rest)) :
    ∃ k, argLength (info b) = some k ∧ rest.length = k + argument b (rest.take k) := by
  generalize hi : b :: rest = i at h
  cases h with
  | @mk n h s hhead hlen =>
      obtain ⟨b', bs, rfl, -, harg, hk⟩ := hhead.cons
      obtain ⟨rfl, rfl⟩ := List.cons.inj hi
      exact ⟨bs.length, hk, by simp [harg, hlen]⟩

/-- And put together again. -/
theorem DefiniteString.of_length_eq {b : UInt8} {rest : Bytes} {k : Nat}
    (hk : argLength (info b) = some k) (hlen : rest.length = k + argument b (rest.take k)) :
    DefiniteString (major b) (b :: rest) := by
  have htake : (rest.take k).length = k := by
    rw [List.length_take]
    omega
  have hhead : Head (major b) (argument b (rest.take k)) (b :: rest.take k) :=
    .mk b (rest.take k) (by rw [htake]; exact hk)
  have hstring := DefiniteString.mk (s := rest.drop k) hhead (by rw [List.length_drop]; omega)
  simpa using hstring

/-! ### Deterministic heads -/

def toBigEndian : Nat → Nat → Bytes
  | 0, _ => []
  | k + 1, n => toBigEndian k (n / 256) ++ [UInt8.ofNat n]

@[simp] theorem length_toBigEndian (k n : Nat) : (toBigEndian k n).length = k := by
  induction k generalizing n with
  | zero => rfl
  | succ k ih => simp [toBigEndian, ih]

theorem bigEndian_toBigEndian {k n : Nat} (h : n < 256 ^ k) : bigEndian (toBigEndian k n) = n := by
  induction k generalizing n with
  | zero =>
      simp only [Nat.pow_zero] at h
      simp [toBigEndian, bigEndian]
      omega
  | succ k ih =>
      have hdiv : n / 256 < 256 ^ k := by
        rw [Nat.div_lt_iff_lt_mul (by decide), ← Nat.pow_succ]
        exact h
      have hlast : bigEndian (toBigEndian k (n / 256) ++ [UInt8.ofNat n])
          = 256 * bigEndian (toBigEndian k (n / 256)) + (UInt8.ofNat n).toNat := by
        simp [bigEndian]
      rw [toBigEndian, hlast, ih hdiv, UInt8.toNat_ofNat']
      omega

/-- The initial byte with the given major type and additional information. -/
def initialByte (m ai : Nat) : UInt8 := UInt8.ofNat (32 * m + ai)

theorem major_initialByte {m ai : Nat} (hm : m < 8) (hai : ai < 32) :
    major (initialByte m ai) = m := by
  rw [major, initialByte, UInt8.toNat_ofNat']
  omega

theorem info_initialByte (m : Nat) {ai : Nat} (hai : ai < 32) : info (initialByte m ai) = ai := by
  rw [info, initialByte, UInt8.toNat_ofNat']
  omega

/-- The shortest head for an argument below 2^64. -/
def encodeHead (m n : Nat) : Bytes :=
  if n < 24 then [initialByte m n]
  else if n < 256 ^ 1 then initialByte m 24 :: toBigEndian 1 n
  else if n < 256 ^ 2 then initialByte m 25 :: toBigEndian 2 n
  else if n < 256 ^ 4 then initialByte m 26 :: toBigEndian 4 n
  else initialByte m 27 :: toBigEndian 8 n

private theorem head_initialByte {m n ai k : Nat} (hm : m < 8) (hn : n < 256 ^ k)
    (hai : 24 ≤ ai) (hk : argLength ai = some k) (hai' : ai < 32) :
    Head m n (initialByte m ai :: toBigEndian k n) := by
  have hinfo := info_initialByte m hai'
  have hhead := Head.mk (initialByte m ai) (toBigEndian k n) (by rw [hinfo, hk]; simp)
  rw [major_initialByte hm hai', argument, hinfo, if_neg (by omega), bigEndian_toBigEndian hn]
    at hhead
  exact hhead

theorem encodeHead_head {m n : Nat} (hm : m < 8) (hn : n < 256 ^ 8) :
    Head m n (encodeHead m n) := by
  unfold encodeHead
  split
  · rename_i h
    have hinfo := info_initialByte m (by omega : n < 32)
    have hhead := Head.mk (initialByte m n) [] (by rw [hinfo, argLength, if_pos h]; rfl)
    rw [major_initialByte hm (by omega), argument, hinfo, if_pos h] at hhead
    exact hhead
  · split
    · exact head_initialByte hm ‹_› (by omega) rfl (by omega)
    · split
      · exact head_initialByte hm ‹_› (by omega) rfl (by omega)
      · split
        · exact head_initialByte hm ‹_› (by omega) rfl (by omega)
        · exact head_initialByte hm hn (by omega) rfl (by omega)

theorem length_encodeHead_le {m n : Nat} (hn : n < 256 ^ 2) : (encodeHead m n).length ≤ 3 := by
  unfold encodeHead
  split
  · simp
  · split
    · simp
    · simp

/-- Only an argument below 24 fits into the initial byte. -/
theorem encodeHead_eq_singleton {m n : Nat} {b : UInt8} :
    encodeHead m n = [b] ↔ n < 24 ∧ initialByte m n = b := by
  unfold encodeHead
  by_cases h : n < 24
  · simp [h]
  · simp only [h, if_false, false_and, iff_false]
    intro heq
    have hlen := congrArg List.length heq
    repeat' split at hlen
    all_goals simp at hlen

/-- An integer of either sign. -/
def encodeInt (v : Int) : Bytes :=
  if 0 ≤ v then encodeHead 0 v.toNat else encodeHead 1 (-1 - v).toNat

theorem initialByte_eq_iff {m ai : Nat} {b : UInt8} (h : 32 * m + ai < 256) :
    initialByte m ai = b ↔ 32 * m + ai = b.toNat := by
  rw [← UInt8.toNat_inj, initialByte, UInt8.toNat_ofNat', Nat.mod_eq_of_lt h]

/-- The integers whose encoding is one byte, and that byte. -/
theorem encodeInt_eq_singleton {v : Int} {b : UInt8} :
    encodeInt v = [b] ↔
      (0 ≤ v ∧ v ≤ 23 ∧ v = b.toNat) ∨ (-24 ≤ v ∧ v < 0 ∧ 31 - v = b.toNat) := by
  unfold encodeInt
  by_cases hv : 0 ≤ v
  · rw [if_pos hv, encodeHead_eq_singleton]
    constructor
    · rintro ⟨hlt, hb⟩
      rw [initialByte_eq_iff (by omega)] at hb
      exact .inl ⟨hv, by omega, by omega⟩
    · intro h
      exact ⟨by omega, (initialByte_eq_iff (by omega)).mpr (by omega)⟩
  · rw [if_neg hv, encodeHead_eq_singleton]
    constructor
    · rintro ⟨hlt, hb⟩
      rw [initialByte_eq_iff (by omega)] at hb
      exact .inr ⟨by omega, by omega, by omega⟩
    · intro h
      exact ⟨by omega, (initialByte_eq_iff (by omega)).mpr (by omega)⟩

end Cbor
