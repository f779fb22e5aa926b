/-
CBOR data items as values.

`Value` has integers, byte strings, text strings and maps.  `encode` writes one
deterministically: shortest heads, definite lengths, and the entries of a map in
the order in which they stand.  `Sorted` says that this order is the canonical one,
shorter encoded keys first and those of one length in the order of their bytes.

`decodeValue` reads a value and leaves what follows it.  It reads back what `encode`
wrote, whatever comes behind, so two values that are written the same are the same.
-/
import Mathlib.Algebra.Group.Int.Defs
import UsbNcmNet.Lib.Cbor

namespace Cbor

mutual
inductive Value
  | int (v : Int)
  | bytes (s : Bytes)
  /-- The UTF-8 encoding of the text. -/
  | text (s : Bytes)
  | map (entries : Entries)
  deriving DecidableEq, Repr

inductive Entries
  | nil
  | cons (key value : Value) (rest : Entries)
  deriving DecidableEq, Repr
end

def Entries.length : Entries → Nat
  | .nil => 0
  | .cons _ _ rest => rest.length + 1

/-! ### Writing -/

mutual
def Value.encode : Value → Bytes
  | .int v => encodeInt v
  | .bytes s => encodeHead 2 s.length ++ s
  | .text s => encodeHead 3 s.length ++ s
  | .map entries => encodeHead 5 entries.length ++ entries.encode

def Entries.encode : Entries → Bytes
  | .nil => []
  | .cons key value rest => key.encode ++ value.encode ++ rest.encode
end

mutual
/-- Every number that goes into a head is below 2^64. -/
def Value.Fits : Value → Prop
  | .int v => -(256 ^ 8 : Int) ≤ v ∧ v < 256 ^ 8
  | .bytes s => s.length < 256 ^ 8
  | .text s => s.length < 256 ^ 8
  | .map entries => entries.length < 256 ^ 8 ∧ entries.Fits

def Entries.Fits : Entries → Prop
  | .nil => True
  | .cons key value rest => key.Fits ∧ value.Fits ∧ rest.Fits
end

/-- Canonical order of encoded keys: by length, then byte by byte. -/
def keyLt (k k' : Bytes) : Prop :=
  k.length < k'.length ∨ (k.length = k'.length ∧ k < k')

instance (k k' : Bytes) : Decidable (keyLt k k') := inferInstanceAs (Decidable (_ ∨ _))

def Entries.keys : Entries → List Bytes
  | .nil => []
  | .cons key _ rest => key.encode :: rest.keys

mutual
def Value.Sorted : Value → Prop
  | .map entries => entries.keys.Pairwise keyLt ∧ entries.Sorted
  | _ => True

def Entries.Sorted : Entries → Prop
  | .nil => True
  | .cons key value rest => key.Sorted ∧ value.Sorted ∧ rest.Sorted
end

/-! ### Reading -/

/-- The major type and the argument of the head in front, and what follows it. -/
def readHead : Bytes → Option (Nat × Nat × Bytes)
  | [] => none
  | b :: rest =>
      match argLength (info b) with
      | none => none
      | some k =>
          if rest.length < k then none
          else some (major b, argument b (rest.take k), rest.drop k)

/-- The next `n` bytes, and what follows them. -/
def readBytes (n : Nat) (input : Bytes) : Option (Bytes × Bytes) :=
  if input.length < n then none else some (input.take n, input.drop n)

mutual
def decodeValue : (fuel : Nat) → Bytes → Option (Value × Bytes)
  | 0, _ => none
  | fuel + 1, input => do
      let (m, n, input) ← readHead input
      match m with
      | 0 => some (.int n, input)
      | 1 => some (.int (-1 - n), input)
      | 2 => (readBytes n input).map fun (s, rest) => (.bytes s, rest)
      | 3 => (readBytes n input).map fun (s, rest) => (.text s, rest)
      | 5 => (decodeEntries fuel n input).map fun (entries, rest) => (.map entries, rest)
      | _ => none

def decodeEntries : (fuel n : Nat) → Bytes → Option (Entries × Bytes)
  | _, 0, input => some (.nil, input)
  | 0, _ + 1, _ => none
  | fuel + 1, n + 1, input => do
      let (key, input) ← decodeValue fuel input
      let (value, input) ← decodeValue fuel input
      let (rest, input) ← decodeEntries fuel n input
      some (.cons key value rest, input)
end

mutual
/-- As much fuel as reading a value takes. -/
def Value.depth : Value → Nat
  | .map entries => entries.depth + 1
  | _ => 1

def Entries.depth : Entries → Nat
  | .nil => 0
  | .cons key value rest => max key.depth (max value.depth rest.depth) + 1
end

/-- The whole input as one value. -/
def decode (input : Bytes) : Option Value :=
  match decodeValue (2 * input.length) input with
  | some (v, []) => some v
  | _ => none

/-! ### Heads and strings -/

theorem readHead_append {m n : Nat} {h : Bytes} (hhead : Head m n h) (rest : Bytes) :
    readHead (h ++ rest) = some (m, n, rest) := by
  obtain ⟨b, bs, rfl, rfl, rfl, hlen⟩ := hhead.cons
  rw [List.cons_append, readHead, hlen]
  dsimp only
  rw [if_neg (by simp), List.take_left, List.drop_left]

theorem readBytes_append (s rest : Bytes) : readBytes s.length (s ++ rest) = some (s, rest) := by
  unfold readBytes
  rw [if_neg (by simp), List.take_left, List.drop_left]

/-- An integer reads back with one unit of fuel. -/
theorem decodeValue_int {v : Int} (hv : (Value.int v).Fits) (fuel : Nat) (rest : Bytes) :
    decodeValue (fuel + 1) (encodeInt v ++ rest) = some (.int v, rest) := by
  obtain ⟨hlow, hhigh⟩ := hv
  unfold decodeValue encodeInt
  by_cases h : 0 ≤ v
  · rw [if_pos h, readHead_append (encodeHead_head (by decide) (by omega))]
    show some (Value.int _, rest) = _
    rw [Int.toNat_of_nonneg h]
  · rw [if_neg h, readHead_append (encodeHead_head (by decide) (by omega))]
    show some (Value.int _, rest) = _
    rw [Int.toNat_of_nonneg (by omega)]
    congr 3
    omega

/-! ### Round trip -/

mutual
/-- **What is written reads back**, and the input behind it is left alone. -/
theorem decodeValue_encode (v : Value) (hv : v.Fits) (fuel : Nat) (hfuel : v.depth ≤ fuel)
    (rest : Bytes) : decodeValue fuel (v.encode ++ rest) = some (v, rest) := by
  cases fuel with
  | zero => cases v <;> simp [Value.depth] at hfuel
  | succ fuel =>
      cases v with
      | int v => exact decodeValue_int hv fuel rest
      | bytes s =>
          unfold decodeValue
          rw [Value.encode, List.append_assoc, readHead_append (encodeHead_head (by decide) hv)]
          show (readBytes s.length (s ++ rest)).map _ = _
          rw [readBytes_append]
          rfl
      | text s =>
          unfold decodeValue
          rw [Value.encode, List.append_assoc, readHead_append (encodeHead_head (by decide) hv)]
          show (readBytes s.length (s ++ rest)).map _ = _
          rw [readBytes_append]
          rfl
      | map entries =>
          unfold decodeValue
          rw [Value.encode, List.append_assoc, readHead_append (encodeHead_head (by decide) hv.1)]
          show (decodeEntries fuel entries.length (entries.encode ++ rest)).map _ = _
          rw [decodeEntries_encode entries hv.2 fuel (Nat.le_of_succ_le_succ hfuel)]
          rfl

theorem decodeEntries_encode (entries : Entries) (hentries : entries.Fits) (fuel : Nat)
    (hfuel : entries.depth ≤ fuel) (rest : Bytes) :
    decodeEntries fuel entries.length (entries.encode ++ rest) = some (entries, rest) := by
  cases entries with
  | nil =>
      show decodeEntries fuel 0 rest = _
      unfold decodeEntries
      rfl
  | cons key value entries =>
      cases fuel with
      | zero => simp [Entries.depth] at hfuel
      | succ fuel =>
          have hdepth : max key.depth (max value.depth entries.depth) ≤ fuel :=
            Nat.le_of_succ_le_succ hfuel
          show decodeEntries (fuel + 1) (entries.length + 1) _ = _
          unfold decodeEntries
          rw [Entries.encode, List.append_assoc, List.append_assoc,
            decodeValue_encode key hentries.1 fuel (by omega)]
          dsimp only [Option.bind_eq_bind, Option.bind_some]
          rw [decodeValue_encode value hentries.2.1 fuel (by omega)]
          dsimp only [Option.bind_eq_bind, Option.bind_some]
          rw [decodeEntries_encode entries hentries.2.2 fuel (by omega)]
          rfl
end

theorem length_encodeHead_pos (m n : Nat) : 0 < (encodeHead m n).length := by
  unfold encodeHead
  repeat' split
  all_goals simp

theorem length_encodeInt_pos (v : Int) : 0 < (encodeInt v).length := by
  unfold encodeInt
  split
  · exact length_encodeHead_pos _ _
  · exact length_encodeHead_pos _ _

mutual
/-- The length of the encoding is fuel enough. -/
theorem Value.depth_le (v : Value) : v.depth ≤ 2 * v.encode.length := by
  cases v with
  | int v =>
      have := length_encodeInt_pos v
      simp only [Value.depth, Value.encode]
      omega
  | bytes s =>
      have := length_encodeHead_pos 2 s.length
      simp only [Value.depth, Value.encode, List.length_append]
      omega
  | text s =>
      have := length_encodeHead_pos 3 s.length
      simp only [Value.depth, Value.encode, List.length_append]
      omega
  | map entries =>
      have := length_encodeHead_pos 5 entries.length
      have := entries.depth_le
      simp only [Value.depth, Value.encode, List.length_append]
      omega

theorem Entries.depth_le (entries : Entries) : entries.depth ≤ 2 * entries.encode.length := by
  cases entries with
  | nil => simp [Entries.depth]
  | cons key value rest =>
      have := key.depth_le
      have := value.depth_le
      have := rest.depth_le
      have := key.encode_pos
      have := value.encode_pos
      simp only [Entries.depth, Entries.encode, List.length_append]
      omega

theorem Value.encode_pos (v : Value) : 0 < v.encode.length := by
  cases v with
  | int v => exact length_encodeInt_pos v
  | bytes s =>
      have := length_encodeHead_pos 2 s.length
      simp only [Value.encode, List.length_append]
      omega
  | text s =>
      have := length_encodeHead_pos 3 s.length
      simp only [Value.encode, List.length_append]
      omega
  | map entries =>
      have := length_encodeHead_pos 5 entries.length
      simp only [Value.encode, List.length_append]
      omega
end

theorem decode_encode {v : Value} (hv : v.Fits) : decode v.encode = some v := by
  have hread := decodeValue_encode v hv (2 * v.encode.length) v.depth_le []
  rw [List.append_nil] at hread
  unfold decode
  rw [hread]

/-! ### The grammar -/

theorem wellFormed_encodeInt {v : Int} (hv : (Value.int v).Fits) : WellFormed (encodeInt v) := by
  obtain ⟨hlow, hhigh⟩ := hv
  unfold encodeInt
  split
  · exact .integer (.inl rfl) (encodeHead_head (by decide) (by omega))
  · exact .integer (.inr rfl) (encodeHead_head (by decide) (by omega))

mutual
/-- What is written is one item of the grammar. -/
theorem Value.wellFormed (v : Value) (hv : v.Fits) : WellFormed v.encode := by
  cases v with
  | int v => exact wellFormed_encodeInt hv
  | bytes s => exact .string (.inl rfl) (.mk (encodeHead_head (by decide) hv) rfl)
  | text s => exact .string (.inr rfl) (.mk (encodeHead_head (by decide) hv) rfl)
  | map entries =>
      obtain ⟨items, hencode, hlen, hitems⟩ := entries.items hv.2
      rw [Value.encode, hencode]
      exact .map (encodeHead_head (by decide) hv.1) hlen hitems

/-- Keys and values in turn are as many items of the grammar. -/
theorem Entries.items (entries : Entries) (hentries : entries.Fits) :
    ∃ items : List Bytes, entries.encode = items.flatten ∧ items.length = 2 * entries.length ∧
      ∀ i ∈ items, WellFormed i := by
  cases entries with
  | nil => exact ⟨[], rfl, rfl, by simp⟩
  | cons key value rest =>
      obtain ⟨items, hencode, hlen, hitems⟩ := rest.items hentries.2.2
      refine ⟨key.encode :: value.encode :: items, ?_, ?_, ?_⟩
      · rw [Entries.encode, hencode, List.flatten_cons, List.flatten_cons, List.append_assoc]
      · rw [List.length_cons, List.length_cons, hlen, Entries.length]
        omega
      · intro i hi
        rcases List.mem_cons.mp hi with rfl | hi
        · exact key.wellFormed hentries.1
        · rcases List.mem_cons.mp hi with rfl | hi
          · exact value.wellFormed hentries.2.1
          · exact hitems i hi
end

end Cbor
