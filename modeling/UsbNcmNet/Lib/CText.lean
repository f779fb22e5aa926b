/-
C text with definitions of arrays of bytes.

A text is read as a C compiler reads it: lines that end in a backslash are joined, each
comment becomes a space, what is left is split into words and punctuators, and the words
and punctuators are taken for one definition after the other, of the form

    static const uint8_t name[] = { 0x.., 0x.. };

with a name that can be one and at least one constant.  Everything else in C, such as
directives, literals and line comments, is left standing as punctuators of which no such
definition has any, so that a text with some of it is not read at all.
-/
import Mathlib.Data.List.Infix

namespace CText

/-! ### From characters to tokens -/

/-- Lines joined at their backslashes. -/
def splice : List Char → List Char
  | '\\' :: '\n' :: rest => splice rest
  | c :: rest => c :: splice rest
  | [] => []

/-- Comments replaced by spaces; the flag says that one is open. -/
def uncomment : Bool → List Char → Option (List Char)
  | false, '/' :: '*' :: rest => (uncomment true rest).map (' ' :: ·)
  | false, c :: rest => (uncomment false rest).map (c :: ·)
  | false, [] => some []
  | true, '*' :: '/' :: rest => uncomment false rest
  | true, _ :: rest => uncomment true rest
  | true, [] => none

inductive Token
  | word (text : List Char)
  | punct (c : Char)
  deriving DecidableEq, Repr

def isBlank (c : Char) : Bool := c == ' ' || c == '\t' || c == '\n'

def isWordChar (c : Char) : Bool := c.isAlphanum || c == '_'

/-- The longest words, and every other character by itself. -/
def tokens : List Char → List Token
  | [] => []
  | c :: rest =>
      if isBlank c then tokens rest
      else if isWordChar c then
        match rest.head?.any isWordChar, tokens rest with
        | true, .word w :: ts => .word (c :: w) :: ts
        | _, ts => .word [c] :: ts
      else .punct c :: tokens rest

/-! ### Definitions -/

/-- The words that no array can be named by: those of the language, and the type of the elements. -/
def reserved : List (List Char) :=
  ["auto", "break", "case", "char", "const", "continue", "default", "do", "double", "else", "enum",
    "extern", "float", "for", "goto", "if", "inline", "int", "long", "register", "restrict",
    "return", "short", "signed", "sizeof", "static", "struct", "switch", "typedef", "union",
    "unsigned", "void", "volatile", "while", "_Alignas", "_Alignof", "_Atomic", "_Bool", "_Complex",
    "_Generic", "_Imaginary", "_Noreturn", "_Static_assert", "_Thread_local", "alignas", "alignof",
    "bool", "constexpr", "false", "nullptr", "static_assert", "thread_local", "true", "typeof",
    "typeof_unqual", "asm", "uint8_t"].map String.toList

structure IsIdentifier (name : List Char) : Prop where
  chars : name.all isWordChar = true
  /-- There is a first character, and it is no digit. -/
  first : name.head?.any (fun c => !c.isDigit) = true
  free : name ∉ reserved

instance (name : List Char) : Decidable (IsIdentifier name) :=
  decidable_of_iff
    (name.all isWordChar = true ∧ name.head?.any (fun c => !c.isDigit) = true ∧
      name ∉ reserved)
    ⟨fun h => ⟨h.1, h.2.1, h.2.2⟩, fun h => ⟨h.chars, h.first, h.free⟩⟩

/-- The value of a hexadecimal digit. -/
def hexValue (c : Char) : Option Nat :=
  if '0' ≤ c ∧ c ≤ '9' then some (c.toNat - 0x30)
  else if 'a' ≤ c ∧ c ≤ 'f' then some (c.toNat - 0x61 + 10)
  else if 'A' ≤ c ∧ c ≤ 'F' then some (c.toNat - 0x41 + 10)
  else none

/-- A hexadecimal constant of two digits. -/
def readConstant : List Char → Option UInt8
  | ['0', 'x', high, low] => do
      let h ← hexValue high
      let l ← hexValue low
      return UInt8.ofNat (16 * h + l)
  | _ => none

/-- The constants of an initialiser up to the end of the definition, and what follows it. -/
def readElements : List Token → Option (List UInt8 × List Token)
  | .word w :: .punct ',' :: rest => do
      let b ← readConstant w
      let (bs, rest) ← readElements rest
      return (b :: bs, rest)
  | .word w :: .punct '\x7d' :: .punct ';' :: rest => do
      let b ← readConstant w
      return ([b], rest)
  | _ => none

/-- One definition, and what follows it. -/
def readArray : List Token → Option ((List Char × List UInt8) × List Token)
  | .word storage :: .word qualifier :: .word type :: .word name :: .punct '[' :: .punct ']' ::
      .punct '=' :: .punct '\x7b' :: rest =>
      if storage = "static".toList ∧ qualifier = "const".toList ∧ type = "uint8_t".toList ∧
          IsIdentifier name then do
        let (data, rest) ← readElements rest
        return ((name, data), rest)
      else none
  | _ => none

/-- Definitions to the end, at most `n` of them. -/
def readArrays : Nat → List Token → Option (List (List Char × List UInt8))
  | _, [] => some []
  | 0, _ :: _ => none
  | n + 1, t :: ts => do
      let (array, rest) ← readArray (t :: ts)
      let arrays ← readArrays n rest
      return array :: arrays

/-- The arrays that a text defines, no name twice. -/
def read (text : List Char) : Option (List (List Char × List UInt8)) := do
  let code ← uncomment false (splice text)
  let arrays ← readArrays (tokens code).length (tokens code)
  if (arrays.map Prod.fst).Nodup then some arrays else none

/-! ### Lines and comments -/

theorem splice_cons {c : Char} {rest : List Char} (h : c ≠ '\\' ∨ rest.head? ≠ some '\n') :
    splice (c :: rest) = c :: splice rest := by
  rw [splice]
  rintro rest' rfl rfl
  simp at h

/-- A line that does not end in a backslash stays as it is. -/
theorem splice_line {line : List Char} (h : '\n' ∉ line) {c : Char} (hc : c ≠ '\\')
    (hend : c ≠ '\n') (rest : List Char) :
    splice (line ++ c :: '\n' :: rest) = line ++ c :: '\n' :: splice rest := by
  induction line with
  | nil =>
      rw [List.nil_append, splice_cons (.inl hc), splice_cons (.inl (by decide))]
      rfl
  | cons a line ih =>
      rw [List.mem_cons, not_or] at h
      -- a line end behind `a` would be in the line, or be `c`
      have hhead : (line ++ c :: '\n' :: rest).head? ≠ some '\n' := by
        cases line with
        | nil => simpa using hend
        | cons b line =>
            intro heq
            exact h.2 (List.mem_cons.mpr (.inl (Option.some.inj heq).symm))
      rw [List.cons_append, splice_cons (.inr hhead), ih h.2]
      rfl

/-- Text of one line in which no comment begins. -/
def Plain (text : List Char) : Prop := text.all (fun c => c != '\n' && c != '/') = true

theorem Plain.append {text text' : List Char} (h : Plain text) (h' : Plain text') :
    Plain (text ++ text') := by
  unfold Plain
  rw [List.all_append, h, h']
  rfl

theorem Plain.oneLine {text : List Char} (h : Plain text) : '\n' ∉ text := by
  intro hc
  exact absurd (List.all_eq_true.mp h _ hc) (by decide)

theorem Plain.no_slash {text : List Char} (h : Plain text) : '/' ∉ text := by
  intro hc
  exact absurd (List.all_eq_true.mp h _ hc) (by decide)

theorem plain_word {w : List Char} (h : w.all isWordChar = true) : Plain w := by
  refine List.all_eq_true.mpr fun c hc => ?_
  have hword := List.all_eq_true.mp h c hc
  rw [Bool.and_eq_true, bne_iff_ne, bne_iff_ne]
  constructor
  · rintro rfl
    exact absurd hword (by decide)
  · rintro rfl
    exact absurd hword (by decide)

theorem plain_intercalate {sep : List Char} (hsep : Plain sep) {words : List (List Char)}
    (h : ∀ w ∈ words, Plain w) : Plain (List.intercalate sep words) := by
  induction words with
  | nil => rfl
  | cons w words ih =>
      have hw := h w List.mem_cons_self
      have ih := ih fun w hw => h w (List.mem_cons_of_mem _ hw)
      cases words with
      | nil => rwa [List.intercalate_singleton]
      | cons w' words =>
          rw [List.intercalate_cons_cons]
          exact (hw.append hsep).append ih

theorem uncomment_cons {c : Char} {rest : List Char} (h : c ≠ '/') :
    uncomment false (c :: rest) = (uncomment false rest).map (c :: ·) := by
  rw [uncomment]
  rintro rest' rfl -
  exact h rfl

/-- Text without a slash has no comments. -/
theorem uncomment_code {code : List Char} (h : '/' ∉ code) (rest : List Char) :
    uncomment false (code ++ rest) = (uncomment false rest).map (code ++ ·) := by
  induction code with
  | nil => simp
  | cons c code ih =>
      rw [List.mem_cons, not_or] at h
      rw [List.cons_append, uncomment_cons (Ne.symm h.1), ih h.2, Option.map_map]
      rfl

/-- What a comment may not say. -/
structure IsComment (comment : List Char) : Prop where
  oneLine : '\n' ∉ comment
  unclosed : ¬ ['*', '/'] <:+: comment

/-- A comment goes on up to the end that is written behind it. -/
theorem uncomment_comment {comment : List Char} (h : ¬ ['*', '/'] <:+: comment)
    (rest : List Char) :
    uncomment true (comment ++ ' ' :: '*' :: '/' :: rest) = uncomment false rest := by
  induction comment with
  | nil =>
      rw [List.nil_append, uncomment, uncomment]
      simp
  | cons c comment ih =>
      have hrest : ¬ ['*', '/'] <:+: comment := fun h' => h (h'.trans (List.suffix_cons c _).isInfix)
      rw [List.cons_append, uncomment, ih hrest]
      rintro rest' rfl heq
      cases comment with
      | nil => simp at heq
      | cons d comment =>
          obtain ⟨rfl, -⟩ := List.cons.inj heq
          exact h ⟨[], comment, rfl⟩

/-! ### Words -/

theorem tokens_blank {c : Char} (h : isBlank c = true) (rest : List Char) :
    tokens (c :: rest) = tokens rest := by
  rw [tokens, if_pos h]

theorem tokens_punct {c : Char} (h : isBlank c = false) (hword : isWordChar c = false)
    (rest : List Char) : tokens (c :: rest) = .punct c :: tokens rest := by
  rw [tokens, if_neg (by simp [h]), if_neg (by simp [hword])]

theorem isBlank_of_isWordChar {c : Char} (h : isWordChar c = true) : isBlank c = false := by
  by_contra hblank
  rw [Bool.not_eq_false, isBlank, Bool.or_eq_true, Bool.or_eq_true, beq_iff_eq, beq_iff_eq,
    beq_iff_eq] at hblank
  rcases hblank with (rfl | rfl) | rfl <;> revert h <;> decide

/-- A word ends where no character of a word follows. -/
theorem tokens_word {w rest : List Char} (hne : w ≠ []) (hw : w.all isWordChar = true)
    (hrest : rest.head?.any isWordChar = false) : tokens (w ++ rest) = .word w :: tokens rest := by
  induction w with
  | nil => exact absurd rfl hne
  | cons c w ih =>
      rw [List.all_cons, Bool.and_eq_true] at hw
      obtain ⟨hc, hw⟩ := hw
      rw [List.cons_append, tokens, if_neg (by simp [isBlank_of_isWordChar hc]), if_pos hc]
      cases w with
      | nil => rw [List.nil_append, hrest]
      | cons d w =>
          have hd : ((d :: w ++ rest).head?.any isWordChar) = true := by
            rw [List.all_cons, Bool.and_eq_true] at hw
            exact hw.1
          rw [ih (by simp) hw, hd]

/-! ### What is written is read -/

/-- The tokens of an initialiser. -/
def elementTokens (words : List (List Char)) : List Token :=
  (words.map Token.word).intersperse (.punct ',')

/-- Words with a comma and a space between them, up to whatever ends the last one. -/
theorem tokens_intercalate {words : List (List Char)}
    (h : ∀ w ∈ words, w ≠ [] ∧ w.all isWordChar = true) {rest : List Char}
    (hrest : rest.head?.any isWordChar = false) :
    tokens (List.intercalate [',', ' '] words ++ rest) = elementTokens words ++ tokens rest := by
  induction words with
  | nil => rfl
  | cons w words ih =>
      obtain ⟨hne, hw⟩ := h w List.mem_cons_self
      have ih := ih fun w hw => h w (List.mem_cons_of_mem _ hw)
      cases words with
      | nil =>
          rw [List.intercalate_singleton, tokens_word hne hw hrest]
          rfl
      | cons w' words =>
          rw [List.intercalate_cons_cons, List.append_assoc, List.append_assoc,
            tokens_word hne hw rfl, List.cons_append,
            tokens_punct (by decide) (by decide), List.cons_append, tokens_blank (by decide),
            List.nil_append, ih]
          rfl

/-- The constants of an initialiser are read up to its end, if there are any. -/
theorem readElements_tokens {words : List (List Char)} (hne : words ≠ []) {f : List Char → UInt8}
    (h : ∀ w ∈ words, readConstant w = some (f w)) (rest : List Token) :
    readElements (elementTokens words ++ .punct '\x7d' :: .punct ';' :: rest)
      = some (words.map f, rest) := by
  induction words with
  | nil => exact absurd rfl hne
  | cons w words ih =>
      have hw := h w List.mem_cons_self
      cases words with
      | nil =>
          show readElements (.word w :: .punct '\x7d' :: .punct ';' :: rest) = _
          rw [readElements, hw]
          rfl
      | cons w' words =>
          have ih := ih (by simp) fun w hw => h w (List.mem_cons_of_mem _ hw)
          show readElements (.word w :: .punct ',' :: (elementTokens (w' :: words) ++ _)) = _
          rw [readElements, hw, ih]
          rfl

/-- The tokens of a definition. -/
def definitionTokens (name : List Char) (words : List (List Char)) : List Token :=
  .word "static".toList :: .word "const".toList :: .word "uint8_t".toList :: .word name ::
    .punct '[' :: .punct ']' :: .punct '=' :: .punct '\x7b' ::
    (elementTokens words ++ [.punct '\x7d', .punct ';'])

section
variable {f : List Char → UInt8}

theorem readArray_tokens {name : List Char} (hname : IsIdentifier name) {words : List (List Char)}
    (hne : words ≠ []) (h : ∀ w ∈ words, readConstant w = some (f w)) (rest : List Token) :
    readArray (definitionTokens name words ++ rest) = some ((name, words.map f), rest) := by
  have hwords := readElements_tokens hne h rest
  unfold definitionTokens
  rw [List.cons_append, List.cons_append, List.cons_append, List.cons_append, List.cons_append,
    List.cons_append, List.cons_append, List.cons_append, List.append_assoc, readArray,
    if_pos ⟨rfl, rfl, rfl, hname⟩]
  show (readElements (elementTokens words ++ .punct '\x7d' :: .punct ';' :: rest)).bind _ = _
  rw [hwords]
  rfl

theorem readArrays_succ {ts : List Token} (hne : ts ≠ []) (n : Nat) :
    readArrays (n + 1) ts
      = (readArray ts).bind fun r => (readArrays n r.2).bind fun arrays => some (r.1 :: arrays) := by
  cases ts with
  | nil => exact absurd rfl hne
  | cons t ts => rfl

/-- Definitions one behind the other are read as the arrays they define. -/
theorem readArrays_tokens {arrays : List (List Char × List (List Char))}
    (hnames : ∀ a ∈ arrays, IsIdentifier a.1) (hne : ∀ a ∈ arrays, a.2 ≠ [])
    (h : ∀ a ∈ arrays, ∀ w ∈ a.2, readConstant w = some (f w)) :
    ∀ n, arrays.length ≤ n →
      readArrays n (arrays.flatMap fun a => definitionTokens a.1 a.2)
        = some (arrays.map fun a => (a.1, a.2.map f)) := by
  induction arrays with
  | nil =>
      intro n _
      cases n <;> rfl
  | cons a arrays ih =>
      intro n hn
      have ih := ih (fun a ha => hnames a (List.mem_cons_of_mem _ ha))
        (fun a ha => hne a (List.mem_cons_of_mem _ ha))
        (fun a ha => h a (List.mem_cons_of_mem _ ha))
      cases n with
      | zero => simp at hn
      | succ n =>
          have harray := readArray_tokens (hnames a List.mem_cons_self) (hne a List.mem_cons_self)
            (h a List.mem_cons_self) (arrays.flatMap fun a => definitionTokens a.1 a.2)
          rw [List.flatMap_cons, readArrays_succ (by simp [definitionTokens]), harray]
          dsimp only [Option.bind_some]
          rw [ih n (Nat.le_of_succ_le_succ hn)]
          rfl

theorem length_le_definitionTokens (arrays : List (List Char × List (List Char))) :
    arrays.length ≤ (arrays.flatMap fun a => definitionTokens a.1 a.2).length := by
  induction arrays with
  | nil => exact Nat.le_refl 0
  | cons a arrays ih =>
      rw [List.flatMap_cons, List.length_append, List.length_cons]
      have hpos : 0 < (definitionTokens a.1 a.2).length := Nat.succ_pos _
      omega

/-- **A text whose tokens are definitions is read as what they define.** -/
theorem read_definitions {text code : List Char} {arrays : List (List Char × List (List Char))}
    (hcode : uncomment false (splice text) = some code)
    (htokens : tokens code = arrays.flatMap fun a => definitionTokens a.1 a.2)
    (hnames : ∀ a ∈ arrays, IsIdentifier a.1) (hdistinct : (arrays.map Prod.fst).Nodup)
    (hne : ∀ a ∈ arrays, a.2 ≠ [])
    (h : ∀ a ∈ arrays, ∀ w ∈ a.2, readConstant w = some (f w)) :
    read text = some (arrays.map fun a => (a.1, a.2.map f)) := by
  have harrays := readArrays_tokens hnames hne h _ (length_le_definitionTokens arrays)
  unfold read
  rw [hcode]
  show (readArrays (tokens code).length (tokens code)).bind _ = _
  rw [htokens, harrays]
  refine if_pos ?_
  rwa [List.map_map]

end

end CText
