/-
Which payloads a PUT of the LED takes.

The comment on `parse_onoff` gives four words and says that everything else is an
error.  The parser tests what the payload begins with, so what it really takes is
everything that begins with one of the words.
-/
import UsbNcmNet.Proofs.Dispatch

namespace UsbNcmNet

/-! ### What the parser asks -/

/-- The words of `parse_onoff`'s comment. -/
def onWords : List Bytes := [ascii ['1'], ascii ['o', 'n']]

def offWords : List Bytes := [ascii ['0'], ascii ['o', 'f', 'f']]

/-- A test of the first bytes with its length guard is a test for a prefix. -/
theorem take_eq_iff_prefix {w p : Bytes} {n : Nat} (hn : w.length = n) :
    n ≤ p.length ∧ p.take n = w ↔ w <+: p := by
  subst hn
  constructor
  · rintro ⟨-, h⟩
    exact List.prefix_iff_eq_take.mpr h.symm
  · intro h
    exact ⟨h.length_le, (List.prefix_iff_eq_take.mp h).symm⟩

/-- What the parser really asks is what a payload begins with. -/
theorem parseOnoff_eq (p : Bytes) :
    parseOnoff p =
      if ∃ w ∈ onWords, w <+: p then 1 else if ∃ w ∈ offWords, w <+: p then 0 else -1 := by
  have h1 : 1 ≤ p.length ∧ p.take 1 = ascii ['1'] ↔ ascii ['1'] <+: p := take_eq_iff_prefix rfl
  have h0 : 1 ≤ p.length ∧ p.take 1 = ascii ['0'] ↔ ascii ['0'] <+: p := take_eq_iff_prefix rfl
  have hon : 2 ≤ p.length ∧ p.take 2 = ascii ['o', 'n'] ↔ ascii ['o', 'n'] <+: p :=
    take_eq_iff_prefix rfl
  have hoff : 3 ≤ p.length ∧ p.take 3 = ascii ['o', 'f', 'f'] ↔ ascii ['o', 'f', 'f'] <+: p :=
    take_eq_iff_prefix rfl
  -- "0" is tested before "on", which makes no difference
  have hdisjoint : ascii ['0'] <+: p → ¬ ascii ['o', 'n'] <+: p := by
    intro hzero hword
    rcases List.prefix_or_prefix_of_prefix hzero hword with h | h <;> revert h <;> decide
  unfold parseOnoff onWords offWords
  simp only [h1, h0, hon, hoff, List.mem_cons, List.not_mem_nil, or_false, exists_eq_or_imp,
    exists_eq_left]
  by_cases hone : ascii ['1'] <+: p
  · simp only [hone, true_or, if_true]
  · by_cases hzero : ascii ['0'] <+: p
    · simp only [hone, hzero, hdisjoint hzero, or_self, true_or, if_true, if_false]
    · simp only [hone, hzero, false_or, if_false]

/-- The value a payload asks for, by the word it begins with. -/
def wordValue (payload : Option Bytes) : Option Bool :=
  match payload with
  | none => none
  | some p =>
      if ∃ w ∈ onWords, w <+: p then some true
      else if ∃ w ∈ offWords, w <+: p then some false
      else none

/-- A PUT takes the payloads that have a value, and writes it. -/
theorem wordValue_eq (payload : Option Bytes) :
    wordValue payload =
      if putValue payload < 0 then none else some (decide (putValue payload ≠ 0)) := by
  cases payload with
  | none => rfl
  | some p =>
      simp only [wordValue, putValue, parseOnoff_eq]
      by_cases hon : ∃ w ∈ onWords, w <+: p
      · rw [if_pos hon, if_pos hon]
        rfl
      · by_cases hoff : ∃ w ∈ offWords, w <+: p
        · rw [if_neg hon, if_neg hon, if_pos hoff, if_pos hoff]
          rfl
        · rw [if_neg hon, if_neg hon, if_neg hoff, if_neg hoff]
          rfl

theorem wordValue_eq_none {payload : Option Bytes} (h : putValue payload < 0) :
    wordValue payload = none := by
  rw [wordValue_eq, if_pos h]

theorem wordValue_eq_some {payload : Option Bytes} (h : 0 ≤ putValue payload) :
    wordValue payload = some (decide (putValue payload ≠ 0)) := by
  rw [wordValue_eq, if_neg (Int.not_lt.mpr h)]

/-- The byte GET reports: the digit of the flag. -/
theorem ledByte_eq (v : Bool) : ledByte v = if v then 0x31 else 0x30 := by
  cases v <;> rfl

/-! ### What the comment promises -/

/--
What the comment promises of a PUT with the given payload: 2.04 and a lit LED for
exactly the on words, 2.04 and a dark one for exactly the off words, and for
everything else 4.00 with the flag and the pin left alone.
-/
def PutAsDocumented (payload : Option Bytes) : Prop :=
  ∀ (gpio : Int) (request : Request) (bufLen : Nat) (led : Led),
    request.payload = payload → 12 ≤ bufLen →
    ∃ code led', buildLedPut gpio request bufLen request.token request.id led
        = (.ok (ackPacket bufLen request code []), led') ∧
      (code = COAP_RESPONSE_CODE_CHANGED ∧ led'.state = true ↔ ∃ w ∈ onWords, payload = some w) ∧
      (code = COAP_RESPONSE_CODE_CHANGED ∧ led'.state = false ↔
        ∃ w ∈ offWords, payload = some w) ∧
      ((∀ w ∈ onWords ++ offWords, payload ≠ some w) →
        code = COAP_RESPONSE_CODE_BAD_REQUEST ∧ led' = led)

/-- The payload begins with a word and goes on behind it. -/
def WordAndMore (payload : Option Bytes) : Prop :=
  ∃ p w, payload = some p ∧ w ∈ onWords ++ offWords ∧ w <+: p ∧ p ∉ onWords ++ offWords

theorem putValue_word {p : Bytes} (h : ∃ w ∈ onWords ++ offWords, w <+: p) :
    0 ≤ putValue (some p) := by
  obtain ⟨w, hw, hpre⟩ := h
  show 0 ≤ parseOnoff p
  rw [parseOnoff_eq]
  split
  · decide
  · rename_i hon
    split
    · decide
    · rename_i hoff
      rcases List.mem_append.mp hw with hw | hw
      · exact absurd ⟨w, hw, hpre⟩ hon
      · exact absurd ⟨w, hw, hpre⟩ hoff

theorem putValue_no_word {payload : Option Bytes}
    (h : ∀ p w, payload = some p → w ∈ onWords ++ offWords → ¬ w <+: p) :
    putValue payload = -1 := by
  cases payload with
  | none => rfl
  | some p =>
      show parseOnoff p = -1
      rw [parseOnoff_eq, if_neg, if_neg]
      · rintro ⟨w, hw, hpre⟩
        exact h p w rfl (List.mem_append_right _ hw) hpre
      · rintro ⟨w, hw, hpre⟩
        exact h p w rfl (List.mem_append_left _ hw) hpre

theorem putValue_words : ∀ p ∈ onWords ++ offWords,
    (putValue (some p) ≠ 0 ↔ p ∈ onWords) ∧ (putValue (some p) = 0 ↔ p ∈ offWords) := by
  decide

/-- Each word does what the comment says of it. -/
theorem putAsDocumented_word {p : Bytes} (h : p ∈ onWords ++ offWords) :
    PutAsDocumented (some p) := by
  intro gpio request bufLen led hpayload hbuf
  have hvalue := putValue_word ⟨p, h, List.prefix_rfl⟩
  obtain ⟨hon, hoff⟩ := putValue_words p h
  rw [buildLedPut_eq gpio request led hbuf, hpayload, if_neg (by omega)]
  refine ⟨_, _, rfl, ?_, ?_, fun hother => absurd rfl (hother p h)⟩
  · simpa using hon
  · simpa using hoff

theorem putAsDocumented_no_word {payload : Option Bytes}
    (h : ∀ p w, payload = some p → w ∈ onWords ++ offWords → ¬ w <+: p) :
    PutAsDocumented payload := by
  intro gpio request bufLen led hpayload hbuf
  have hnone : ∀ w ∈ onWords ++ offWords, payload ≠ some w :=
    fun w hw heq => h w w heq hw List.prefix_rfl
  rw [buildLedPut_eq gpio request led hbuf, hpayload, putValue_no_word h, if_pos (by decide)]
  refine ⟨_, _, rfl, iff_of_false (fun h => badRequest_ne_changed h.1) ?_,
    iff_of_false (fun h => badRequest_ne_changed h.1) ?_, fun _ => ⟨rfl, rfl⟩⟩
  · rintro ⟨w, hw, heq⟩
    exact hnone w (List.mem_append_left _ hw) heq
  · rintro ⟨w, hw, heq⟩
    exact hnone w (List.mem_append_right _ hw) heq

/-- A PUT of the given payload to `/led`. -/
def ledPutRequest (payload : Bytes) : Request where
  type := .con
  code := COAP_METHOD_PUT
  id := 0
  token := ⟨[7], by decide⟩
  options := [⟨COAP_OPTION_URI_PATH, ascii ['l', 'e', 'd']⟩]
  findFails := false
  payload := some payload

/-- A payload with something behind the word is taken for the word. -/
theorem not_putAsDocumented {p w : Bytes} (hw : w ∈ onWords ++ offWords) (hpre : w <+: p)
    (hmore : p ∉ onWords ++ offWords) : ¬ PutAsDocumented (some p) := by
  intro h
  obtain ⟨code, led', hput, -, -, hbad⟩ := h 0 (ledPutRequest p) 12 Led.boot rfl (by decide)
  have hvalue := putValue_word ⟨w, hw, hpre⟩
  have hgood : ¬ putValue (ledPutRequest p).payload < 0 := Int.not_lt.mpr hvalue
  rw [buildLedPut_eq 0 (ledPutRequest p) Led.boot (by decide), if_neg hgood] at hput
  have hcode : COAP_RESPONSE_CODE_CHANGED = code :=
    congrArg Packet.code (Except.ok.inj (congrArg Prod.fst hput))
  have hother : ∀ w ∈ onWords ++ offWords, some p ≠ some w := by
    rintro w hw heq
    exact hmore (Option.some.inj heq ▸ hw)
  exact badRequest_ne_changed ((hbad hother).1.symm.trans hcode.symm)

/--
**Which PUTs the parser takes as its comment says**: all but those whose payload
begins with one of the four words and is none of them.
-/
theorem putAsDocumented_iff (payload : Option Bytes) :
    PutAsDocumented payload ↔ ¬ WordAndMore payload := by
  constructor
  · rintro h ⟨p, w, rfl, hw, hpre, hmore⟩
    exact not_putAsDocumented hw hpre hmore h
  · intro h
    by_cases hword : ∃ p w, payload = some p ∧ w ∈ onWords ++ offWords ∧ w <+: p
    · obtain ⟨p, w, rfl, hw, hpre⟩ := hword
      by_cases hp : p ∈ onWords ++ offWords
      · exact putAsDocumented_word hp
      · exact absurd ⟨p, w, rfl, hw, hpre, hp⟩ h
    · exact putAsDocumented_no_word fun p w heq hw hpre => hword ⟨p, w, heq, hw, hpre⟩

/-- A PUT of `10` lights the LED. -/
theorem ten_lights_led :
    (coapServerDispatchInner 0 (ledPutRequest (ascii ['1', '0'])) 64 Led.boot).2
        = { state := true, pin := true } ∧
      ¬ PutAsDocumented (some (ascii ['1', '0'])) :=
  ⟨rfl, not_putAsDocumented (w := ascii ['1']) (by decide) (by decide) (by decide)⟩

end UsbNcmNet
