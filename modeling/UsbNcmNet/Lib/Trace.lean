/-
Histories.

A history is a list with the newest entry last.  Three questions are asked of
one: what has happened since the last entry of some kind, what the latest entry of
some kind said, and whether a property that looks back over the past holds at each
entry.  `sinceLast` and `latest` answer the first two and `AtEach` states the
third, and all come with the lemmas that push them through an append, so that a
proof about one step only ever looks at the entries that step added.
-/
import Mathlib.Tactic.Common

namespace Trace

variable {α β : Type}

/-! ### What happened since -/

/-- The entries after the last one satisfying `p`, if there is one. -/
def sinceLast (p : α → Bool) : List α → Option (List α)
  | [] => none
  | a :: l =>
      match sinceLast p l with
      | some s => some s
      | none => if p a then some l else none

@[simp] theorem sinceLast_nil (p : α → Bool) : sinceLast p [] = none := rfl

/-- Later entries decide; only when none of them matches does the past. -/
theorem sinceLast_append (p : α → Bool) (l m : List α) :
    sinceLast p (l ++ m) =
      match sinceLast p m with
      | some s => some s
      | none => (sinceLast p l).map (· ++ m) := by
  induction l with
  | nil => cases h : sinceLast p m <;> simp [h]
  | cons a l ih =>
      rw [List.cons_append, sinceLast, ih]
      cases hm : sinceLast p m with
      | some s => rfl
      | none =>
          simp only [sinceLast]
          cases sinceLast p l with
          | some s => rfl
          | none => by_cases ha : p a = true <;> simp [ha]

theorem sinceLast_eq_none {p : α → Bool} {l : List α} (h : ∀ a ∈ l, p a = false) :
    sinceLast p l = none := by
  induction l with
  | nil => rfl
  | cons a l ih =>
      rw [sinceLast, ih (fun b hb => h b (by simp [hb])), h a (by simp)]
      rfl

/-- Entries that do not match only lengthen the tail. -/
theorem sinceLast_append_of_none {p : α → Bool} (l : List α) {m : List α}
    (hm : ∀ a ∈ m, p a = false) : sinceLast p (l ++ m) = (sinceLast p l).map (· ++ m) := by
  rw [sinceLast_append, sinceLast_eq_none hm]

/-- A matching entry followed by none starts the count afresh. -/
theorem sinceLast_append_cons {p : α → Bool} (l : List α) {m : List α} {a : α}
    (ha : p a = true) (hm : ∀ b ∈ m, p b = false) :
    sinceLast p (l ++ a :: m) = some m := by
  rw [sinceLast_append, sinceLast, sinceLast_eq_none hm]
  simp [ha]

section

variable [BEq α] [LawfulBEq α]

private theorem beq_eq_false_of_not_mem {a : α} {m : List α} (h : a ∉ m) :
    ∀ b ∈ m, (b == a) = false := by
  intro b hb
  refine beq_eq_false_iff_ne.mpr ?_
  rintro rfl
  exact h hb

/-- Looking back for one particular entry, past entries that are others. -/
theorem sinceLast_append_of_not_mem (l : List α) {m : List α} {a : α} (h : a ∉ m) :
    sinceLast (· == a) (l ++ m) = (sinceLast (· == a) l).map (· ++ m) :=
  sinceLast_append_of_none l (beq_eq_false_of_not_mem h)

theorem sinceLast_append_self (l : List α) {m : List α} {a : α} (h : a ∉ m) :
    sinceLast (· == a) (l ++ a :: m) = some m :=
  sinceLast_append_cons l (beq_self_eq_true a) (beq_eq_false_of_not_mem h)

end

/-! ### What was said last -/

/-- What the latest entry that `f` reads anything from says. -/
def latest (f : α → Option β) (l : List α) : Option β := (l.filterMap f).getLast?

@[simp] theorem latest_nil (f : α → Option β) : latest f [] = none := rfl

@[simp] theorem latest_append (f : α → Option β) (l m : List α) :
    latest f (l ++ m) = (latest f m).or (latest f l) := by
  simp [latest, List.getLast?_append]

@[simp] theorem latest_cons (f : α → Option β) (a : α) (l : List α) :
    latest f (a :: l) = (latest f l).or (f a) := by
  rw [← List.singleton_append, latest_append]
  cases h : f a <;> simp [latest, h]

theorem latest_eq_none {f : α → Option β} {l : List α} (h : ∀ a ∈ l, f a = none) :
    latest f l = none := by
  rw [latest, List.filterMap_eq_nil_iff.mpr h]
  rfl

theorem mem_of_latest {f : α → Option β} {l : List α} {b : β} (h : latest f l = some b) :
    ∃ a ∈ l, f a = some b :=
  List.mem_filterMap.mp (List.mem_of_getLast? h)

/-! ### A property of every entry and its past -/

/-- At every entry, `P` holds of what came before it and of the entry itself. -/
def AtEach (P : List α → α → Prop) (l : List α) : Prop :=
  ∀ pre a post, l = pre ++ a :: post → P pre a

@[simp] theorem atEach_nil (P : List α → α → Prop) : AtEach P [] := by
  intro pre a post h
  simp at h

theorem atEach_append {P : List α → α → Prop} {l m : List α} :
    AtEach P (l ++ m) ↔ AtEach P l ∧ AtEach (fun pre a => P (l ++ pre) a) m := by
  constructor
  · intro h
    refine ⟨fun pre a post hl => ?_, fun pre a post hm => ?_⟩
    · exact h pre a (post ++ m) (by simp [hl])
    · exact h (l ++ pre) a post (by simp [hm])
  · rintro ⟨hl, hm⟩ pre a post hsplit
    -- the split falls either inside `l` or inside `m`
    rcases List.append_eq_append_iff.mp hsplit with ⟨c, hpre, hrest⟩ | ⟨c, hl', hrest⟩
    · rw [hpre]
      exact hm c a post hrest
    · cases c with
      | nil =>
          simp only [List.append_nil] at hl'
          have := hm [] a post (by simpa using hrest.symm)
          simpa [hl'] using this
      | cons b c =>
          simp only [List.cons_append, List.cons.injEq] at hrest
          obtain ⟨rfl, -⟩ := hrest
          exact hl pre a c hl'

theorem atEach_cons {P : List α → α → Prop} {a : α} {l : List α} :
    AtEach P (a :: l) ↔ P [] a ∧ AtEach (fun pre b => P (a :: pre) b) l := by
  have hone : AtEach P [a] ↔ P [] a := by
    refine ⟨fun h => h [] a [] rfl, fun h pre b post hs => ?_⟩
    cases pre with
    | nil =>
        simp only [List.nil_append, List.cons.injEq] at hs
        rwa [← hs.1]
    | cons c pre => simp at hs
  have := atEach_append (P := P) (l := [a]) (m := l)
  rw [hone] at this
  simpa using this

theorem atEach_concat {P : List α → α → Prop} {l : List α} {a : α} :
    AtEach P (l ++ [a]) ↔ AtEach P l ∧ P l a := by
  rw [atEach_append, atEach_cons]
  simp

end Trace
