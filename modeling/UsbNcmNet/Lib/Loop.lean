/-
Loops whose body may raise.

Such a loop runs over the rounds 0, 1, 2, ... and has no result if its body has none
in some round: a `foldlM` over `List.range`.  An invariant says what holds before each
round, so it is indexed by the number of rounds that are over.
-/
import Mathlib.Tactic.Common

namespace Loop

variable {S : Type} {body : S → Nat → Option S}

theorem foldlM_range_succ (body : S → Nat → Option S) (s : S) (n : Nat) :
    (List.range (n + 1)).foldlM body s
      = ((List.range n).foldlM body s).bind fun s => body s n := by
  rw [List.range_succ, List.foldlM_append]
  simp

/-- An invariant kept by every round that does not raise holds when the loop returns. -/
theorem invariant {P : Nat → S → Prop} {s : S} (hinit : P 0 s)
    (hbody : ∀ i s s', P i s → body s i = some s' → P (i + 1) s') :
    ∀ {n : Nat} {s' : S}, (List.range n).foldlM body s = some s' → P n s' := by
  intro n
  induction n with
  | zero =>
      intro s' h
      obtain rfl : s = s' := Option.some.inj h
      exact hinit
  | succ n ih =>
      intro s' h
      rw [foldlM_range_succ, Option.bind_eq_some_iff] at h
      obtain ⟨t, ht, hs'⟩ := h
      exact hbody n t s' (ih ht) hs'

/-- A loop whose body never raises returns. -/
theorem returns (hbody : ∀ s i, ∃ s', body s i = some s') (s : S) :
    ∀ n, ∃ s', (List.range n).foldlM body s = some s' := by
  intro n
  induction n with
  | zero => exact ⟨s, rfl⟩
  | succ n ih =>
      obtain ⟨t, ht⟩ := ih
      obtain ⟨s', hs'⟩ := hbody t n
      refine ⟨s', ?_⟩
      rw [foldlM_range_succ, ht, Option.bind_some, hs']

end Loop
