/-
Threads that share a state under one lock.

A program is the tree of its atomic actions: each replaces the shared state, and what
follows may depend on what the action found.  A thread waits for the lock, works
through its program inside, and leaves with a result; between two of its actions any
other thread may move.

`serialised` says that the lock makes the programs atomic: whenever it is free, the
shared state is the one the programs leave when they run one after another in the
order in which the threads got in, and every thread that has left has the result it
has there.  The invariant behind it follows the holder: what is left of its program
still has to come out where the whole of it would have come out alone.
-/
import Mathlib.Logic.Function.Basic
import Mathlib.Logic.Relation
import Mathlib.Tactic.Common

/-- A program over the shared state `S`, as the sequence of its atomic actions. -/
inductive Prog (S α : Type)
  | done (a : α)
  | act (f : S → S) (next : S → Prog S α)

namespace Prog

variable {S α β : Type}

def bind (p : Prog S α) (k : α → Prog S β) : Prog S β :=
  match p with
  | .done a => k a
  | .act f next => .act f fun s => (next s).bind k

instance : Monad (Prog S) where
  pure := .done
  bind := .bind

/-- Look at the shared state. -/
def read : Prog S S := .act id .done

/-- Replace the shared state. -/
def modify (f : S → S) : Prog S Unit := .act f fun _ => .done ()

/-- All actions in a row, with nothing in between. -/
def run : Prog S α → S → α × S
  | .done a, s => (a, s)
  | .act f next, s => (next s).run (f s)

@[simp] theorem run_done (a : α) (s : S) : (Prog.done a).run s = (a, s) := rfl

@[simp] theorem run_pure (a : α) (s : S) : (pure a : Prog S α).run s = (a, s) := rfl

@[simp] theorem run_read (s : S) : (read : Prog S S).run s = (s, s) := rfl

@[simp] theorem run_modify (f : S → S) (s : S) : (modify f).run s = ((), f s) := rfl

@[simp] theorem run_bind (p : Prog S α) (k : α → Prog S β) (s : S) :
    (p >>= k).run s = (k (p.run s).1).run (p.run s).2 := by
  show (p.bind k).run s = _
  induction p generalizing s with
  | done a => rfl
  | act f next ih => exact ih s (f s)

@[simp] theorem run_ite (c : Prop) [Decidable c] (p q : Prog S α) (s : S) :
    (if c then p else q).run s = if c then p.run s else q.run s := by
  split <;> rfl

end Prog

namespace Mutex

variable {ι S α : Type}

/-! ### Threads -/

/-- Where a thread is. -/
inductive Phase (S α : Type)
  | waiting
  | inside (rest : Prog S α)
  | left (a : α)

structure Config (ι S α : Type) where
  shared : S
  holder : Option ι
  phase : ι → Phase S α
  /-- The threads that have got in, in that order. -/
  order : List ι

/-- Every thread outside, and the lock free. -/
def Config.start (s : S) : Config ι S α :=
  { shared := s, holder := none, phase := fun _ => .waiting, order := [] }

/-- One move of one thread; which one is up to the scheduler. -/
inductive Step [DecidableEq ι] (body : ι → Prog S α) : Config ι S α → Config ι S α → Prop
  | lock {c : Config ι S α} (i : ι) (hwaiting : c.phase i = .waiting) (hfree : c.holder = none) :
      Step body c
        { c with
          holder := some i, phase := Function.update c.phase i (.inside (body i))
          order := c.order ++ [i] }
  | act {c : Config ι S α} (i : ι) {f : S → S} {next : S → Prog S α}
      (hinside : c.phase i = .inside (.act f next)) :
      Step body c
        { c with
          shared := f c.shared
          phase := Function.update c.phase i (.inside (next c.shared)) }
  | unlock {c : Config ι S α} (i : ι) {a : α} (hinside : c.phase i = .inside (.done a)) :
      Step body c { c with holder := none, phase := Function.update c.phase i (.left a) }

/-- What can come about from all threads outside. -/
def Reachable [DecidableEq ι] (body : ι → Prog S α) (s : S) : Config ι S α → Prop :=
  Relation.ReflTransGen (Step body) (Config.start s)

/-! ### One after another -/

/-- The state after the given threads have run their programs, each alone. -/
def serial (body : ι → Prog S α) (s : S) (order : List ι) : S :=
  order.foldl (fun s i => ((body i).run s).2) s

theorem serial_concat (body : ι → Prog S α) (s : S) (order : List ι) (i : ι) :
    serial body s (order ++ [i]) = ((body i).run (serial body s order)).2 := by
  simp [serial]

/-- The result of a thread that runs its program alone after the threads in `past`. -/
def resultAfter (body : ι → Prog S α) (s : S) (past : List ι) (i : ι) : α :=
  ((body i).run (serial body s past)).1

/-- The thread holds the lock, and its program will come out where it would have alone. -/
structure Holds (body : ι → Prog S α) (s : S) (c : Config ι S α) (i : ι) (past : List ι)
    (rest : Prog S α) : Prop where
  order : c.order = past ++ [i]
  phase : c.phase i = .inside rest
  outcome : rest.run c.shared = (body i).run (serial body s past)

structure Serialised (body : ι → Prog S α) (s : S) (c : Config ι S α) : Prop where
  once : c.order.Nodup
  waiting : ∀ i, c.phase i = .waiting ↔ i ∉ c.order
  exclusive : ∀ i rest, c.phase i = .inside rest → c.holder = some i
  free : c.holder = none → c.shared = serial body s c.order
  held : ∀ i, c.holder = some i → ∃ past rest, Holds body s c i past rest
  left : ∀ i a, c.phase i = .left a →
    ∃ past later, c.order = past ++ i :: later ∧ a = resultAfter body s past i

variable {body : ι → Prog S α} {s : S} {c c' : Config ι S α}

theorem serialised_start : Serialised body s (Config.start s) where
  once := List.nodup_nil
  waiting i := by simp [Config.start]
  exclusive i rest h := by simp [Config.start] at h
  free _ := rfl
  held i h := by simp [Config.start] at h
  left i a h := by simp [Config.start] at h

section

variable [DecidableEq ι]

/-- Moving one thread: the others are where they were. -/
theorem update_cases {phase : ι → Phase S α} {i j : ι} {p q : Phase S α}
    (h : Function.update phase i p j = q) : (j = i ∧ p = q) ∨ (j ≠ i ∧ phase j = q) := by
  by_cases hj : j = i
  · subst hj
    rw [Function.update_self] at h
    exact .inl ⟨rfl, h⟩
  · rw [Function.update_of_ne hj] at h
    exact .inr ⟨hj, h⟩

theorem Serialised.lock (h : Serialised body s c) {i : ι} (hwaiting : c.phase i = .waiting)
    (hfree : c.holder = none) :
    Serialised body s
      { c with
        holder := some i, phase := Function.update c.phase i (.inside (body i))
        order := c.order ++ [i] } := by
  have hnew : i ∉ c.order := (h.waiting i).mp hwaiting
  refine ⟨?_, ?_, ?_, ?_, ?_, ?_⟩
  · rw [List.nodup_append]
    refine ⟨h.once, by simp, ?_⟩
    intro a ha b hb hab
    rw [List.mem_singleton.mp hb] at hab
    exact hnew (hab ▸ ha)
  · intro j
    show Function.update c.phase i (.inside (body i)) j = .waiting ↔ j ∉ c.order ++ [i]
    by_cases hj : j = i
    · subst hj
      simp
    · rw [Function.update_of_ne hj, h.waiting j]
      simp [hj]
  · intro j rest hphase
    rcases update_cases hphase with ⟨rfl, -⟩ | ⟨-, hphase⟩
    · rfl
    · -- nobody was inside
      have hheld := h.exclusive j rest hphase
      rw [hfree] at hheld
      simp at hheld
  · intro hnone
    simp at hnone
  · intro j hj
    obtain rfl : i = j := Option.some.inj hj
    refine ⟨c.order, body i, rfl, Function.update_self .., ?_⟩
    show (body i).run c.shared = _
    rw [h.free hfree]
  · intro j a hphase
    rcases update_cases hphase with ⟨-, hphase⟩ | ⟨-, hphase⟩
    · simp at hphase
    · obtain ⟨past, later, horder, ha⟩ := h.left j a hphase
      refine ⟨past, later ++ [i], ?_, ha⟩
      show c.order ++ [i] = _
      rw [horder]
      simp

theorem Serialised.act (h : Serialised body s c) {i : ι} {f : S → S} {next : S → Prog S α}
    (hinside : c.phase i = .inside (.act f next)) :
    Serialised body s
      { c with
        shared := f c.shared
        phase := Function.update c.phase i (.inside (next c.shared)) } := by
  have hholder := h.exclusive i _ hinside
  obtain ⟨past, rest, horder, hphase, hrun⟩ := h.held i hholder
  obtain rfl : Prog.act f next = rest := by
    rw [hphase] at hinside
    exact (Phase.inside.inj hinside).symm
  refine ⟨h.once, ?_, ?_, ?_, ?_, ?_⟩
  · intro j
    show Function.update c.phase i _ j = .waiting ↔ j ∉ c.order
    by_cases hj : j = i
    · subst hj
      simp [horder]
    · rw [Function.update_of_ne hj]
      exact h.waiting j
  · intro j rest hphase
    rcases update_cases hphase with ⟨rfl, -⟩ | ⟨-, hphase⟩
    · exact hholder
    · exact h.exclusive j rest hphase
  · intro hnone
    exact absurd (hnone.symm.trans hholder) (by simp)
  · intro j hj
    obtain rfl : i = j := Option.some.inj (hholder.symm.trans hj)
    exact ⟨past, next c.shared, horder, Function.update_self .., hrun⟩
  · intro j a hphase
    rcases update_cases hphase with ⟨-, hphase⟩ | ⟨-, hphase⟩
    · simp at hphase
    · exact h.left j a hphase

theorem Serialised.unlock (h : Serialised body s c) {i : ι} {a : α}
    (hinside : c.phase i = .inside (.done a)) :
    Serialised body s
      { c with holder := none, phase := Function.update c.phase i (.left a) } := by
  have hholder := h.exclusive i _ hinside
  obtain ⟨past, rest, horder, hphase, hrun⟩ := h.held i hholder
  obtain rfl : Prog.done a = rest := by
    rw [hphase] at hinside
    exact (Phase.inside.inj hinside).symm
  have hdone : (a, c.shared) = (body i).run (serial body s past) := hrun
  refine ⟨h.once, ?_, ?_, ?_, ?_, ?_⟩
  · intro j
    show Function.update c.phase i _ j = .waiting ↔ j ∉ c.order
    by_cases hj : j = i
    · subst hj
      simp [horder]
    · rw [Function.update_of_ne hj]
      exact h.waiting j
  · intro j rest hphase
    rcases update_cases hphase with ⟨-, hphase⟩ | ⟨hne, hphase⟩
    · simp at hphase
    · have hj := h.exclusive j rest hphase
      exact absurd (Option.some.inj (hj.symm.trans hholder)) hne
  · intro _
    show c.shared = _
    rw [horder, serial_concat, ← hdone]
  · intro j hj
    simp at hj
  · intro j b hphase
    rcases update_cases hphase with ⟨hj, hleft⟩ | ⟨-, hleft⟩
    · obtain rfl : a = b := Phase.left.inj hleft
      refine ⟨past, [], by rw [hj, horder], ?_⟩
      rw [resultAfter, hj, ← hdone]
    · exact h.left j b hleft

theorem Serialised.step (h : Serialised body s c) (hstep : Step body c c') :
    Serialised body s c' := by
  cases hstep with
  | lock i hwaiting hfree => exact h.lock hwaiting hfree
  | act i hinside => exact h.act hinside
  | unlock i hinside => exact h.unlock hinside

/-- **The lock makes the programs atomic.** -/
theorem serialised (h : Reachable body s c) : Serialised body s c := by
  induction h with
  | refl => exact serialised_start
  | tail _ hstep ih => exact ih.step hstep

/-- At most one thread is inside. -/
theorem mutual_exclusion (h : Reachable body s c) {i j : ι} {p q : Prog S α}
    (hi : c.phase i = .inside p) (hj : c.phase j = .inside q) : i = j := by
  have hinv := serialised h
  exact Option.some.inj ((hinv.exclusive i p hi).symm.trans (hinv.exclusive j q hj))

/-- What is true of every program, and of what is left of it after an action, is true inside. -/
theorem inside_induction {P : Prog S α → Prop} (hbody : ∀ i, P (body i))
    (hact : ∀ f next s, P (.act f next) → P (next s)) (h : Reachable body s c) :
    ∀ i rest, c.phase i = .inside rest → P rest := by
  induction h with
  | refl =>
      intro i rest hinside
      simp [Config.start] at hinside
  | tail _ hstep ih =>
      intro j rest hinside
      cases hstep with
      | lock i hwaiting hfree =>
          rcases update_cases hinside with ⟨-, hbegun⟩ | ⟨-, hinside⟩
          · rw [← Phase.inside.inj hbegun]
            exact hbody i
          · exact ih j rest hinside
      | act i hacting =>
          rcases update_cases hinside with ⟨-, hleft⟩ | ⟨-, hinside⟩
          · rw [← Phase.inside.inj hleft]
            exact hact _ _ _ (ih i _ hacting)
          · exact ih j rest hinside
      | unlock i hdone =>
          rcases update_cases hinside with ⟨-, hleft⟩ | ⟨-, hinside⟩
          · simp at hleft
          · exact ih j rest hinside

/-! ### Everyone gets through -/

variable (body) in
/-- A thread inside can work through its program and leave. -/
theorem leaves {i : ι} (rest : Prog S α) : ∀ c : Config ι S α, c.phase i = .inside rest →
    ∃ c', Relation.ReflTransGen (Step body) c c' ∧ c'.holder = none ∧
      (∃ a, c'.phase i = .left a) ∧ ∀ j, j ≠ i → c'.phase j = c.phase j := by
  induction rest with
  | done a =>
      intro c hinside
      refine ⟨_, .single (.unlock i hinside), rfl, ⟨a, Function.update_self ..⟩, ?_⟩
      intro j hj
      exact Function.update_of_ne hj ..
  | act f next ih =>
      intro c hinside
      obtain ⟨c', hsteps, hfree, hleft, hothers⟩ :=
        ih c.shared { c with
          shared := f c.shared
          phase := Function.update c.phase i (.inside (next c.shared)) }
          (Function.update_self ..)
      refine ⟨c', .head (.act i hinside) hsteps, hfree, hleft, ?_⟩
      intro j hj
      rw [hothers j hj]
      exact Function.update_of_ne hj ..

/-- **No deadlock.**  Wherever the threads are, each of them can still be brought through. -/
theorem gets_through (h : Reachable body s c) (i : ι) :
    ∃ c', Reachable body s c' ∧ Relation.ReflTransGen (Step body) c c' ∧
      ∃ a, c'.phase i = .left a := by
  have hinv := serialised h
  -- first the holder, if there is one, is brought out
  obtain ⟨c₁, hsteps₁, hfree, hphase⟩ : ∃ c₁, Relation.ReflTransGen (Step body) c c₁ ∧
      c₁.holder = none ∧ ((∃ a, c₁.phase i = .left a) ∨ c₁.phase i = c.phase i) := by
    rcases hholder : c.holder with _ | j
    · exact ⟨c, .refl, hholder, .inr rfl⟩
    · obtain ⟨_, rest, -, hinside, -⟩ := hinv.held j hholder
      obtain ⟨c', hsteps, hfree, hleft, hothers⟩ := leaves body rest c hinside
      by_cases hi : i = j
      · subst hi
        exact ⟨c', hsteps, hfree, .inl hleft⟩
      · exact ⟨c', hsteps, hfree, .inr (hothers i hi)⟩
  have hreach₁ : Reachable body s c₁ := Relation.ReflTransGen.trans h hsteps₁
  rcases hnow : c₁.phase i with _ | rest | a
  · -- then the thread itself
    obtain ⟨c', hsteps, -, hleft, -⟩ := @leaves _ _ _ body _ i (body i)
      { c₁ with
        holder := some i, phase := Function.update c₁.phase i (.inside (body i))
        order := c₁.order ++ [i] } (Function.update_self ..)
    have hall : Relation.ReflTransGen (Step body) c₁ c' := .head (.lock i hnow hfree) hsteps
    exact ⟨c', hreach₁.trans hall, hsteps₁.trans hall, hleft⟩
  · have hheld := (serialised hreach₁).exclusive i rest hnow
    rw [hfree] at hheld
    simp at hheld
  · exact ⟨c₁, hreach₁, hsteps₁, a, hnow⟩

end

end Mutex
