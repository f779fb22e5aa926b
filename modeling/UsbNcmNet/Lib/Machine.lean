/-
Machines driven by events.

A machine has an initial state and a total step; whatever the environment may
choose is part of the event.  `run_induction` is the rule every invariant of the
development goes through: true at the start, kept by one step, so true after
every finite sequence of events.

A simulation maps the states of one machine to those of another and says which
step of the second, if any, an event of the first amounts to.  `Simulation.run`
then carries a whole run across.
-/
import Mathlib.Data.List.Induction
import Mathlib.Tactic.Common

/-- A deterministic machine over states `S` and events `E`. -/
structure Machine (S E : Type) where
  init : S
  step : S → E → S

namespace Machine

variable {S E T F : Type}

/-- The state after a sequence of events. -/
def run (m : Machine S E) (evs : List E) : S := evs.foldl m.step m.init

@[simp] theorem run_nil (m : Machine S E) : m.run [] = m.init := rfl

theorem run_append (m : Machine S E) (evs evs' : List E) :
    m.run (evs ++ evs') = evs'.foldl m.step (m.run evs) :=
  List.foldl_append

@[simp] theorem run_concat (m : Machine S E) (evs : List E) (e : E) :
    m.run (evs ++ [e]) = m.step (m.run evs) e := by
  simp [run]

/-- An invariant that may mention the events so far holds after every run. -/
theorem run_induction (m : Machine S E) {P : List E → S → Prop} (hinit : P [] m.init)
    (hstep : ∀ evs s e, P evs s → P (evs ++ [e]) (m.step s e)) :
    ∀ evs, P evs (m.run evs) := by
  intro evs
  induction evs using List.reverseRecOn with
  | nil => exact hinit
  | append_singleton evs e ih =>
      rw [run_concat]
      exact hstep evs (m.run evs) e ih

/-- From any state, an invariant kept by the allowed events survives them all. -/
theorem foldl_induction (m : Machine S E) {P : S → Prop} (ok : E → Prop)
    (hstep : ∀ s e, ok e → P s → P (m.step s e)) :
    ∀ (evs : List E) (s : S), (∀ e ∈ evs, ok e) → P s → P (evs.foldl m.step s) := by
  intro evs
  induction evs with
  | nil => intro s _ hs; exact hs
  | cons e evs ih =>
      intro s hok hs
      exact ih (m.step s e) (fun e' he' => hok e' (by simp [he']))
        (hstep s e (hok e (by simp)) hs)

/--
Unwinding.  If an event of the run that is not visible keeps two states related when it
happens on the left alone, and a visible one when it happens on both sides, then leaving
out what is not visible ends in a related state.
-/
theorem run_filter (m : Machine S E) {R : S → S → Prop} (visible : E → Bool)
    (hinit : R m.init m.init) (evs : List E)
    (hhidden : ∀ e ∈ evs, visible e = false → ∀ s s', R s s' → R (m.step s e) s')
    (hvisible : ∀ e ∈ evs, visible e = true → ∀ s s', R s s' → R (m.step s e) (m.step s' e)) :
    R (m.run evs) (m.run (evs.filter visible)) := by
  induction evs using List.reverseRecOn with
  | nil => exact hinit
  | append_singleton evs e ih =>
      have hrel := ih (fun e' he' => hhidden e' (by simp [he'])) fun e' he' =>
        hvisible e' (by simp [he'])
      rw [List.filter_append, run_concat]
      cases he : visible e with
      | false =>
          rw [List.filter_cons_of_neg (by simp [he]), List.filter_nil, List.append_nil]
          exact hhidden e (by simp) he _ _ hrel
      | true =>
          rw [List.filter_cons_of_pos he, List.filter_nil, run_concat]
          exact hvisible e (by simp) he _ _ hrel

/-! ### Restriction to an invariant -/

/-- The machine on those states only that satisfy an invariant. -/
def restrict (m : Machine S E) (P : S → Prop) (hinit : P m.init)
    (hstep : ∀ s e, P s → P (m.step s e)) : Machine { s // P s } E where
  init := ⟨m.init, hinit⟩
  step s e := ⟨m.step s.1 e, hstep s.1 e s.2⟩

/-- It runs as before. -/
theorem restrict_run (m : Machine S E) {P : S → Prop} (hinit : P m.init)
    (hstep : ∀ s e, P s → P (m.step s e)) (evs : List E) :
    ((m.restrict P hinit hstep).run evs).1 = m.run evs := by
  induction evs using List.reverseRecOn with
  | nil => rfl
  | append_singleton evs e ih =>
      rw [run_concat, run_concat, ← ih]
      rfl

/-! ### Simulation -/

/-- Every event of `m` is one step of `a` on the abstracted state, or none. -/
structure Simulation (m : Machine S E) (a : Machine T F) where
  /-- What a concrete state stands for. -/
  abs : S → T
  /-- The abstract step an event amounts to in a state, `none` for a stutter. -/
  label : S → E → Option F
  init : abs m.init = a.init
  step : ∀ s e, abs (m.step s e) = ((label s e).map (a.step (abs s))).getD (abs s)

namespace Simulation

variable {m : Machine S E} {a : Machine T F}

/-- The abstract steps a run from `s` amounts to, in order. -/
def labelsFrom (sim : Simulation m a) : S → List E → List F
  | _, [] => []
  | s, e :: evs => (sim.label s e).toList ++ sim.labelsFrom (m.step s e) evs

/-- The abstract steps of a run from the initial state. -/
def labels (sim : Simulation m a) (evs : List E) : List F := sim.labelsFrom m.init evs

private theorem foldl_abs (sim : Simulation m a) (evs : List E) :
    ∀ s : S, sim.abs (evs.foldl m.step s) = (sim.labelsFrom s evs).foldl a.step (sim.abs s) := by
  induction evs with
  | nil => intro s; rfl
  | cons e evs ih =>
      intro s
      rw [List.foldl_cons, ih, labelsFrom, List.foldl_append, sim.step]
      cases sim.label s e <;> rfl

/-- **A run is the run of its labels.** -/
theorem run (sim : Simulation m a) (evs : List E) :
    sim.abs (m.run evs) = a.run (sim.labels evs) := by
  unfold Machine.run labels
  rw [foldl_abs, sim.init]

theorem labelsFrom_append (sim : Simulation m a) (evs evs' : List E) :
    ∀ s : S, sim.labelsFrom s (evs ++ evs')
      = sim.labelsFrom s evs ++ sim.labelsFrom (evs.foldl m.step s) evs' := by
  induction evs with
  | nil => intro s; rfl
  | cons e evs ih =>
      intro s
      rw [List.cons_append, labelsFrom, labelsFrom, ih, List.append_assoc, List.foldl_cons]

/-- One more event adds its own label, if it has one. -/
theorem labels_concat (sim : Simulation m a) (evs : List E) (e : E) :
    sim.labels (evs ++ [e]) = sim.labels evs ++ (sim.label (m.run evs) e).toList := by
  unfold labels
  rw [labelsFrom_append]
  show _ ++ ((sim.label (m.run evs) e).toList ++ []) = _
  rw [List.append_nil]

/-- Where the label depends on the event alone, no run is needed to find the labels. -/
theorem labels_eq_filterMap (sim : Simulation m a) {f : E → Option F}
    (hf : ∀ s e, sim.label s e = f e) (evs : List E) : sim.labels evs = evs.filterMap f := by
  induction evs using List.reverseRecOn with
  | nil => rfl
  | append_singleton evs e ih =>
      rw [labels_concat, ih, hf, List.filterMap_append]
      cases he : f e <;> simp [he]

end Simulation

end Machine
