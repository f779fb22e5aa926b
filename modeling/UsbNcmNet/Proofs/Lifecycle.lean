/-
The engine context's life cycle.

`edhoc_context_init` and `edhoc_context_deinit` should come in pairs, with
`edhoc_ctx_active` telling which of the two is next.  They do, except on one
path: when `edhoc_context_init` succeeds and a later call of `edhoc_setup` fails,
the caller sees only the failure, the flag was never set, and the cleanup that
the flag guards is skipped.  The context is lost, and the next message_1
initialises over it.

`balanced_iff` says that this is the only path: a run is balanced in all its
states exactly when no POST in it takes it.
-/
import UsbNcmNet.Proofs.Handshake

namespace UsbNcmNet

open Trace

variable {σ : Type}

/-! ### Balance -/

/-- The last context that was initialised has not been deinitialised. -/
def Live (ops : List Op) : Prop :=
  ∃ since, sinceLast (· == .init true) ops = some since ∧ Op.deinit ∉ since

/-- Whatever context was last initialised has been deinitialised, once. -/
def Dropped (ops : List Op) : Prop :=
  ∀ since, sinceLast (· == .init true) ops = some since → since.count .deinit = 1

/--
Inits and deinits alternate: no init while a context is live and exactly one
deinit since the one before, no deinit unless one is live, and the flag says
which.
-/
structure Balanced (ops : List Op) (active : Bool) : Prop where
  init : AtEach (fun past c => (∃ ok, c = .init ok) → Dropped past) ops
  deinit : AtEach (fun past c => c = .deinit → Live past) ops
  flag : active = true ↔ Live ops

theorem live_init (ops : List Op) : Live (ops ++ [.init true]) :=
  ⟨[], sinceLast_append_self ops (by simp), by simp⟩

/-- Any other call leaves a live context live. -/
theorem live_pass {ops : List Op} {c : Op} (hlive : Live ops) (hinit : c ≠ .init true)
    (hdeinit : c ≠ .deinit) : Live (ops ++ [c]) := by
  obtain ⟨since, hsince, hnot⟩ := hlive
  refine ⟨since ++ [c], ?_, by simp [hnot, hdeinit.symm]⟩
  rw [sinceLast_append_of_not_mem ops (by simpa using hinit.symm), hsince]
  rfl

theorem dropped_deinit {ops : List Op} (hlive : Live ops) : Dropped (ops ++ [.deinit]) := by
  obtain ⟨since, hsince, hnot⟩ := hlive
  intro since' hsince'
  rw [sinceLast_append_of_not_mem ops (by simp), hsince] at hsince'
  rw [← Option.some.inj hsince', List.count_append, List.count_eq_zero.mpr hnot]
  rfl

/-- And a dropped one dropped. -/
theorem dropped_pass {ops : List Op} {c : Op} (hdrop : Dropped ops) (hinit : c ≠ .init true)
    (hdeinit : c ≠ .deinit) : Dropped (ops ++ [c]) := by
  intro since hsince
  rw [sinceLast_append_of_not_mem ops (by simpa using hinit.symm)] at hsince
  obtain ⟨since', hsince', rfl⟩ := Option.map_eq_some_iff.mp hsince
  rw [List.count_append, hdrop since' hsince', List.count_singleton]
  simp [hdeinit]

/-- A live context has not been dropped. -/
theorem not_live_of_dropped {ops : List Op} (hdrop : Dropped ops) : ¬ Live ops := by
  rintro ⟨since, hsince, hnot⟩
  have := hdrop since hsince
  rw [List.count_eq_zero.mpr hnot] at this
  exact absurd this (by decide)

/-! ### The leak -/

/-- The engine initialises the context and then refuses one of the calls that configure it. -/
def Engine.leaks (eng : Engine σ) : Bool :=
  decide (eng.contextInit = EDHOC_SUCCESS) && !eng.configures

/-- A message_1 POST whose setup leaks the context. -/
def Event.leaks : Event σ → Bool
  | .edhoc request eng => startsMessage1 request.payload && eng.leaks
  | _ => false

/-- The invariant of runs without a leak: balanced, and dropped while the flag is clear. -/
structure LifecycleInv (ops : List Op) (active : Bool) : Prop extends Balanced ops active where
  dropped : active = false → Dropped ops

/-! ### One call at a time -/

namespace LifecycleInv

variable {ops : List Op} {active : Bool}

theorem initSucceeds (h : LifecycleInv ops false) : LifecycleInv (ops ++ [.init true]) true where
  init := atEach_concat.mpr ⟨h.init, fun _ => h.dropped rfl⟩
  deinit := atEach_concat.mpr ⟨h.deinit, by simp⟩
  flag := iff_of_true rfl (live_init ops)
  dropped hc := Bool.noConfusion hc

theorem initFails (h : LifecycleInv ops false) : LifecycleInv (ops ++ [.init false]) false where
  init := atEach_concat.mpr ⟨h.init, fun _ => h.dropped rfl⟩
  deinit := atEach_concat.mpr ⟨h.deinit, by simp⟩
  flag := iff_of_false (by simp)
    (not_live_of_dropped (dropped_pass (h.dropped rfl) (by simp) (by simp)))
  dropped _ := dropped_pass (h.dropped rfl) (by simp) (by simp)

theorem drop (h : LifecycleInv ops true) : LifecycleInv (ops ++ [.deinit]) false where
  init := atEach_concat.mpr ⟨h.init, by simp⟩
  deinit := atEach_concat.mpr ⟨h.deinit, fun _ => h.flag.mp rfl⟩
  flag := iff_of_false (by simp) (not_live_of_dropped (dropped_deinit (h.flag.mp rfl)))
  dropped _ := dropped_deinit (h.flag.mp rfl)

/-- Calls that neither initialise nor deinitialise. -/
theorem pass (h : LifecycleInv ops active) {c : Op} (hinit : ∀ ok, c ≠ .init ok)
    (hdeinit : c ≠ .deinit) : LifecycleInv (ops ++ [c]) active where
  init := atEach_concat.mpr ⟨h.init, fun ⟨ok, hc⟩ => absurd hc (hinit ok)⟩
  deinit := atEach_concat.mpr ⟨h.deinit, fun hc => absurd hc hdeinit⟩
  flag := by
    cases active with
    | true => exact iff_of_true rfl (live_pass (h.flag.mp rfl) (hinit true) hdeinit)
    | false =>
        exact iff_of_false (by simp)
          (not_live_of_dropped (dropped_pass (h.dropped rfl) (hinit true) hdeinit))
  dropped hc := dropped_pass (h.dropped hc) (hinit true) hdeinit

/-- A run of such calls. -/
theorem passAll (h : LifecycleInv ops active) (cs : List Op) (hinit : ∀ ok, Op.init ok ∉ cs)
    (hdeinit : Op.deinit ∉ cs) : LifecycleInv (ops ++ cs) active := by
  induction cs generalizing ops with
  | nil => simpa using h
  | cons c cs ih =>
      have hc := h.pass (c := c) (fun ok heq => hinit ok (by simp [heq]))
        (fun heq => hdeinit (by simp [heq]))
      have := ih hc (fun ok hmem => hinit ok (by simp [hmem]))
        (fun hmem => hdeinit (by simp [hmem]))
      simpa using this

theorem reset (h : LifecycleInv ops active) : LifecycleInv (ops ++ resetOps active) false := by
  cases active with
  | false => simpa [resetOps] using h
  | true => exact h.drop

end LifecycleInv

/-! ### One request at a time -/

/-- The message_1 half of a POST that does not leak. -/
private theorem lifecycle_message1 {eng : Engine σ} {ops new : List Op} {active active' : Bool}
    (h : LifecycleInv ops active) (hleak : eng.leaks = false) (hnew : Message1Ops eng new active') :
    LifecycleInv (ops ++ (resetOps active ++ new)) active' := by
  rw [← List.append_assoc]
  have hreset := h.reset
  generalize ops ++ resetOps active = past at hreset
  cases hnew with
  | initFailed _ => exact hreset.initFails
  | configureFailed hinit hconf =>
      -- this is the leak
      simp [Engine.leaks, hinit, hconf] at hleak
  | message1Failed _ _ =>
      have := (hreset.initSucceeds.passAll [.message1 false] (by simp) (by simp)).drop
      simpa using this
  | message2Failed _ _ =>
      have := (hreset.initSucceeds.passAll [.message1 true, .message2 false]
        (by simp) (by simp)).drop
      simpa using this
  | composed _ _ =>
      have := hreset.initSucceeds.passAll [.message1 true, .message2 true]
        (by simp) (by simp)
      simpa using this

/-- The message_3 half: whatever fails, the context goes at the end and only there. -/
private theorem message3_shape {new : List Op} (h : Message3Ops new) :
    ∃ body, new = body ++ [.deinit] ∧ Op.deinit ∉ body ∧ ∀ ok, Op.init ok ∉ body := by
  cases h with
  | message3Failed => exact ⟨[.message3 false], by simp⟩
  | message4Failed => exact ⟨[.message3 true, .message4 false], by simp⟩
  | exportFailed => exact ⟨[.message3 true, .message4 true, .exportSession false], by simp⟩
  | contextFailed =>
      exact ⟨[.message3 true, .message4 true, .exportSession true, .keyOscore false], by simp⟩
  | keyed =>
      exact ⟨[.message3 true, .message4 true, .exportSession true, .keyOscore true], by simp⟩

private theorem lifecycle_message3 {ops new : List Op} (h : LifecycleInv ops true)
    (hnew : Message3Ops new) : LifecycleInv (ops ++ new) false := by
  obtain ⟨body, rfl, hdeinit, hinit⟩ := message3_shape hnew
  rw [← List.append_assoc]
  exact (h.passAll body hinit hdeinit).drop

theorem lifecycleInv_post {eng : Engine σ} {payload : Option Bytes} {ops ops' : List Op}
    {active active' : Bool} (h : LifecycleInv ops active)
    (hleak : (startsMessage1 payload && eng.leaks) = false)
    (hpost : PostOps eng payload ops active ops' active') : LifecycleInv ops' active' := by
  cases hpost with
  | ignored _ => exact h
  | message1 hstart hnew => exact lifecycle_message1 h (by simpa [hstart] using hleak) hnew
  | message3 _ hactive hnew =>
      subst hactive
      exact lifecycle_message3 h hnew

theorem lifecycleInv_step {b : Board σ} (h : LifecycleInv b.ops b.dev.edhocCtxActive)
    {e : Event σ} (hleak : e.leaks = false) :
    LifecycleInv (b.step e).ops (b.step e).dev.edhocCtxActive := by
  rcases e.edhoc_or_not with ⟨request, eng, rfl⟩ | he
  · exact lifecycleInv_post h hleak (post_ops eng request b)
  · obtain ⟨hops, hactive⟩ := ops_of_not_edhoc (b := b) he
    rwa [hops, hactive]

theorem lifecycleInv_run (ctx : σ) {evs : List (Event σ)} (hleak : ∀ e ∈ evs, e.leaks = false) :
    LifecycleInv ((board ctx).run evs).ops ((board ctx).run evs).dev.edhocCtxActive := by
  refine (board ctx).foldl_induction (P := fun b => LifecycleInv b.ops b.dev.edhocCtxActive)
    (fun e => e.leaks = false) (fun b e he hb => lifecycleInv_step hb he) evs _ hleak ?_
  refine ⟨⟨?_, ?_, ?_⟩, ?_⟩
  · simp [board, Board.ops]
  · simp [board, Board.ops]
  · simp [board, Board.ops, Device.boot, Live]
  · simp [board, Board.ops, Dropped]

/-- A leak leaves a live context behind a clear flag. -/
theorem not_balanced_of_leak {b : Board σ} {e : Event σ} (h : e.leaks = true) :
    ¬ Balanced (b.step e).ops (b.step e).dev.edhocCtxActive := by
  intro hbal
  cases e with
  | edhoc request eng =>
      simp only [Event.leaks, Engine.leaks, Bool.and_eq_true, decide_eq_true_eq,
        Bool.not_eq_true'] at h
      obtain ⟨hstart, hinit, hconf⟩ := h
      have hpost := post_ops eng request b
      generalize (b.step (.edhoc request eng)).ops = ops' at hpost hbal
      generalize (b.step (.edhoc request eng)).dev.edhocCtxActive = active' at hpost hbal
      cases hpost with
      | ignored hstart' => rw [hstart] at hstart'; exact Bool.noConfusion hstart'
      | message3 hstart' _ _ => rw [hstart] at hstart'; exact Bool.noConfusion hstart'
      | message1 _ hnew =>
          cases hnew with
          | configureFailed _ _ =>
              have hlive : Live (b.ops ++ (resetOps b.dev.edhocCtxActive ++ [.init true])) := by
                rw [← List.append_assoc]
                exact live_init _
              exact Bool.noConfusion (hbal.flag.mpr hlive)
          | initFailed hinit' => exact absurd hinit hinit'
          | _ _ hconf' => rw [hconf] at hconf'; exact Bool.noConfusion hconf'
  | oscore osc => exact Bool.noConfusion h
  | app request gpio send => exact Bool.noConfusion h

/--
**The life cycle is balanced exactly when no setup leaks.**  Inits and deinits
alternate in every state a run goes through, with `edhoc_ctx_active` marking a
live context, if and only if no message_1 POST of the run has its
`edhoc_context_init` succeed and a later call of `edhoc_setup` fail.
-/
theorem balanced_iff (ctx : σ) (evs : List (Event σ)) :
    (∀ pre, pre <+: evs →
      Balanced ((board ctx).run pre).ops ((board ctx).run pre).dev.edhocCtxActive) ↔
    ∀ e ∈ evs, e.leaks = false := by
  constructor
  · intro hbal e he
    obtain ⟨pre, post, rfl⟩ := List.append_of_mem he
    by_contra hc
    have hpre := hbal (pre ++ [e]) ⟨post, by simp⟩
    rw [Machine.run_concat] at hpre
    exact not_balanced_of_leak (by simpa using hc) hpre
  · intro hleak pre hpre
    exact (lifecycleInv_run ctx fun e he => hleak e (hpre.subset he)).toBalanced

/-- A message_1 POST whose first configuration call is refused. -/
def leakyPost : Event Unit :=
  .edhoc (edhocRequest [0xf5, 1]) { willing with configure := fun _ => -1 }

/-- Two of them in a row initialise a context that is already live. -/
theorem leakyPost_not_balanced :
    ¬ Balanced ((board ()).run [leakyPost, leakyPost]).ops
      ((board ()).run [leakyPost, leakyPost]).dev.edhocCtxActive := by
  have hops : ((board ()).run [leakyPost, leakyPost]).ops = [.init true, .init true] := rfl
  rw [hops]
  intro hbal
  have hdrop := hbal.init [.init true] (.init true) [] rfl ⟨true, rfl⟩
  exact absurd (hdrop [] rfl) (by decide)

end UsbNcmNet
