/-
The board is a responder.

Two flags can be set in four ways and the protocol has three stages.  The fourth way,
a session with a handshake pending, is never reached, and on the boards that are left
every request is one move of the protocol or none: which one is decided by the payload
and by what the engine answers, not by the board.  So the moves can be listed without
running anything, and the session can be read off the list.
-/
import UsbNcmNet.Edhoc.Protocol
import UsbNcmNet.Proofs.Board

namespace UsbNcmNet

variable {σ : Type}

/-! ### Requests as moves -/

/-- Every call up to message_2 succeeds. -/
def Engine.accepts (eng : Engine σ) : Bool :=
  decide (eng.contextInit = EDHOC_SUCCESS) && eng.configures &&
    decide (eng.message1Process = EDHOC_SUCCESS) && decide (eng.message2Compose.ret = EDHOC_SUCCESS)

/-- Every call of the message_3 half succeeds, and this is what it exports. -/
def Engine.session (eng : Engine σ) : Option KeyBuffers :=
  if eng.message3Process = EDHOC_SUCCESS ∧ eng.message4Compose.ret = EDHOC_SUCCESS ∧
      eng.exportOscoreSession.ret = EDHOC_SUCCESS ∧ eng.oscoreContextInit.1 = .ok then
    some eng.exportOscoreSession.keys
  else none

/-- The move a request is, whatever state it finds. -/
def Event.move : Event σ → Option (Move KeyBuffers)
  | .edhoc request eng =>
      match edhocDeframe request.payload with
      | .ok (.message1 _) => some (.message1 eng.accepts)
      | .ok (.message3 _) => some (.message3 eng.session)
      | .error _ => none
  | .oscore _ => none
  | .app _ _ _ => none

/-! ### Boards as stages -/

/-- No board has a session and a handshake pending at once. -/
def Device.Exclusive (d : Device σ) : Prop := d.oscoreReady = true → d.edhocCtxActive = false

/-- The stage of the protocol a board is in. -/
def Device.stage (d : Device σ) : Stage KeyBuffers :=
  if d.oscoreReady then .ready d.keys else if d.edhocCtxActive then .pending else .idle

theorem stage_congr {d d' : Device σ} (hready : d'.oscoreReady = d.oscoreReady)
    (hactive : d'.edhocCtxActive = d.edhocCtxActive) (hkeys : d'.keys = d.keys) :
    d'.stage = d.stage := by
  unfold Device.stage
  rw [hready, hactive, hkeys]

theorem Device.Exclusive.congr {d d' : Device σ} (h : d.Exclusive)
    (hready : d'.oscoreReady = d.oscoreReady) (hactive : d'.edhocCtxActive = d.edhocCtxActive) :
    d'.Exclusive := by
  unfold Device.Exclusive
  rw [hready, hactive]
  exact h

theorem Device.Exclusive.not_ready {d : Device σ} (h : d.Exclusive)
    (hactive : d.edhocCtxActive = true) : d.oscoreReady = false := by
  by_contra hc
  rw [h (by simpa using hc)] at hactive
  exact Bool.noConfusion hactive

theorem ready_of_stage {d : Device σ} {keys : KeyBuffers} :
    d.stage = .ready keys ↔ d.oscoreReady = true ∧ d.keys = keys := by
  unfold Device.stage
  split
  · rename_i hready
    simp [hready]
  · rename_i hready
    simp only [hready]
    split <;> simp

theorem pending_of_stage {d : Device σ} (h : d.Exclusive) :
    d.stage = .pending ↔ d.edhocCtxActive = true := by
  unfold Device.stage
  split
  · rename_i hready
    simp [h hready]
  · split <;> simp_all

/-! ### One request is one move -/

theorem message1_move {eng : Engine σ} {msg out : Bytes} {rc : Int} {d d' : Device σ}
    {cs : List (Call σ)} (h : Message1Ran eng msg d rc out d' cs) :
    d'.Exclusive ∧ d'.stage = d.stage.move (.message1 eng.accepts) := by
  have hstage : ∀ active, (d.afterMessage1 active).Exclusive ∧
      (d.afterMessage1 active).stage = d.stage.move (.message1 active) := by
    intro active
    refine ⟨fun hready => Bool.noConfusion hready, ?_⟩
    cases active <;> rfl
  cases h with
  | initFailed hinit => simpa [Engine.accepts, hinit] using hstage false
  | configureFailed hinit hconf _ => simpa [Engine.accepts, hinit, hconf] using hstage false
  | message1Failed hinit hconf hm1 => simpa [Engine.accepts, hinit, hconf, hm1] using hstage false
  | message2Failed hinit hconf hm1 hm2 =>
      simpa [Engine.accepts, hinit, hconf, hm1, hm2] using hstage false
  | composed hinit hconf hm1 hm2 => simpa [Engine.accepts, hinit, hconf, hm1, hm2] using hstage true

theorem message3_move {eng : Engine σ} {msg out : Bytes} {rc : Int} {d d' : Device σ}
    {cs : List (Call σ)} (hd : d.Exclusive) (h : Message3Ran eng msg d rc out d' cs) :
    d'.Exclusive ∧ d'.stage = d.stage.move (.message3 eng.session) := by
  -- a pending handshake that is not completed is given up
  have hlost : d.edhocCtxActive = true → eng.session = none → d'.oscoreReady = d.oscoreReady →
      d'.edhocCtxActive = false →
      d'.Exclusive ∧ d'.stage = d.stage.move (.message3 eng.session) := by
    intro hactive hnone hready hidle
    rw [hnone]
    refine ⟨fun _ => hidle, ?_⟩
    simp [Device.stage, hready, hd.not_ready hactive, hidle, hactive, Stage.move]
  cases h with
  | noHandshake hactive =>
      refine ⟨hd, (move_late ?_ _).symm⟩
      rw [ne_eq, pending_of_stage hd, hactive]
      exact Bool.noConfusion
  | message3Failed hactive hm3 => exact hlost hactive (by simp [Engine.session, hm3]) rfl rfl
  | message4Failed hactive _ hm4 => exact hlost hactive (by simp [Engine.session, hm4]) rfl rfl
  | exportFailed hactive _ _ hexp => exact hlost hactive (by simp [Engine.session, hexp]) rfl rfl
  | contextFailed hactive _ _ _ hctx => exact hlost hactive (by simp [Engine.session, hctx]) rfl rfl
  | keyed hactive hm3 hm4 hexp hctx =>
      refine ⟨fun _ => rfl, ?_⟩
      simp [Device.stage, Engine.session, hm3, hm4, hexp, hctx, hactive, hd.not_ready hactive,
        Stage.move]

/-- **One request is one move, or none.** -/
theorem step_move {b : Board σ} (h : b.dev.Exclusive) (e : Event σ) :
    (b.step e).dev.Exclusive ∧
      (b.step e).dev.stage = (e.move.map b.dev.stage.move).getD b.dev.stage := by
  rcases e.edhoc_or_not with ⟨request, eng, rfl⟩ | he
  · have hran := edhocPost_ran eng request b
    generalize b.ret (.edhoc request eng) = r, b.step (.edhoc request eng) = b' at hran
    cases hran with
    | rejected hframe =>
        simp only [Event.move, hframe]
        exact ⟨h, rfl⟩
    | message1 hframe hran _ =>
        simp only [Event.move, hframe]
        exact message1_move hran
    | message3 hframe hran _ =>
        simp only [Event.move, hframe]
        exact message3_move h hran
  · have hserved := served_of_not_edhoc (b := b) he
    have hmove : e.move = none := by
      cases e with
      | edhoc request eng => exact absurd rfl (he request eng)
      | oscore osc => rfl
      | app request gpio send => rfl
    rw [hmove]
    exact ⟨h.congr hserved.ready hserved.active,
      stage_congr hserved.ready hserved.active hserved.keys⟩

/-- The boards that can be reached. -/
def exclusiveBoard (ctx : σ) : Machine { b : Board σ // b.dev.Exclusive } (Event σ) :=
  (board ctx).restrict (fun b => b.dev.Exclusive) (fun h => Bool.noConfusion h)
    fun _ e h => (step_move h e).1

/-- **The board refines the protocol.** -/
def boardRefines (ctx : σ) : Machine.Simulation (exclusiveBoard ctx) (protocol KeyBuffers) where
  abs b := b.1.dev.stage
  label _ e := e.move
  init := rfl
  step b e := (step_move b.2 e).2

theorem stage_run (ctx : σ) (evs : List (Event σ)) :
    ((board ctx).run evs).dev.Exclusive ∧
      ((board ctx).run evs).dev.stage = (protocol KeyBuffers).run (evs.filterMap Event.move) := by
  have hrun := (boardRefines ctx).run evs
  rw [Machine.Simulation.labels_eq_filterMap _ fun _ _ => rfl] at hrun
  have hboard : ((exclusiveBoard ctx).run evs).1 = (board ctx).run evs := (board ctx).restrict_run _ _ evs
  rw [← hboard]
  exact ⟨((exclusiveBoard ctx).run evs).2, hrun⟩

/--
**The session is what the history says it is.**  After any run, the board has a session
keyed from given buffers exactly when the last message_1 was accepted, the first
message_3 after it exported them and nothing failed, and only message_3s came later.  A
handshake is pending exactly when the last of the moves was an accepted message_1.
-/
theorem session_iff_history (ctx : σ) (evs : List (Event σ)) :
    let d := ((board ctx).run evs).dev
    let moves := evs.filterMap Event.move
    (∀ keys, d.oscoreReady = true ∧ d.keys = keys ↔
      ∃ past late, moves = past ++ .message1 true :: .message3 (some keys) :: late ∧
        ∀ move ∈ late, ∃ session, move = .message3 session) ∧
    (d.edhocCtxActive = true ↔ ∃ past, moves = past ++ [.message1 true]) := by
  intro d moves
  obtain ⟨hexcl, hstage⟩ := stage_run ctx evs
  refine ⟨fun keys => ?_, ?_⟩
  · rw [← ready_of_stage, hstage, run_eq_ready]
  · rw [← pending_of_stage hexcl, hstage, run_eq_pending]

end UsbNcmNet
