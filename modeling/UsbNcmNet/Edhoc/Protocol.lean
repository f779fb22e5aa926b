/-
What the responder is for, without the engine.

A responder is idle, or it has a handshake pending, or it has a session.  Two things
can happen to it: a message_1, which starts over whatever was there, and a message_3,
which counts only while a handshake is pending.  What a session consists of is a
parameter; the firmware's is the buffers OSCORE is keyed from.

`run_eq_pending` and `run_eq_ready` read the stage off the moves: there is a session
when the last message_1 was accepted and the message_3 that came next completed it.
-/
import UsbNcmNet.Lib.Machine

namespace UsbNcmNet

variable {κ : Type}

inductive Stage (κ : Type)
  | idle
  | pending
  | ready (session : κ)
  deriving DecidableEq, Repr

/-- A message_1, accepted or not, or a message_3 and the session that would come of it. -/
inductive Move (κ : Type)
  | message1 (ok : Bool)
  | message3 (session : Option κ)
  deriving DecidableEq, Repr

def Stage.move : Stage κ → Move κ → Stage κ
  | _, .message1 true => .pending
  | _, .message1 false => .idle
  | .pending, .message3 (some session) => .ready session
  | .pending, .message3 none => .idle
  | stage, .message3 _ => stage

/-- The responder protocol. -/
def protocol (κ : Type) : Machine (Stage κ) (Move κ) where
  init := .idle
  step := Stage.move

@[simp] theorem protocol_step : (protocol κ).step = Stage.move := rfl

/-! ### One move back -/

/-- Without a pending handshake a message_3 is nothing. -/
theorem move_late {stage : Stage κ} (h : stage ≠ .pending) (session : Option κ) :
    stage.move (.message3 session) = stage := by
  rcases stage with _ | _ | k
  · rcases session with _ | k <;> rfl
  · exact absurd rfl h
  · rcases session with _ | k' <;> rfl

theorem move_eq_pending {stage : Stage κ} {move : Move κ} :
    stage.move move = .pending ↔ move = .message1 true := by
  rcases move with (_ | _) | (_ | session) <;> rcases stage with _ | _ | k <;> simp [Stage.move]

theorem move_eq_ready {stage : Stage κ} {move : Move κ} {k : κ} :
    stage.move move = .ready k ↔
      stage = .pending ∧ move = .message3 (some k) ∨
      stage = .ready k ∧ ∃ session, move = .message3 session := by
  rcases move with (_ | _) | (_ | session) <;> rcases stage with _ | _ | k' <;> simp [Stage.move]

/-! ### All the moves that led to a stage -/

/-- A handshake is pending when the last move was an accepted message_1. -/
theorem run_eq_pending (moves : List (Move κ)) :
    (protocol κ).run moves = .pending ↔ ∃ past, moves = past ++ [.message1 true] := by
  rcases List.eq_nil_or_concat moves with rfl | ⟨past, move, rfl⟩
  · simp [protocol]
  · rw [List.concat_eq_append, Machine.run_concat, protocol_step, move_eq_pending]
    constructor
    · intro h
      exact ⟨past, by rw [h]⟩
    · intro ⟨past', h⟩
      obtain ⟨-, hmove⟩ := List.append_inj' h rfl
      exact List.singleton_inj.mp hmove

/--
A session is there when the last accepted message_1 was the last at all, and the first
message_3 behind it brought the session.  Later message_3s are too late.
-/
theorem run_eq_ready (moves : List (Move κ)) (k : κ) :
    (protocol κ).run moves = .ready k ↔
      ∃ past late, moves = past ++ .message1 true :: .message3 (some k) :: late ∧
        ∀ move ∈ late, ∃ session, move = .message3 session := by
  induction moves using List.reverseRecOn with
  | nil => simp [protocol]
  | append_singleton moves move ih =>
      rw [Machine.run_concat, protocol_step, move_eq_ready, run_eq_pending, ih]
      constructor
      · intro h
        rcases h with ⟨⟨past, rfl⟩, rfl⟩ | ⟨⟨past, late, rfl, hlate⟩, session, rfl⟩
        · exact ⟨past, [], by simp, by simp⟩
        · refine ⟨past, late ++ [.message3 session], by simp, ?_⟩
          intro move hmove
          rcases List.mem_append.mp hmove with hmove | hmove
          · exact hlate move hmove
          · exact ⟨session, List.mem_singleton.mp hmove⟩
      · intro ⟨past, late, h, hlate⟩
        rcases List.eq_nil_or_concat late with rfl | ⟨late, last, rfl⟩
        · -- the move is the one that brought the session
          have hsplit : moves ++ [move] = (past ++ [.message1 true]) ++ [.message3 (some k)] := by
            rw [h]; simp
          obtain ⟨rfl, hmove⟩ := List.append_inj' hsplit rfl
          exact .inl ⟨⟨past, rfl⟩, List.singleton_inj.mp hmove⟩
        · have hsplit : moves ++ [move]
              = (past ++ .message1 true :: .message3 (some k) :: late) ++ [last] := by
            rw [h]; simp
          obtain ⟨rfl, hmove⟩ := List.append_inj' hsplit rfl
          rw [List.singleton_inj.mp hmove]
          refine .inr ⟨⟨past, late, rfl, ?_⟩, hlate last (by simp)⟩
          intro move hmem
          exact hlate move (by simp [hmem])

end UsbNcmNet
