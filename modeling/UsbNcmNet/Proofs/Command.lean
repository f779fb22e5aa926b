/-
What becomes of the transports of a command.

`monitor` is what a careful user of transports would check: one at a time, and nothing
sent on one that is not open.  The script passes it.  It closes what it has opened, once,
where `connect` raises an `OSError` and on every way out of the `try` in `main`; a
transport whose constructor fails behind its socket, whose `connect` raises something
else, or that is connected when the line about the handshake cannot be printed, is
outside of both, and `close` is never called on it.
-/
import UsbNcmNet.Host.Command

namespace UsbNcmNet

/-! ### Transports -/

/-- The transport that is open, if the operations are in order so far. -/
def monitorStep : Option (Option Nat) → Operation → Option (Option Nat)
  | some none, .opened k => some (some k)
  | some (some k), .closed k' _ => if k = k' then some none else none
  | some (some k), .sent k' _ => if k = k' then some (some k) else none
  | _, _ => none

def monitor (ops : List Operation) : Option (Option Nat) := ops.foldl monitorStep (some none)

/-- The attempt an operation opens. -/
def Operation.openedBy : Operation → Option Nat
  | .opened k => some k
  | _ => none

/-- The attempt an operation closes. -/
def Operation.closedBy : Operation → Option Nat
  | .closed k _ => some k
  | _ => none

/-- What an operation sends. -/
def Operation.sentBy : Operation → Option Bytes
  | .sent _ data => some data
  | _ => none

/-- The ways a transport that has its socket gets past both places that close one. -/
inductive Abandoned (args : Args) (answers : CommandAnswers) (attempt : Attempt) (e : Exn) : Prop
  | constructed (h : attempt.construct = .raised e true)
  | connected (h : attempt.construct = .made) (he : attempt.connect = some e) (hother : e = .other)
  | announced (h : attempt.construct = .made) (hconnect : attempt.connect = none)
      (hdtls : args.dtls = true) (he : answers.announce = some e)

/-! ### Attempts that come to nothing -/

/-- Attempts that come to nothing, `n` of them from `attempt` on. -/
def tries (attempts : Nat → Attempt) : (attempt n : Nat) → List Operation
  | _, 0 => []
  | attempt, n + 1 =>
      .opened attempt :: closeQuietly attempts attempt ++ tries attempts (attempt + 1) n

section
variable (attempts : Nat → Attempt)

theorem monitor_tries (n : Nat) :
    ∀ attempt, (tries attempts attempt n).foldl monitorStep (some none) = some none := by
  induction n with
  | zero => intro attempt; rfl
  | succ n ih =>
      intro attempt
      show (tries attempts (attempt + 1) n).foldl monitorStep
        (if attempt = attempt then some none else none) = _
      rw [if_pos rfl, ih]

/-- What each attempt contributes, one after the other. -/
theorem filterMap_tries {β : Type} {f : Operation → Option β} (pick : Nat → List β)
    (h : ∀ k, (.opened k :: closeQuietly attempts k).filterMap f = pick k) (n : Nat) :
    ∀ attempt, (tries attempts attempt n).filterMap f = (List.range' attempt n).flatMap pick := by
  induction n with
  | zero => intro attempt; rfl
  | succ n ih =>
      intro attempt
      rw [tries, List.filterMap_append, h, ih, List.range'_succ, List.flatMap_cons]

theorem openedBy_tries (n attempt : Nat) :
    (tries attempts attempt n).filterMap Operation.openedBy = List.range' attempt n := by
  rw [filterMap_tries attempts (fun k => [k]) (fun _ => rfl)]
  exact List.flatMap_singleton' _

theorem closedBy_tries (n attempt : Nat) :
    (tries attempts attempt n).filterMap Operation.closedBy = List.range' attempt n := by
  rw [filterMap_tries attempts (fun k => [k]) (fun _ => rfl)]
  exact List.flatMap_singleton' _

theorem sentBy_tries (n attempt : Nat) :
    (tries attempts attempt n).filterMap Operation.sentBy = [] := by
  rw [filterMap_tries attempts (fun _ => []) (fun _ => rfl)]
  simp

end

/-! ### A run -/

/-- What `open_transport` can do: fail `n` times, and then be done with it in one of five ways. -/
inductive Opened (attempts : Nat → Attempt) (left attempt n : Nat) :
    List Operation → Except Ending Nat → Prop
  | gaveUp (hn : n = left) :
      Opened attempts left attempt n (tries attempts attempt n) (.error .systemExit)
  | notMade {e : Exn} (hn : n < left) :
      Opened attempts left attempt n (tries attempts attempt n) (.error (.raised e))
  | halfMade {k : Nat} {e : Exn} (hn : n < left) (hk : k = attempt + n)
      (h : (attempts k).construct = .raised e true) :
      Opened attempts left attempt n (tries attempts attempt n ++ [.opened k]) (.error (.raised e))
  | notConnected {k : Nat} (hn : n < left) (hk : k = attempt + n)
      (h : (attempts k).construct = .made) (hconnect : (attempts k).connect = some .other) :
      Opened attempts left attempt n (tries attempts attempt n ++ [.opened k])
        (.error (.raised .other))
  | connected {k : Nat} (hn : n < left) (hk : k = attempt + n)
      (h : (attempts k).construct = .made) (hconnect : (attempts k).connect = none) :
      Opened attempts left attempt n (tries attempts attempt n ++ [.opened k]) (.ok k)

/-- One more attempt that comes to nothing in front. -/
theorem Opened.retry {attempts : Nat → Attempt} {left attempt n : Nat} {ops : List Operation}
    {r : Except Ending Nat} (h : Opened attempts left (attempt + 1) n ops r) :
    Opened attempts (left + 1) attempt (n + 1)
      (.opened attempt :: closeQuietly attempts attempt ++ ops) r := by
  cases h with
  | gaveUp hn => exact .gaveUp (congrArg (· + 1) hn)
  | notMade hn => exact .notMade (Nat.succ_lt_succ hn)
  | halfMade hn hk h => exact .halfMade (Nat.succ_lt_succ hn) (by omega) h
  | notConnected hn hk h hconnect =>
      exact .notConnected (Nat.succ_lt_succ hn) (by omega) h hconnect
  | connected hn hk h hconnect => exact .connected (Nat.succ_lt_succ hn) (by omega) h hconnect

/-- The `n` attempts were made and raised an `OSError` when connecting. -/
def FailedAll (attempts : Nat → Attempt) (attempt n : Nat) : Prop :=
  ∀ k, attempt ≤ k → k < attempt + n →
    (attempts k).construct = .made ∧ (attempts k).connect = some .osError

theorem openTransport_ran (attempts : Nat → Attempt) (left : Nat) :
    ∀ attempt, ∃ n, FailedAll attempts attempt n ∧
      Opened attempts left attempt n (openTransport attempts left attempt).1
        (openTransport attempts left attempt).2 := by
  induction left with
  | zero => intro attempt; exact ⟨0, fun k hk hk' => by omega, .gaveUp rfl⟩
  | succ left ih =>
      intro attempt
      have hnone : FailedAll attempts attempt 0 := fun k hk hk' => by omega
      rw [openTransport]
      rcases hmade : (attempts attempt).construct with _ | ⟨e, _ | _⟩
      · rcases hconnect : (attempts attempt).connect with _ | _ | _
        · exact ⟨0, hnone, .connected (Nat.succ_pos left) rfl hmade hconnect⟩
        · obtain ⟨n, hfailed, hran⟩ := ih (attempt + 1)
          refine ⟨n + 1, ?_, hran.retry⟩
          intro k hk hk'
          rcases Nat.eq_or_lt_of_le hk with rfl | hlt
          · exact ⟨hmade, hconnect⟩
          · exact hfailed k hlt (by omega)
        · exact ⟨0, hnone, .notConnected (Nat.succ_pos left) rfl hmade hconnect⟩
      · exact ⟨0, hnone, .notMade (Nat.succ_pos left)⟩
      · exact ⟨0, hnone, .halfMade (Nat.succ_pos left) rfl hmade⟩

/-- The `try` block sends once, if it gets that far, and opens nothing. -/
theorem exchange_operations (args : Args) (answers : CommandAnswers) (attempt : Nat) :
    (exchange args answers attempt).1 = [] ∨
      ∃ data, (exchange args answers attempt).1 = [.sent attempt data] := by
  unfold exchange
  rcases commandRequest args answers with _ | data
  · exact .inl rfl
  · rcases answers.send with _ | e
    · dsimp only
      rcases readReply answers.mid.toNat answers.recv with ending | reply
      · exact .inr ⟨data, rfl⟩
      · exact .inr ⟨data, rfl⟩
    · exact .inl rfl

/-- What a run of the script does to its transports, and how it ends. -/
inductive CommandRan (args : Args) (attempts : Nat → Attempt) (answers : CommandAnswers) (n : Nat) :
    List Operation × Ending → Prop
  | unconnected {ending : Ending} (hn : n ≤ args.retries.toNat) :
      CommandRan args attempts answers n (tries attempts 1 n, ending)
  | abandoned {e : Exn} (hn : n < args.retries.toNat)
      (h : Abandoned args answers (attempts (1 + n)) e) :
      CommandRan args attempts answers n (tries attempts 1 n ++ [.opened (1 + n)], .raised e)
  | used {ops : List Operation} {ending : Ending} (hn : n < args.retries.toNat)
      (h : ∀ e, ¬ Abandoned args answers (attempts (1 + n)) e)
      (hops : ops = [] ∨ ∃ data, ops = [.sent (1 + n) data]) :
      CommandRan args attempts answers n
        (tries attempts 1 n ++ .opened (1 + n) :: ops ++ closeQuietly attempts (1 + n), ending)

theorem command_ran (args : Args) (attempts : Nat → Attempt) (answers : CommandAnswers) :
    ∃ n, FailedAll attempts 1 n ∧
      CommandRan args attempts answers n (command args attempts answers) := by
  obtain ⟨n, hfailed, hran⟩ := openTransport_ran attempts args.retries.toNat 1
  refine ⟨n, hfailed, ?_⟩
  unfold command
  generalize openTransport attempts args.retries.toNat 1 = opened at hran
  obtain ⟨ops, r⟩ := opened
  dsimp only at hran
  cases hran with
  | gaveUp hn => exact .unconnected (Nat.le_of_eq hn)
  | notMade hn => exact .unconnected (Nat.le_of_lt hn)
  | halfMade hn hk h =>
      subst hk
      exact .abandoned hn (.constructed h)
  | notConnected hn hk h hconnect =>
      subst hk
      exact .abandoned hn (.connected h hconnect rfl)
  | connected hn hk h hconnect =>
      subst hk
      dsimp only
      rcases hannounce : (if args.dtls then answers.announce else none) with _ | e
      · have hops := exchange_operations args answers (1 + n)
        show CommandRan _ _ _ _ (tries attempts 1 n ++ [.opened (1 + n)]
          ++ (exchange args answers (1 + n)).1 ++ closeQuietly attempts (1 + n), _)
        rw [List.append_assoc (tries attempts 1 n)]
        refine .used hn ?_ hops
        rintro e (hraised | ⟨-, he, -⟩ | ⟨-, -, hdtls, he⟩)
        · rw [h] at hraised
          simp at hraised
        · rw [hconnect] at he
          simp at he
        · rw [if_pos hdtls, he] at hannounce
          simp at hannounce
      · have hdtls : args.dtls = true := by
          by_contra hplain
          rw [if_neg hplain] at hannounce
          simp at hannounce
        rw [if_pos hdtls] at hannounce
        exact .abandoned hn (.announced h hconnect hdtls hannounce)

/-- An attempt that came to nothing was not left behind. -/
theorem FailedAll.not_abandoned {args : Args} {attempts : Nat → Attempt} {answers : CommandAnswers}
    {n k : Nat} (h : FailedAll attempts 1 n) (hk : k ∈ List.range' 1 n) (e : Exn) :
    ¬ Abandoned args answers (attempts k) e := by
  obtain ⟨hge, hlt⟩ := List.mem_range'_1.mp hk
  obtain ⟨hmade, hconnect⟩ := h k hge hlt
  rintro (hraised | ⟨-, he, hother⟩ | ⟨-, hnone, -, -⟩)
  · rw [hmade] at hraised
    simp at hraised
  · rw [hconnect, hother] at he
    simp at he
  · rw [hconnect] at hnone
    simp at hnone

/--
What a run owes to its transports, having opened `m` of them: in order, one at a time, and
closed again; `left` is the one on which `close` is not called.
-/
structure Tidy (args : Args) (attempts : Nat → Attempt) (answers : CommandAnswers)
    (run : List Operation × Ending) (m : Nat) (left : Option Nat) : Prop where
  opened : run.1.filterMap Operation.openedBy = List.range' 1 m
  retries : m ≤ args.retries.toNat
  /-- One at a time, and nothing is sent on one that is not open. -/
  order : monitor run.1 = some left
  sent : (run.1.filterMap Operation.sentBy).length ≤ 1
  /-- The others are closed, once each and in the order in which they were opened. -/
  closed : run.1.filterMap Operation.closedBy ++ left.toList = List.range' 1 m
  left_iff : ∀ k, left = some k ↔
    k ∈ List.range' 1 m ∧ ∃ e, Abandoned args answers (attempts k) e
  /-- The one that is left is the last, and its exception is how the run ends. -/
  ends : ∀ k, left = some k →
    k = m ∧ ∃ e, Abandoned args answers (attempts k) e ∧ run.2 = .raised e

theorem tidy_unconnected {args : Args} {attempts : Nat → Attempt} {answers : CommandAnswers}
    {n : Nat} {ending : Ending} (hfailed : FailedAll attempts 1 n) (hn : n ≤ args.retries.toNat) :
    Tidy args attempts answers (tries attempts 1 n, ending) n none where
  opened := openedBy_tries attempts n 1
  retries := hn
  order := monitor_tries attempts n 1
  sent := by
    rw [sentBy_tries]
    exact Nat.zero_le 1
  closed := by
    rw [closedBy_tries]
    exact List.append_nil _
  left_iff k := by
    refine ⟨by simp, ?_⟩
    rintro ⟨hk, e, he⟩
    exact absurd he (hfailed.not_abandoned hk e)
  ends := by simp

/-- Of the attempts up to the one behind those that failed, only that one can be left. -/
theorem FailedAll.abandoned_last {args : Args} {attempts : Nat → Attempt}
    {answers : CommandAnswers} {n k : Nat} {e : Exn} (h : FailedAll attempts 1 n)
    (hk : k ∈ List.range' 1 (n + 1)) (he : Abandoned args answers (attempts k) e) : k = 1 + n := by
  rw [List.range'_1_concat] at hk
  rcases List.mem_append.mp hk with hk | hk
  · exact absurd he (h.not_abandoned hk e)
  · exact List.mem_singleton.mp hk

theorem tidy_abandoned {args : Args} {attempts : Nat → Attempt} {answers : CommandAnswers}
    {n : Nat} {e : Exn} (hfailed : FailedAll attempts 1 n) (hn : n < args.retries.toNat)
    (he : Abandoned args answers (attempts (1 + n)) e) :
    Tidy args attempts answers (tries attempts 1 n ++ [.opened (1 + n)], .raised e) (n + 1)
      (some (1 + n)) where
  opened := by
    rw [List.filterMap_append, openedBy_tries, List.range'_1_concat]
    rfl
  retries := hn
  order := by
    rw [monitor, List.foldl_append, monitor_tries]
    rfl
  sent := by
    rw [List.filterMap_append, sentBy_tries]
    exact Nat.zero_le 1
  closed := by
    rw [List.filterMap_append, closedBy_tries, List.range'_1_concat]
    exact congrArg (· ++ [1 + n]) (List.append_nil _)
  left_iff k := by
    constructor
    · intro hk
      obtain rfl := Option.some.inj hk
      exact ⟨List.mem_range'_1.mpr (by omega), e, he⟩
    · rintro ⟨hk, e', he'⟩
      rw [hfailed.abandoned_last hk he']
  ends k hk := by
    obtain rfl := Option.some.inj hk
    exact ⟨by omega, e, he, rfl⟩

theorem tidy_used {args : Args} {attempts : Nat → Attempt} {answers : CommandAnswers} {n : Nat}
    {ops : List Operation} {ending : Ending} (hfailed : FailedAll attempts 1 n)
    (hn : n < args.retries.toNat) (hnot : ∀ e, ¬ Abandoned args answers (attempts (1 + n)) e)
    (hops : ops = [] ∨ ∃ data, ops = [.sent (1 + n) data]) :
    Tidy args attempts answers
      (tries attempts 1 n ++ .opened (1 + n) :: ops ++ closeQuietly attempts (1 + n), ending) (n + 1)
      none where
  opened := by
    rw [List.filterMap_append, List.filterMap_append, openedBy_tries, List.range'_1_concat]
    rcases hops with rfl | ⟨data, rfl⟩ <;> exact List.append_nil _
  retries := hn
  order := by
    rw [monitor, List.foldl_append, List.foldl_append, monitor_tries]
    rcases hops with rfl | ⟨data, rfl⟩ <;> simp [monitorStep, closeQuietly]
  sent := by
    rw [List.filterMap_append, List.filterMap_append, sentBy_tries]
    rcases hops with rfl | ⟨data, rfl⟩
    · exact Nat.zero_le 1
    · exact Nat.le_refl 1
  closed := by
    rw [List.filterMap_append, List.filterMap_append, closedBy_tries, List.range'_1_concat]
    rcases hops with rfl | ⟨data, rfl⟩ <;> simp [Operation.closedBy, closeQuietly]
  left_iff k := by
    refine ⟨by simp, ?_⟩
    rintro ⟨hk, e, he⟩
    rw [hfailed.abandoned_last hk he] at he
    exact absurd he (hnot e)
  ends := by simp

/--
**Transports are opened one at a time, and `close` is called once on each but one.**  A run
opens the transports of its first attempts, no more than `--retries` of them, one after the
other; it sends at most one datagram, on the one that is open; and it calls `close` on them
in the same order, once each.  The exception is a transport that a constructor, a `connect`
or the line about the handshake leaves behind by raising what nothing catches: it is the
last one, `close` is not called on it, and the run ends with that exception.
-/
theorem command_closes (args : Args) (attempts : Nat → Attempt) (answers : CommandAnswers) :
    ∃ m left, Tidy args attempts answers (command args attempts answers) m left := by
  obtain ⟨n, hfailed, hran⟩ := command_ran args attempts answers
  generalize command args attempts answers = run at hran
  cases hran with
  | unconnected hn => exact ⟨n, none, tidy_unconnected hfailed hn⟩
  | abandoned hn he => exact ⟨n + 1, some (1 + n), tidy_abandoned hfailed hn he⟩
  | used hn hnot hops => exact ⟨n + 1, none, tidy_used hfailed hn hnot hops⟩

end UsbNcmNet
