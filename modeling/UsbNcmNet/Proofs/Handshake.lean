/-
No handshake keys OSCORE twice.

What matters for key reuse is the order of a few calls on the one persistent
engine context: when it was initialised, which messages it processed and
composed, when the session was exported and when it was dropped.  `Board.ops` is
the log cut down to those calls, each with whether it succeeded.

The whole argument is one invariant.  While `edhoc_ctx_active` is set, the last
three of these calls were a successful init, a successful message_1_process and a
successful message_2_compose, in that order, and nothing since: a message_3 finds
the context exactly there, and every way out of the message_3 branch drops the
context and clears the flag.
-/
import UsbNcmNet.Lib.Trace
import UsbNcmNet.Proofs.Board

namespace UsbNcmNet

open Trace

variable {σ : Type}

/-! ### The calls on the engine context -/

/-- A call on the engine context, or one that keys OSCORE from it, and whether it succeeded. -/
inductive Op
  | init (ok : Bool)
  | message1 (ok : Bool)
  | message2 (ok : Bool)
  | message3 (ok : Bool)
  | message4 (ok : Bool)
  | exportSession (ok : Bool)
  | keyOscore (ok : Bool)
  | deinit
  deriving DecidableEq, Repr

def Call.op : Call σ → Option Op
  | .contextInit ret => some (.init (decide (ret = EDHOC_SUCCESS)))
  | .message1Process _ ret => some (.message1 (decide (ret = EDHOC_SUCCESS)))
  | .message2Compose ret => some (.message2 (decide (ret = EDHOC_SUCCESS)))
  | .message3Process _ ret => some (.message3 (decide (ret = EDHOC_SUCCESS)))
  | .message4Compose ret => some (.message4 (decide (ret = EDHOC_SUCCESS)))
  | .exportOscoreSession session => some (.exportSession (decide (session.ret = EDHOC_SUCCESS)))
  | .oscoreContextInit _ err _ => some (.keyOscore (decide (err = .ok)))
  | .contextDeinit => some .deinit
  | _ => none

/-- The engine's history: the calls on its context since boot, in order. -/
def Board.ops (b : Board σ) : List Op := b.log.filterMap Call.op

@[simp] theorem ops_cons (c : Call σ) (cs : List (Call σ)) :
    (c :: cs).filterMap Call.op = c.op.toList ++ cs.filterMap Call.op := by
  cases h : c.op <;> simp [h]

theorem ops_configureLog (eng : Engine σ) (cs : List SetupCall) :
    (configureLog eng cs).filterMap Call.op = [] := by
  rw [List.filterMap_eq_nil_iff]
  intro c hc
  obtain ⟨s, r, rfl⟩ := mem_configureLog hc
  rfl

@[simp] theorem ops_setupLog (eng : Engine σ) :
    (setupLog eng).filterMap Call.op = [.init true] := by
  simp [setupLog, Call.op, ops_configureLog]

/-- Serving a request never touches the engine context. -/
theorem ops_of_serves {cs : List (Call σ)} (h : ∀ c ∈ cs, c.serves = true) :
    cs.filterMap Call.op = [] := by
  rw [List.filterMap_eq_nil_iff]
  exact serves_rule h rfl (fun _ _ => rfl) (fun _ _ _ => rfl) (fun _ _ => rfl) fun _ => rfl

/-- The context calls of a message_1 POST before the new context. -/
def resetOps (active : Bool) : List Op := if active then [.deinit] else []

@[simp] theorem ops_resetLog (d : Device σ) :
    (resetLog d).filterMap Call.op = resetOps d.edhocCtxActive := by
  cases h : d.edhocCtxActive <;> simp [resetLog, resetOps, h, Call.op]

/-- The OSCORE intercept and the plaintext handler leave the engine context alone. -/
theorem ops_of_not_edhoc {b : Board σ} {e : Event σ} (he : ∀ request eng, e ≠ .edhoc request eng) :
    (b.step e).ops = b.ops ∧ (b.step e).dev.edhocCtxActive = b.dev.edhocCtxActive := by
  have hserved := served_of_not_edhoc (b := b) he
  obtain ⟨new, hlog, hnew⟩ := hserved.log
  refine ⟨?_, hserved.active⟩
  unfold Board.ops
  rw [hlog, List.filterMap_append, ops_of_serves hnew, List.append_nil]

/-! ### What one POST adds to the history -/

/-- The context calls of the message_1 half and the flag they leave. -/
inductive Message1Ops (eng : Engine σ) : List Op → Bool → Prop
  | initFailed (hinit : eng.contextInit ≠ 0) : Message1Ops eng [.init false] false
  | configureFailed (hinit : eng.contextInit = 0) (hconf : eng.configures = false) :
      Message1Ops eng [.init true] false
  | message1Failed (hinit : eng.contextInit = 0) (hconf : eng.configures = true) :
      Message1Ops eng [.init true, .message1 false, .deinit] false
  | message2Failed (hinit : eng.contextInit = 0) (hconf : eng.configures = true) :
      Message1Ops eng [.init true, .message1 true, .message2 false, .deinit] false
  | composed (hinit : eng.contextInit = 0) (hconf : eng.configures = true) :
      Message1Ops eng [.init true, .message1 true, .message2 true] true

/-- The context calls of the message_3 half when a handshake is pending. -/
inductive Message3Ops : List Op → Prop
  | message3Failed : Message3Ops [.message3 false, .deinit]
  | message4Failed : Message3Ops [.message3 true, .message4 false, .deinit]
  | exportFailed : Message3Ops [.message3 true, .message4 true, .exportSession false, .deinit]
  | contextFailed : Message3Ops
      [.message3 true, .message4 true, .exportSession true, .keyOscore false, .deinit]
  | keyed : Message3Ops
      [.message3 true, .message4 true, .exportSession true, .keyOscore true, .deinit]

/-- What an EDHOC POST does to the history and the flag. -/
inductive PostOps (eng : Engine σ) (payload : Option Bytes) (ops : List Op) (active : Bool) :
    List Op → Bool → Prop
  | ignored (hstart : startsMessage1 payload = false) :
      PostOps eng payload ops active ops active
  | message1 {new : List Op} {active' : Bool} (hstart : startsMessage1 payload = true)
      (hnew : Message1Ops eng new active') :
      PostOps eng payload ops active (ops ++ (resetOps active ++ new)) active'
  | message3 {new : List Op} (hstart : startsMessage1 payload = false) (hactive : active = true)
      (hnew : Message3Ops new) : PostOps eng payload ops active (ops ++ new) false

theorem message1_ops {eng : Engine σ} {msg out : Bytes} {rc : Int} {d d' : Device σ}
    {cs : List (Call σ)} (h : Message1Ran eng msg d rc out d' cs) :
    ∃ new, cs.filterMap Call.op = new ∧ Message1Ops eng new d'.edhocCtxActive := by
  cases h with
  | initFailed hinit => exact ⟨_, by simp [Call.op, hinit], .initFailed hinit⟩
  | configureFailed hinit hconf _ => exact ⟨_, ops_setupLog eng, .configureFailed hinit hconf⟩
  | message1Failed hinit hconf hm1 =>
      exact ⟨_, by simp [Call.op, hm1], .message1Failed hinit hconf⟩
  | message2Failed hinit hconf _ hm2 =>
      exact ⟨_, by simp [Call.op, hm2], .message2Failed hinit hconf⟩
  | composed hinit hconf _ _ => exact ⟨_, by simp [Call.op], .composed hinit hconf⟩

theorem message3_ops {eng : Engine σ} {msg out : Bytes} {rc : Int} {d d' : Device σ}
    {cs : List (Call σ)} (h : Message3Ran eng msg d rc out d' cs) :
    (d.edhocCtxActive = false ∧ d' = d ∧ cs = []) ∨
      (d.edhocCtxActive = true ∧ d'.edhocCtxActive = false ∧
        Message3Ops (cs.filterMap Call.op)) := by
  cases h with
  | noHandshake hactive => exact .inl ⟨hactive, rfl, rfl⟩
  | message3Failed hactive hm3 =>
      exact .inr ⟨hactive, rfl, by simpa [Call.op, hm3] using Message3Ops.message3Failed⟩
  | message4Failed hactive _ hm4 =>
      exact .inr ⟨hactive, rfl, by simpa [Call.op, hm4] using Message3Ops.message4Failed⟩
  | exportFailed hactive _ _ hexp =>
      exact .inr ⟨hactive, rfl, by simpa [Call.op, hexp] using Message3Ops.exportFailed⟩
  | contextFailed hactive _ _ hexp hctx =>
      exact .inr ⟨hactive, rfl, by simpa [Call.op, hexp, hctx] using Message3Ops.contextFailed⟩
  | keyed hactive _ _ hexp _ =>
      exact .inr ⟨hactive, rfl, by simpa [Call.op, hexp] using Message3Ops.keyed⟩

/-- **What an EDHOC POST does to the engine's history.** -/
theorem post_ops (eng : Engine σ) (request : Request) (b : Board σ) :
    PostOps eng request.payload b.ops b.dev.edhocCtxActive (b.step (.edhoc request eng)).ops
      (b.step (.edhoc request eng)).dev.edhocCtxActive := by
  have hran := edhocPost_ran eng request b
  generalize b.ret (.edhoc request eng) = r, b.step (.edhoc request eng) = b' at hran
  cases hran with
  | rejected hframe =>
      have : PostOps eng request.payload b.ops b.dev.edhocCtxActive _ _ :=
        .ignored (not_startsMessage1_of_error hframe)
      simpa [Board.ops, Call.op] using this
  | message1 hframe hran hreply =>
      obtain ⟨new, hnew, hops⟩ := message1_ops hran
      have : PostOps eng request.payload b.ops b.dev.edhocCtxActive _ _ :=
        .message1 (edhocDeframe_message1 hframe) hops
      simpa [Board.ops, Call.op, ops_of_serves hreply.serves, hnew] using this
  | message3 hframe hran hreply =>
      have hstart := not_startsMessage1_of_message3 hframe
      rcases message3_ops hran with ⟨hactive, rfl, rfl⟩ | ⟨hactive, hactive', hnew⟩
      · have : PostOps eng request.payload b.ops b.dev.edhocCtxActive _ _ := .ignored hstart
        simpa [Board.ops, Call.op, ops_of_serves hreply.serves] using this
      · have : PostOps eng request.payload b.ops b.dev.edhocCtxActive _ _ :=
          .message3 hstart hactive hnew
        simpa [Board.ops, Call.op, ops_of_serves hreply.serves, hactive'] using this

/-! ### Each handshake is used once -/

/-- Since its own init: alive, one message_1 and one message_2 done, no message_3 tried. -/
structure Pending (since : List Op) : Prop where
  own : ∀ ok, Op.init ok ∉ since
  alive : Op.deinit ∉ since
  message1 : since.count (.message1 true) = 1
  message2 : since.count (.message2 true) = 1
  message3 : ∀ ok, Op.message3 ok ∉ since

/-- Since its own init: alive, and all four messages done once. -/
structure Completed (since : List Op) : Prop where
  own : ∀ ok, Op.init ok ∉ since
  alive : Op.deinit ∉ since
  message1 : since.count (.message1 true) = 1
  message2 : since.count (.message2 true) = 1
  message3 : since.count (.message3 true) = 1
  message4 : since.count (.message4 true) = 1

/--
What has to have happened before a call.  A message_3 is processed on a pending
context; a session is exported, and OSCORE keyed from it, on a completed one, and
not a second time for the same message_1.
-/
def UsedOnce (past : List Op) : Op → Prop
  | .message3 _ => ∃ since, sinceLast (· == .init true) past = some since ∧ Pending since
  | .exportSession _ =>
      (∃ since, sinceLast (· == .init true) past = some since ∧ Completed since) ∧
      ∃ since, sinceLast (· == .message1 true) past = some since ∧
        ∀ ok, Op.exportSession ok ∉ since
  | .keyOscore _ =>
      (∃ since, sinceLast (· == .init true) past = some since ∧ Completed since) ∧
      ∃ since, sinceLast (· == .message1 true) past = some since ∧ ∀ ok, Op.keyOscore ok ∉ since
  | _ => True

/-- The calls a pending context has behind it, and nothing after them. -/
def pendingOps : List Op := [.init true, .message1 true, .message2 true]

/-- The invariant: every call so far was in order, and the flag marks a pending context. -/
structure HandshakeInv (ops : List Op) (active : Bool) : Prop where
  once : AtEach UsedOnce ops
  pending : active = true → ∃ past, ops = past ++ pendingOps

private theorem usedOnce_message1 {eng : Engine σ} {past new : List Op} {active active' : Bool}
    (h : Message1Ops eng new active') :
    AtEach (fun pre c => UsedOnce (past ++ pre) c) (resetOps active ++ new) := by
  rw [atEach_append]
  refine ⟨?_, ?_⟩
  · cases active <;> simp [resetOps, atEach_cons, UsedOnce]
  · cases h <;> simp [atEach_cons, UsedOnce]

/-- Looking back from inside the message_3 branch: the calls since the context's own init. -/
private theorem sinceLast_init (past done : List Op) (h : ∀ ok, Op.init ok ∉ done) :
    sinceLast (· == .init true) (past ++ pendingOps ++ done)
      = some (.message1 true :: .message2 true :: done) := by
  have hsplit : past ++ pendingOps ++ done
      = past ++ Op.init true :: (.message1 true :: .message2 true :: done) := by
    simp [pendingOps]
  rw [hsplit, sinceLast_append_self past (by simpa using h true)]

/-- And since the message_1 that started the handshake. -/
private theorem sinceLast_message1 (past done : List Op) (h : Op.message1 true ∉ done) :
    sinceLast (· == .message1 true) (past ++ pendingOps ++ done)
      = some (.message2 true :: done) := by
  have hsplit : past ++ pendingOps ++ done
      = (past ++ [Op.init true]) ++ Op.message1 true :: (.message2 true :: done) := by
    simp [pendingOps]
  rw [hsplit, sinceLast_append_self _ (by simpa using h)]

private theorem usedOnce_message3 {past new : List Op} (h : Message3Ops new) :
    AtEach (fun pre c => UsedOnce (past ++ pendingOps ++ pre) c) new := by
  have hm3 : ∀ ok, UsedOnce (past ++ pendingOps ++ []) (.message3 ok) := by
    intro ok
    refine ⟨_, sinceLast_init past [] (by simp), ?_⟩
    constructor <;> simp
  have hexp : ∀ ok, UsedOnce (past ++ pendingOps ++ [.message3 true, .message4 true])
      (.exportSession ok) := by
    intro ok
    refine ⟨⟨_, sinceLast_init past _ (by simp), ?_⟩, _, sinceLast_message1 past _ (by simp), ?_⟩
    · constructor <;> simp
    · simp
  have hkey : ∀ ok, UsedOnce
      (past ++ pendingOps ++ [.message3 true, .message4 true, .exportSession true])
      (.keyOscore ok) := by
    intro ok
    refine ⟨⟨_, sinceLast_init past _ (by simp), ?_⟩, _, sinceLast_message1 past _ (by simp), ?_⟩
    · constructor <;> simp
    · simp
  cases h with
  | message3Failed => simpa [atEach_cons, UsedOnce] using hm3 false
  | message4Failed => simpa [atEach_cons, UsedOnce] using hm3 true
  | exportFailed =>
      have h1 := hm3 true
      have h2 := hexp false
      simpa [atEach_cons, UsedOnce] using And.intro h1 h2
  | contextFailed =>
      have h1 := hm3 true
      have h2 := hexp true
      have h3 := hkey false
      simpa [atEach_cons, UsedOnce] using And.intro h1 (And.intro h2 h3)
  | keyed =>
      have h1 := hm3 true
      have h2 := hexp true
      have h3 := hkey true
      simpa [atEach_cons, UsedOnce] using And.intro h1 (And.intro h2 h3)

theorem handshakeInv_post {eng : Engine σ} {payload : Option Bytes} {ops ops' : List Op}
    {active active' : Bool} (h : HandshakeInv ops active)
    (hpost : PostOps eng payload ops active ops' active') : HandshakeInv ops' active' := by
  cases hpost with
  | ignored _ => exact h
  | message1 _ hnew =>
      refine ⟨atEach_append.mpr ⟨h.once, usedOnce_message1 hnew⟩, ?_⟩
      intro hactive
      cases hnew with
      | composed _ _ => exact ⟨ops ++ resetOps active, by simp [pendingOps]⟩
      | _ => exact absurd hactive (by decide)
  | message3 _ hactive hnew =>
      obtain ⟨past, rfl⟩ := h.pending hactive
      refine ⟨atEach_append.mpr ⟨h.once, usedOnce_message3 hnew⟩, ?_⟩
      intro hc
      exact absurd hc (by decide)

theorem handshakeInv_step {b : Board σ} (h : HandshakeInv b.ops b.dev.edhocCtxActive)
    (e : Event σ) : HandshakeInv (b.step e).ops (b.step e).dev.edhocCtxActive := by
  rcases e.edhoc_or_not with ⟨request, eng, rfl⟩ | he
  · exact handshakeInv_post h (post_ops eng request b)
  · obtain ⟨hops, hactive⟩ := ops_of_not_edhoc (b := b) he
    rwa [hops, hactive]

theorem handshakeInv_run (ctx : σ) (evs : List (Event σ)) :
    HandshakeInv ((board ctx).run evs).ops ((board ctx).run evs).dev.edhocCtxActive :=
  (board ctx).run_induction (P := fun _ b => HandshakeInv b.ops b.dev.edhocCtxActive)
    ⟨by simp [board, Board.ops], by simp [board, Device.boot]⟩
    (fun _ _ e h => handshakeInv_step h e) evs

/--
**No handshake keys OSCORE twice.**  Whatever the requests and whatever the
libraries answer, every message_3 is processed on a context that has done exactly
one message_1 and one message_2 since its own init and no message_3; and a
session is exported, and OSCORE keyed, only after the four messages were done on
that same context, once per message_1.
-/
theorem handshake_keys_once (ctx : σ) (evs : List (Event σ)) :
    AtEach UsedOnce ((board ctx).run evs).ops :=
  (handshakeInv_run ctx evs).once

end UsbNcmNet
