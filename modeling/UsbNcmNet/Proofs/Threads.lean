/-
POSTs that are handled at the same time.

The machine of `Board` handles one request after the other.  Here the handlers of any
number of EDHOC POSTs run on threads of their own and are interrupted between any two
actions; what they share is guarded by `edhoc_mtx`.  `Lib.Mutex` says that the critical
sections come out as if they had run one after another.  What is left to see is that a
critical section run alone is that part of `edhoc_post`, and that the parts outside it
do not matter: they read nothing that is shared, and of the log they only add the entry
of the request and the reply.
-/
import UsbNcmNet.Edhoc.Threads
import UsbNcmNet.Proofs.Handshake

namespace UsbNcmNet

open Trace Mutex

variable {σ α β ι : Type}

/-! ### Run alone, it is the handler -/

@[simp] theorem run_active (b : Board σ) :
    (Atomic.active : Prog (Board σ) Bool).run b = (b.dev.edhocCtxActive, b) := rfl

@[simp] theorem run_call (c : Call σ) (b : Board σ) :
    (Atomic.call c).run b = ((), { b with log := b.log ++ [c] }) := rfl

@[simp] theorem run_update (f : Device σ → Device σ) (b : Board σ) :
    (Atomic.update f).run b = ((), { b with dev := f b.dev }) := rfl

theorem configureAll_run (eng : Engine σ) (cs : List SetupCall) :
    ∀ b : Board σ, (Atomic.configureAll eng cs).run b = (configureAll eng cs).exec b := by
  induction cs with
  | nil => intro b; rfl
  | cons c cs ih =>
      intro b
      simp only [Atomic.configureAll, configureAll, Prog.run_bind, Fw.exec_bind, run_call,
        Fw.exec_call, Prog.run_ite, Fw.exec_ite, Prog.run_pure, Fw.exec_pure, ih]

theorem edhocSetup_run (eng : Engine σ) (b : Board σ) :
    (Atomic.edhocSetup eng).run b = (edhocSetup eng).exec b := by
  simp only [Atomic.edhocSetup, edhocSetup, Prog.run_bind, Fw.exec_bind, run_call,
    Fw.exec_call, Prog.run_ite, Fw.exec_ite, Prog.run_pure, Fw.exec_pure, configureAll_run]

theorem deriveAndInitOscore_run (eng : Engine σ) (b : Board σ) :
    (Atomic.deriveAndInitOscore eng).run b = (deriveAndInitOscore eng).exec b := by
  simp only [Atomic.deriveAndInitOscore, deriveAndInitOscore, Prog.run_bind, Fw.exec_bind,
    run_call, Fw.exec_call, run_update, Fw.exec_update, Prog.run_ite, Fw.exec_ite,
    Prog.run_pure, Fw.exec_pure]

theorem edhocMessage1_run (eng : Engine σ) (msg : Bytes) (b : Board σ) :
    (Atomic.edhocMessage1 eng msg).run b = (edhocMessage1 eng msg).exec b := by
  simp only [Atomic.edhocMessage1, edhocMessage1, Prog.run_bind, Fw.exec_bind, Prog.run_ite,
    Fw.exec_ite, edhocSetup_run]
  rfl

theorem edhocMessage3_run (eng : Engine σ) (msg : Bytes) (b : Board σ) :
    (Atomic.edhocMessage3 eng msg).run b = (edhocMessage3 eng msg).exec b := by
  simp only [Atomic.edhocMessage3, edhocMessage3, Prog.run_bind, Fw.exec_bind, Prog.run_ite,
    Fw.exec_ite, deriveAndInitOscore_run]
  rfl

/-! ### What a critical section sees and leaves -/

/-- The calls `edhoc_post` makes under the lock. -/
def Call.guarded : Call σ → Bool
  | .edhocPost _ | .coapResourceSend _ | .oscorePost | .oscore2coap _ _ | .coap2oscore _ _ _
  | .dispatchInner _ _ => false
  | _ => true

/--
Every action leaves the LED alone and adds nothing but guarded calls to the log, and
what follows it depends on `edhoc_ctx_active` alone.
-/
inductive Shielded {α : Type} : Prog (Board σ) α → Prop
  | done (a : α) : Shielded (.done a)
  | act {f : Board σ → Board σ} {next : Board σ → Prog (Board σ) α} (g : Device σ → Device σ)
      (new : List (Call σ)) (hnew : ∀ c ∈ new, c.guarded = true)
      (hled : ∀ (d : Device σ) (led : Led), g { d with led := led } = { g d with led := led })
      (hf : ∀ b, f b = { dev := g b.dev, log := b.log ++ new })
      (hblind : ∀ b b', b.dev.edhocCtxActive = b'.dev.edhocCtxActive → next b = next b')
      (hnext : ∀ b, Shielded (next b)) : Shielded (.act f next)

namespace Shielded

theorem bind {p : Prog (Board σ) α} {k : α → Prog (Board σ) β} (hp : Shielded p)
    (hk : ∀ a, Shielded (k a)) : Shielded (p >>= k) := by
  show Shielded (p.bind k)
  induction hp with
  | done a => exact hk a
  | act g new hnew hled hf hblind _ ih =>
      refine .act g new hnew hled hf ?_ ih
      intro b b' hactive
      show Prog.bind _ k = Prog.bind _ k
      rw [hblind b b' hactive]

theorem ite {c : Prop} [Decidable c] {p q : Prog (Board σ) α} (hp : Shielded p)
    (hq : Shielded q) : Shielded (if c then p else q) := by
  split
  · exact hp
  · exact hq

theorem pure (a : α) : Shielded (Pure.pure a : Prog (Board σ) α) := .done a

theorem active : Shielded (Atomic.active : Prog (Board σ) Bool) := by
  refine .act id [] (by simp) (fun _ _ => rfl) (by simp) ?_ fun b => .done _
  intro b b' hactive
  show Prog.done _ = Prog.done _
  rw [hactive]

theorem call {c : Call σ} (hc : c.guarded = true) : Shielded (Atomic.call c) :=
  .act id [c] (by simpa using hc) (fun _ _ => rfl) (fun _ => rfl) (fun _ _ _ => rfl)
    fun _ => .done ()

theorem update {f : Device σ → Device σ}
    (hled : ∀ (d : Device σ) (led : Led), f { d with led := led } = { f d with led := led }) :
    Shielded (Atomic.update f) :=
  .act f [] (by simp) hled (by simp) (fun _ _ _ => rfl) fun _ => .done ()

/-- What comes out depends on the globals other than the LED, and so do the calls that are made. -/
theorem run {p : Prog (Board σ) α} (h : Shielded p) :
    ∀ d : Device σ, ∃ (a : α) (d' : Device σ) (new : List (Call σ)),
      (∀ c ∈ new, c.guarded = true) ∧ ∀ (led : Led) (log : List (Call σ)),
        p.run ⟨{ d with led := led }, log⟩ = (a, ⟨{ d' with led := led }, log ++ new⟩) := by
  induction h with
  | done a =>
      intro d
      exact ⟨a, d, [], by simp, by simp⟩
  | @act f next g new hnew hled hf hblind _ ih =>
      intro d
      obtain ⟨a, d', rest, hrest, hrun⟩ := ih ⟨d, []⟩ (g d)
      refine ⟨a, d', new ++ rest, ?_, ?_⟩
      · intro c hc
        rcases List.mem_append.mp hc with hc | hc
        · exact hnew c hc
        · exact hrest c hc
      · intro led log
        show (next ⟨{ d with led := led }, log⟩).run (f ⟨{ d with led := led }, log⟩) = _
        rw [hblind ⟨{ d with led := led }, log⟩ ⟨d, []⟩ rfl, hf]
        dsimp only
        rw [hled, hrun, List.append_assoc]

/-- The log only grows. -/
theorem log_grows_by {p : Prog (Board σ) α} (h : Shielded p) (b : Board σ) :
    b.log <+: (p.run b).2.log := by
  obtain ⟨a, d', new, -, hrun⟩ := h.run b.dev
  have hb : p.run b = (a, ⟨{ d' with led := b.dev.led }, b.log ++ new⟩) := hrun b.dev.led b.log
  exact ⟨new, by rw [hb]⟩

end Shielded

theorem shielded_configureAll (eng : Engine σ) (cs : List SetupCall) :
    Shielded (Atomic.configureAll eng cs) := by
  induction cs with
  | nil => exact .pure EDHOC_SUCCESS
  | cons c cs ih =>
      refine .bind (.call rfl) fun _ => ?_
      exact .ite (.pure _) ih

theorem shielded_edhocSetup (eng : Engine σ) : Shielded (Atomic.edhocSetup eng) := by
  refine .bind (.call rfl) fun _ => ?_
  exact .ite (.pure _) (shielded_configureAll eng setupCalls)

theorem shielded_deriveAndInitOscore (eng : Engine σ) :
    Shielded (Atomic.deriveAndInitOscore eng) := by
  refine .bind (.call rfl) fun _ => .bind (.update fun _ _ => rfl) fun _ => .ite (.pure _) ?_
  refine .bind (.call rfl) fun _ => .bind (.update fun _ _ => rfl) fun _ => .ite (.pure _) ?_
  exact .bind (.update fun _ _ => rfl) fun _ => .pure 0

theorem shielded_edhocMessage1 (eng : Engine σ) (msg : Bytes) :
    Shielded (Atomic.edhocMessage1 eng msg) := by
  unfold Atomic.edhocMessage1
  -- one rule for each form a statement can have
  repeat' first
    | exact .active
    | exact .call rfl
    | exact .update fun _ _ => rfl
    | exact .pure _
    | exact shielded_edhocSetup eng
    | refine .ite ?_ ?_
    | refine .bind ?_ fun _ => ?_

theorem shielded_edhocMessage3 (eng : Engine σ) (msg : Bytes) :
    Shielded (Atomic.edhocMessage3 eng msg) := by
  unfold Atomic.edhocMessage3
  repeat' first
    | exact .active
    | exact .call rfl
    | exact .update fun _ _ => rfl
    | exact .pure _
    | exact shielded_deriveAndInitOscore eng
    | refine .ite ?_ ?_
    | refine .bind ?_ fun _ => ?_

theorem shielded_critical (p : Post σ) : Shielded p.critical := by
  unfold Post.critical
  split
  · exact shielded_edhocMessage1 p.eng _
  · exact shielded_edhocMessage3 p.eng _

/-! ### One POST, in one piece and in pieces -/

/-- The log entries behind the lock: the reply, if there is one. -/
def Post.replies (p : Post σ) (left : Int × Bytes) : List (Call σ) :=
  (p.finish left).2.toList.map fun packet => .coapResourceSend (.packet packet)

theorem edhocReply_exec (p : Post σ) (left : Int × Bytes) (b : Board σ) :
    (edhocReply p.eng p.request left.1 left.2).exec b
      = ((p.finish left).1, { b with log := b.log ++ p.replies left }) := by
  by_cases hrc : left.1 = 0
  · rcases hbuild : edhocResponse p.request left.2 with r | packet
    · simp [edhocReply, Post.finish, Post.replies, hrc, hbuild]
    · simp [edhocReply, Post.finish, Post.replies, hrc, hbuild]
  · simp [edhocReply, Post.finish, Post.replies, hrc]

/-- `edhoc_post` is its critical section between the entry of the request and the reply. -/
theorem edhocPost_exec (p : Post σ) (b : Board σ) :
    (edhocPost p.eng p.request).exec b =
      let inside := p.critical.run { b with log := b.log ++ [.edhocPost p.request.payload] }
      ((p.finish inside.1).1,
        { inside.2 with log := inside.2.log ++ p.replies inside.1 }) := by
  have hframed := p.hframed
  unfold edhocPost Post.critical
  rw [Fw.exec_bind, Fw.exec_call, hframed]
  rcases p.framed with msg | msg
  · dsimp only
    rw [Fw.exec_bind, ← edhocMessage1_run]
    exact edhocReply_exec p _ _
  · dsimp only
    rw [Fw.exec_bind, ← edhocMessage3_run]
    exact edhocReply_exec p _ _

/-- A POST that does not get past the checks does nothing. -/
theorem edhocPost_rejected {request : Request} {r : Int} (eng : Engine σ)
    (hframe : edhocDeframe request.payload = .error r) (b : Board σ) :
    (edhocPost eng request).exec b = (r, { b with log := b.log ++ [.edhocPost request.payload] }) := by
  unfold edhocPost
  rw [Fw.exec_bind, Fw.exec_call, hframe]
  rfl

/-- The same globals, and the same guarded calls. -/
structure Alike (b b' : Board σ) : Prop where
  dev : b.dev = b'.dev
  guarded : b.log.filter Call.guarded = b'.log.filter Call.guarded

theorem filter_replies (p : Post σ) (left : Int × Bytes) :
    (p.replies left).filter Call.guarded = [] := by
  rw [List.filter_eq_nil_iff]
  intro c hc
  obtain ⟨packet, -, rfl⟩ := List.mem_map.mp hc
  simp [Call.guarded]

/-- What a POST hands to `coap_resource_send`. -/
def Call.sent : Call σ → Option Packet
  | .coapResourceSend (.packet packet) => some packet
  | _ => none

theorem sent_guarded {cs : List (Call σ)} (h : ∀ c ∈ cs, c.guarded = true) :
    cs.filterMap Call.sent = [] := by
  rw [List.filterMap_eq_nil_iff]
  intro c hc
  have hg := h c hc
  cases c with
  | coapResourceSend pkt => simp [Call.guarded] at hg
  | _ => rfl

theorem sent_replies (p : Post σ) (left : Int × Bytes) :
    (p.replies left).filterMap Call.sent = (p.finish left).2.toList := by
  unfold Post.replies
  rw [List.filterMap_map]
  show List.filterMap some _ = _
  rw [List.filterMap_some]

/--
**What a POST does**, in one piece and in pieces.  The LED and what is on the log before
it make no difference.
-/
theorem post_ran (p : Post σ) (d : Device σ) :
    ∃ (left : Int × Bytes) (d' : Device σ) (new : List (Call σ)),
      (∀ c ∈ new, c.guarded = true) ∧
      (∀ (led : Led) (log : List (Call σ)), p.critical.run ⟨{ d with led := led }, log⟩
        = (left, ⟨{ d' with led := led }, log ++ new⟩)) ∧
      ∀ (led : Led) (log : List (Call σ)), (edhocPost p.eng p.request).exec ⟨{ d with led := led }, log⟩
        = ((p.finish left).1,
          ⟨{ d' with led := led },
            log ++ (.edhocPost p.request.payload :: (new ++ p.replies left))⟩) := by
  obtain ⟨left, d', new, hnew, hrun⟩ := (shielded_critical p).run d
  refine ⟨left, d', new, hnew, hrun, ?_⟩
  intro led log
  rw [edhocPost_exec]
  dsimp only
  rw [hrun]
  simp

/-- A POST in pieces, next to the same POST in one piece. -/
theorem Alike.post {b b' : Board σ} (h : Alike b b') (p : Post σ) :
    Alike (p.critical.run b).2 (b'.step p.event) ∧
      (p.finish (p.critical.run b).1).1 = b'.ret p.event ∧
      (p.finish (p.critical.run b).1).2.toList = (b'.newCalls p.event).filterMap Call.sent := by
  obtain ⟨left, d', new, hnew, hrun, hexec⟩ := post_ran p b.dev
  have hb : p.critical.run b = (left, ⟨{ d' with led := b.dev.led }, b.log ++ new⟩) :=
    hrun b.dev.led b.log
  have hb' : (edhocPost p.eng p.request).exec b' = _ := h.dev ▸ hexec b.dev.led b'.log
  have hstep : b'.step p.event
      = ⟨{ d' with led := b.dev.led },
          b'.log ++ (.edhocPost p.request.payload :: (new ++ p.replies left))⟩ := by
    show ((edhocPost p.eng p.request).exec b').2 = _
    rw [hb', h.dev]
  have hret : b'.ret p.event = (p.finish left).1 := by
    show ((edhocPost p.eng p.request).exec b').1 = _
    rw [hb']
  refine ⟨⟨?_, ?_⟩, ?_, ?_⟩
  · rw [hb, hstep]
  · rw [hb, hstep]
    simp [List.filter_append, h.guarded, filter_replies, Call.guarded]
  · rw [hb, hret]
  · rw [hb, newCalls_eq (congrArg Board.log hstep)]
    rw [List.filterMap_cons_none rfl, List.filterMap_append, sent_guarded hnew, sent_replies,
      List.nil_append]

/-! ### Any number of them at the same time -/

/-- The board after the given POSTs, handled one at a time. -/
def handled (posts : ι → Post σ) (b : Board σ) (order : List ι) : Board σ :=
  order.foldl (fun b i => b.step (posts i).event) b

/-- The critical sections of the given POSTs. -/
def criticals (posts : ι → Post σ) : ι → Prog (Board σ) (Int × Bytes) := fun i => (posts i).critical

theorem alike_serial (posts : ι → Post σ) (order : List ι) :
    ∀ b b' : Board σ, Alike b b' →
      Alike (serial (criticals posts) b order) (handled posts b' order) := by
  induction order with
  | nil => intro b b' h; exact h
  | cons i order ih =>
      intro b b' h
      exact ih _ _ (h.post (posts i)).1

/-- Events handled one at a time after a run are a longer run. -/
theorem handled_run (ctx : σ) (evs : List (Event σ)) (posts : ι → Post σ) (order : List ι) :
    handled posts ((board ctx).run evs) order
      = (board ctx).run (evs ++ order.map fun i => (posts i).event) := by
  rw [Machine.run_append, List.foldl_map]
  rfl

/-- The engine's history is made of guarded calls. -/
theorem ops_filter_guarded (b : Board σ) : (b.log.filter Call.guarded).filterMap Call.op = b.ops := by
  unfold Board.ops
  rw [List.filterMap_filter]
  congr 1
  funext c
  cases c <;> rfl

theorem Alike.ops {b b' : Board σ} (h : Alike b b') : b.ops = b'.ops := by
  rw [← ops_filter_guarded, h.guarded, ops_filter_guarded]

section

variable [DecidableEq ι]

/--
**POSTs handled at the same time come out as if handled one at a time.**  However the
handlers are interleaved: at most one is in its critical section; when none is, the
globals and the calls into the libraries are those of the POSTs handled in the order in
which they took the mutex; a handler that is through returns and sends what it would
have in that order; and every one of them can still be brought through.
-/
theorem posts_serialise (posts : ι → Post σ) (b : Board σ) (c : Config ι (Board σ) (Int × Bytes))
    (h : Mutex.Reachable (criticals posts) b c) :
    (∀ i j p q, c.phase i = .inside p → c.phase j = .inside q → i = j) ∧
    (c.holder = none → Alike c.shared (handled posts b c.order)) ∧
    (∀ i left, c.phase i = .left left → ∃ past later, c.order = past ++ i :: later ∧
      ((posts i).finish left).1 = (handled posts b past).ret (posts i).event ∧
      ((posts i).finish left).2.toList
        = ((handled posts b past).newCalls (posts i).event).filterMap Call.sent) ∧
    ∀ i, ∃ c', Mutex.Reachable (criticals posts) b c' ∧
      Relation.ReflTransGen (Mutex.Step (criticals posts)) c c' ∧ ∃ left, c'.phase i = .left left := by
  have hinv := serialised h
  refine ⟨fun i j p q hi hj => mutual_exclusion h hi hj, ?_, ?_, gets_through h⟩
  · intro hfree
    rw [hinv.free hfree]
    exact alike_serial posts c.order b b ⟨rfl, rfl⟩
  · intro i left hleft
    obtain ⟨past, later, horder, rfl⟩ := hinv.left i left hleft
    have halike := alike_serial posts past b b ⟨rfl, rfl⟩
    obtain ⟨-, hret, hsent⟩ := halike.post (posts i)
    exact ⟨past, later, horder, hret, hsent⟩

/-- A message_1 and a message_3. -/
def samplePosts : Fin 2 → Post Unit
  | 0 => ⟨edhocRequest [0xf5, 1], willing, .message1 [1], rfl⟩
  | 1 => ⟨edhocRequest [cidToCbor edCRInt.val, 3], willing, .message3 [3], rfl⟩

/-- The message_1 holds the mutex and has done nothing yet. -/
def sampleHeld (b : Board Unit) : Config (Fin 2) (Board Unit) (Int × Bytes) where
  shared := b
  holder := some 0
  phase := Function.update (fun _ => .waiting) 0 (.inside (criticals samplePosts 0))
  order := [0]

theorem sampleHeld_reachable (b : Board Unit) :
    Mutex.Reachable (criticals samplePosts) b (sampleHeld b) := .single (.lock 0 rfl rfl)

/-- While it does, the message_3 can still be brought through. -/
theorem posts_serialise_held :
    ∃ c', Mutex.Reachable (criticals samplePosts) (board ()).init c' ∧
      Relation.ReflTransGen (Mutex.Step (criticals samplePosts)) (sampleHeld (board ()).init) c' ∧
      ∃ left, c'.phase 1 = .left left :=
  (posts_serialise samplePosts (board ()).init _ (sampleHeld_reachable _)).2.2.2 1

/-! ### The handshake under interleaving -/

theorem shielded_inside {posts : ι → Post σ} {b : Board σ}
    {c : Config ι (Board σ) (Int × Bytes)} (h : Mutex.Reachable (criticals posts) b c) :
    ∀ i rest, c.phase i = .inside rest → Shielded rest := by
  refine inside_induction (P := Shielded) (fun i => shielded_critical (posts i)) ?_ h
  intro f next b hact
  cases hact with
  | act _ _ _ _ _ _ hnext => exact hnext b

/-- Whatever has been done so far is the beginning of what will have been done once it is free. -/
theorem ops_prefix {posts : ι → Post σ} {b : Board σ} {c : Config ι (Board σ) (Int × Bytes)}
    (h : Mutex.Reachable (criticals posts) b c) :
    ∃ order, c.shared.ops <+: (handled posts b order).ops := by
  have hinv := serialised h
  rcases hholder : c.holder with _ | i
  · have halike := alike_serial posts c.order b b ⟨rfl, rfl⟩
    rw [← hinv.free hholder] at halike
    exact ⟨c.order, halike.ops ▸ List.prefix_rfl⟩
  · obtain ⟨past, rest, horder, hinside, hout⟩ := hinv.held i hholder
    have hgrows := (shielded_inside h i rest hinside).log_grows_by c.shared
    have halike := alike_serial posts c.order b b ⟨rfl, rfl⟩
    rw [horder, serial_concat] at halike
    rw [hout] at hgrows
    refine ⟨past ++ [i], ?_⟩
    rw [← halike.ops]
    exact hgrows.filterMap _

/--
**No handshake keys OSCORE twice, however many POSTs are handled at once.**  At every
moment of every interleaving each call on the engine context was in order.
-/
theorem handshake_once_interleaved (ctx : σ) (evs : List (Event σ)) (posts : ι → Post σ)
    (c : Config ι (Board σ) (Int × Bytes))
    (h : Mutex.Reachable (criticals posts) ((board ctx).run evs) c) : AtEach UsedOnce c.shared.ops := by
  obtain ⟨order, later, hops⟩ := ops_prefix h
  have honce := (handshakeInv_run ctx (evs ++ order.map fun i => (posts i).event)).once
  rw [← handled_run, ← hops] at honce
  exact (atEach_append.mp honce).1

theorem handshake_once_interleaved_held :
    AtEach UsedOnce (sampleHeld ((board ()).run wholeHandshake)).shared.ops :=
  handshake_once_interleaved () wholeHandshake samplePosts _ (sampleHeld_reachable _)

end

end UsbNcmNet
