/-
What an established session can rely on.

`oscore_ready` promises a security context that was keyed by the last completed
handshake and that nothing has touched since, although
`derive_and_init_oscore` overwrites the live key buffers before it knows whether
it will succeed.  What saves it is a relation no line of the code checks:
`oscore_ready` and `edhoc_ctx_active` are never set together, because a message_1
clears the first before it can set the second.

The other side of the same line is that any payload beginning with 0xf5 ends the
session, whether or not the engine accepts what follows.
-/
import UsbNcmNet.Proofs.Board

namespace UsbNcmNet

variable {σ : Type}

/-! ### Established sessions -/

/-- The context as `oscore2coap` or `coap2oscore` leaves it. -/
def Call.pipelineCtx : Call σ → Option σ
  | .oscore2coap _ ctx => some ctx
  | .coap2oscore _ _ ctx => some ctx
  | _ => none

/-- A context advanced by the OSCORE pipeline calls of a stretch of the log. -/
def advance (ctx : σ) (cs : List (Call σ)) : σ :=
  cs.foldl (fun ctx c => c.pipelineCtx.getD ctx) ctx

/-- The entries that would end or replace a session: a message_1, an export, a context init. -/
def Call.rekeys : Call σ → Bool
  | .edhocPost payload => startsMessage1 payload
  | .exportOscoreSession _ => true
  | .oscoreContextInit _ _ _ => true
  | _ => false

/-- The parameters are what an export wrote, each buffer as far as it was filled. -/
structure Export.Gives (s : Export) (params : OscoreInitParams) : Prop where
  masterSecret : params.masterSecret = s.keys.masterSecret.toList
  masterSalt : params.masterSalt = s.keys.masterSalt.toList
  senderId : params.senderId = s.keys.senderId.toList.take s.senderIdLen
  recipientId : params.recipientId = s.keys.recipientId.toList.take s.recipientIdLen
  idContext : params.idContext = []
  fresh : params.freshMasterSecretSalt = true

/--
A live session.  No handshake is pending, and the log ends in a successful export
and a context init with what was exported, followed by nothing that rekeys: the
buffers hold what that export wrote, and the context is the one that init made,
advanced only by the OSCORE pipeline.
-/
structure Established (b : Board σ) : Prop where
  idle : b.dev.edhocCtxActive = false
  keyed : ∃ pre session params ctx post,
    b.log = pre ++ .exportOscoreSession session :: .oscoreContextInit params .ok ctx :: post ∧
    session.ret = EDHOC_SUCCESS ∧ session.Gives params ∧ b.dev.keys = session.keys ∧
    b.dev.oscoreCtx = advance ctx post ∧ ∀ c ∈ post, c.rekeys = false

/-- Entries that do not rekey keep a session, its context advanced by them. -/
theorem Established.extend {b b' : Board σ} {new : List (Call σ)} (h : Established b)
    (hlog : b'.log = b.log ++ new) (hnew : ∀ c ∈ new, c.rekeys = false)
    (hactive : b'.dev.edhocCtxActive = b.dev.edhocCtxActive) (hkeys : b'.dev.keys = b.dev.keys)
    (hctx : b'.dev.oscoreCtx = advance b.dev.oscoreCtx new) : Established b' := by
  obtain ⟨pre, session, params, ctx, post, hsplit, hret, hgives, hkeys', hctx', hpost⟩ := h.keyed
  refine ⟨by rw [hactive, h.idle], pre, session, params, ctx, post ++ new, ?_, hret, hgives,
    ?_, ?_, ?_⟩
  · rw [hlog, hsplit]; simp
  · rw [hkeys, hkeys']
  · rw [hctx, hctx']; simp [advance]
  · intro c hc
    rcases List.mem_append.mp hc with hc | hc
    · exact hpost c hc
    · exact hnew c hc

/-! ### One request -/

/-- A message_1 ends the session, whatever the engine makes of it. -/
theorem message1_clears_ready {b : Board σ} {request : Request} {eng : Engine σ}
    (hstart : startsMessage1 request.payload = true) :
    (b.step (.edhoc request eng)).dev.oscoreReady = false := by
  obtain ⟨msg, out, rc, d, cs, tail, hran, -, hb⟩ := edhocPost_message1 (b := b) eng hstart
  rw [hb]
  cases hran <;> rfl

/-- A session outlives an EDHOC POST only if that is no message_1, and then untouched. -/
theorem Established.edhoc {b : Board σ} {request : Request} {eng : Engine σ} (h : Established b)
    (hready : (b.step (.edhoc request eng)).dev.oscoreReady = true) :
    Established (b.step (.edhoc request eng)) := by
  cases hstart : startsMessage1 request.payload with
  | true =>
      rw [message1_clears_ready hstart] at hready
      exact Bool.noConfusion hready
  | false =>
      rw [edhocPost_of_idle eng h.idle hstart]
      exact h.extend rfl (by simpa [Call.rekeys] using hstart) rfl rfl rfl

private theorem reply_rekeys {eng : Engine σ} {request : Request} {rc ret : Int} {out : Bytes}
    {tail : List (Call σ)} (h : Replied eng request rc out ret tail) :
    (∀ c ∈ tail, c.rekeys = false) ∧ ∀ ctx, advance ctx tail = ctx := by
  cases h <;> simp [Call.rekeys, advance, Call.pipelineCtx]

/-- A session that was not there before is the one this POST keyed. -/
theorem established_of_keyed {b : Board σ} {request : Request} {eng : Engine σ}
    (hnot : b.dev.oscoreReady = false)
    (hready : (b.step (.edhoc request eng)).dev.oscoreReady = true) :
    Established (b.step (.edhoc request eng)) := by
  have hran := edhocPost_ran eng request b
  generalize b.ret (.edhoc request eng) = r, b.step (.edhoc request eng) = b' at hran hready
  cases hran with
  | rejected _ => simp [hnot] at hready
  | message1 _ hran _ => cases hran <;> exact Bool.noConfusion hready
  | @message3 msg _ _ _ _ _ tail _ hran hreply =>
      rcases hran.failed_or_keyed with hfail | hkeyed
      · simp [hfail.ready, hnot] at hready
      · obtain ⟨htail, hadv⟩ := reply_rekeys hreply
        obtain ⟨-, -, -, hexp, -, rfl, rfl, rfl, rfl⟩ := hkeyed
        refine ⟨rfl, b.log ++ [.edhocPost request.payload, .message3Process msg 0,
          .message4Compose 0], eng.exportOscoreSession, eng.exportOscoreSession.params,
          eng.oscoreContextInit.2, .contextDeinit :: tail, by simp, hexp,
          ⟨rfl, rfl, rfl, rfl, rfl, rfl⟩, rfl, ?_, ?_⟩
        · simpa [advance, Call.pipelineCtx] using (hadv eng.oscoreContextInit.2).symm
        · simpa [Call.rekeys] using htail

theorem established_oscore {b : Board σ} {osc : OscoreEngine σ}
    (h : b.dev.oscoreReady = true → Established b)
    (hready : (b.step (.oscore osc)).dev.oscoreReady = true) :
    Established (b.step (.oscore osc)) := by
  have hran := oscorePost_ran osc b
  generalize b.ret (.oscore osc) = r, b.step (.oscore osc) = b' at hran hready
  cases hran with
  | notReady hno => rw [hno] at hready; exact Bool.noConfusion hready
  | rejected hyes =>
      exact (h hyes).extend rfl (by simp [Call.rekeys]) rfl rfl
        (by simp [advance, Call.pipelineCtx])
  | unbuilt hyes _ _ =>
      exact (h hyes).extend rfl (by simp [Call.rekeys]) rfl rfl
        (by simp [advance, Call.pipelineCtx])
  | answered hyes _ _ htail =>
      refine (h hyes).extend rfl ?_ rfl rfl ?_
      · rcases htail with rfl | rfl <;> simp [Call.rekeys]
      · rcases htail with rfl | rfl <;> simp [advance, Call.pipelineCtx]

theorem established_app {b : Board σ} {request : Request} {gpio send : Int}
    (h : b.dev.oscoreReady = true → Established b)
    (hready : (b.step (.app request gpio send)).dev.oscoreReady = true) :
    Established (b.step (.app request gpio send)) := by
  have hran := appRequest_ran gpio send request b
  generalize b.step (.app request gpio send) = b' at hran hready
  cases hran with
  | mk _ htail =>
      refine (h hready).extend rfl ?_ rfl rfl ?_
      · rcases htail with rfl | ⟨p, rfl⟩ <;> simp [Call.rekeys]
      · rcases htail with rfl | ⟨p, rfl⟩ <;> simp [advance, Call.pipelineCtx]

/-! ### Every run -/

/-- A board that says it is ready has a live session, after every run. -/
theorem established_of_ready (ctx : σ) (evs : List (Event σ)) :
    ((board ctx).run evs).dev.oscoreReady = true → Established ((board ctx).run evs) := by
  refine (board ctx).run_induction (P := fun _ b => b.dev.oscoreReady = true → Established b)
    (fun h => Bool.noConfusion h) ?_ evs
  intro _ b e h hready
  cases e with
  | edhoc request eng =>
      cases hbefore : b.dev.oscoreReady with
      | true => exact (h hbefore).edhoc hready
      | false => exact established_of_keyed hbefore hready
  | oscore osc => exact established_oscore h hready
  | app request gpio send => exact established_app h hready

/--
**The session-state invariant.**  A ready board has no handshake pending and a
context and buffers that are those of the last export, untouched since.  From
there, POSTs that are no message_1 change none of the globals, however many.
-/
theorem session_state (ctx : σ) (evs : List (Event σ)) :
    let b := (board ctx).run evs
    b.dev.oscoreReady = true →
      Established b ∧
      ∀ posts : List (Request × Engine σ),
        (∀ p ∈ posts, startsMessage1 p.1.payload = false) →
        ((posts.map fun p => Event.edhoc p.1 p.2).foldl Board.step b).dev = b.dev := by
  intro b hready
  have hest := established_of_ready ctx evs hready
  refine ⟨hest, ?_⟩
  intro posts hposts
  refine (board ctx).foldl_induction (P := fun b' => b'.dev = b.dev)
    (fun e => ∃ request eng, e = .edhoc request eng ∧ startsMessage1 request.payload = false)
    ?_ _ b ?_ rfl
  · rintro b' e ⟨request, eng, rfl, hstart⟩ hdev
    have hidle : b'.dev.edhocCtxActive = false := by rw [hdev]; exact hest.idle
    rw [board_step, edhocPost_of_idle eng hidle hstart]
    exact hdev
  · intro e he
    obtain ⟨p, hp, rfl⟩ := List.mem_map.mp he
    exact ⟨p.1, p.2, rfl, hposts p hp⟩

theorem session_state_wholeHandshake :
    ((board ()).run wholeHandshake).dev.oscoreReady = true ∧
      Established ((board ()).run wholeHandshake) ∧
      ∀ posts : List (Request × Engine Unit),
        (∀ p ∈ posts, startsMessage1 p.1.payload = false) →
        ((posts.map fun p => Event.edhoc p.1 p.2).foldl Board.step
          ((board ()).run wholeHandshake)).dev = ((board ()).run wholeHandshake).dev :=
  ⟨rfl, session_state () wholeHandshake rfl⟩

/-! ### A POST that fails

The responder means a fresh message_1 to reset a half-finished handshake.  It
resets a finished one as well, and before it knows whether the message is any
good.
-/

/-- The session is still there: ready, with the same context and the same buffers. -/
def Device.SessionKept (d d' : Device σ) : Prop :=
  d'.oscoreReady = true ∧ d'.oscoreCtx = d.oscoreCtx ∧ d'.keys = d.keys

/-- **A failed POST keeps the session exactly when it is no message_1.** -/
theorem failed_post_keeps_session_iff (ctx : σ) (evs : List (Event σ)) (request : Request)
    (eng : Engine σ) (hready : ((board ctx).run evs).dev.oscoreReady = true)
    (_hfail : ((board ctx).run evs).ret (.edhoc request eng) < 0) :
    ((board ctx).run evs).dev.SessionKept (((board ctx).run evs).step (.edhoc request eng)).dev ↔
      startsMessage1 request.payload = false := by
  constructor
  · rintro ⟨hready', -, -⟩
    by_contra hc
    rw [message1_clears_ready (by simpa using hc)] at hready'
    exact Bool.noConfusion hready'
  · intro hstart
    rw [edhocPost_of_idle eng (established_of_ready ctx evs hready).idle hstart]
    exact ⟨hready, rfl, rfl⟩

/-- Libraries that take the handshake so far and reject what is presented as a message_1. -/
def refusing : Engine Unit := { willing with message1Process := -1 }

theorem stray_message3_keeps_session :
    let b := (board ()).run wholeHandshake
    let stray := edhocRequest [cidToCbor edCRInt.val, 3]
    b.dev.oscoreReady = true ∧ b.ret (.edhoc stray refusing) < 0 ∧
      b.dev.SessionKept (b.step (.edhoc stray refusing)).dev :=
  ⟨rfl, by decide, (failed_post_keeps_session_iff () wholeHandshake
    (edhocRequest [cidToCbor edCRInt.val, 3]) refusing rfl (by decide)).mpr rfl⟩

/-- Two bytes that the engine rejects, and the authenticated peer is cut off. -/
theorem rejected_message1_ends_session :
    let b := (board ()).run wholeHandshake
    let bogus := edhocRequest [0xf5, 0]
    b.dev.oscoreReady = true ∧ b.ret (.edhoc bogus refusing) < 0 ∧
      ¬ b.dev.SessionKept (b.step (.edhoc bogus refusing)).dev := by
  refine ⟨rfl, by decide, ?_⟩
  rintro ⟨hready, -, -⟩
  exact Bool.noConfusion hready

end UsbNcmNet
