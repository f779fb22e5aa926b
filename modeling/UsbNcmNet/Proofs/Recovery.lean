/-
The door stays open.

The device has one context and keeps no list of clients.  Whatever is left of earlier
handshakes, half-finished, abandoned or completed, a message_1 clears away.  So from
every reachable world a client that has not started yet can still get through, if its
datagrams do: the five steps are written down here, from a world of which nothing is
known, with libraries that accept what they may accept.
-/
import UsbNcmNet.Proofs.Agreement

namespace UsbNcmNet

open Trace

variable {σ : Type} {exporter : Transcript → SessionKeys}

/-! ### Exporting given keys -/

/-- A buffer with the given bytes in front, and zeroes. -/
def fill (n : Nat) (bytes : Bytes) : Vector UInt8 n := Vector.ofFn fun i => bytes.getD i 0

theorem take_fill {n : Nat} {bytes : Bytes} (h : bytes.length ≤ n) :
    (fill n bytes).toList.take bytes.length = bytes := by
  apply List.ext_getElem
  · simp [h]
  · intro k hk hk'
    simp [fill, hk']

theorem toList_fill {n : Nat} {bytes : Bytes} (h : bytes.length = n) :
    (fill n bytes).toList = bytes := by
  have htake := take_fill (Nat.le_of_eq h)
  rwa [List.take_of_length_le (by simp [h])] at htake

/-- The keys fit the buffers of the firmware. -/
structure SessionKeys.Sized (k : SessionKeys) : Prop where
  masterSecret : k.masterSecret.length = 16
  masterSalt : k.masterSalt.length = 8
  initiatorId : k.initiatorId.length ≤ 8
  responderId : k.responderId.length ≤ 8

/-- An export of the keys with the given identifiers. -/
def SessionKeys.export (k : SessionKeys) (sender recipient : Bytes) : Export where
  ret := 0
  keys :=
    { masterSecret := fill 16 k.masterSecret, masterSalt := fill 8 k.masterSalt
      senderId := fill 8 sender, recipientId := fill 8 recipient }
  senderIdLen := sender.length
  recipientIdLen := recipient.length

theorem SessionKeys.Sized.exported {k : SessionKeys} (h : k.Sized) {sender recipient : Bytes}
    (hsender : sender.length ≤ 8) (hrecipient : recipient.length ≤ 8) :
    k.Exported sender recipient (k.export sender recipient) where
  masterSecret := toList_fill h.masterSecret
  masterSalt := toList_fill h.masterSalt
  senderId := take_fill hsender
  recipientId := take_fill hrecipient

/-! ### Libraries that accept -/

/-- At the device: every call succeeds, and the keys are exported. -/
def obliging (k : SessionKeys) (ctx : σ) : Engine σ where
  contextInit := 0
  configure := fun _ => 0
  message1Process := 0
  message2Compose := ⟨0, [2]⟩
  message3Process := 0
  message4Compose := ⟨0, [4]⟩
  exportOscoreSession := k.export k.initiatorId k.responderId
  oscoreContextInit := (.ok, ctx)
  send := 0

/-- The POST of a client, as it arrives. -/
def arrival (framed : Framed) (k : SessionKeys) (ctx : σ) : Event σ :=
  .edhoc (edhocRequest framed.encode) (obliging k ctx)

theorem setupLog_obliging (k : SessionKeys) (ctx : σ) :
    setupLog (obliging k ctx)
      = .contextInit 0 :: setupCalls.map fun c => .configure c 0 := rfl

/-- A reply of one byte fits. -/
theorem replied_short {eng : Engine σ} {payload : Bytes} {ret : Int} {byte : UInt8}
    {tail : List (Call σ)} (h : Replied eng (edhocRequest payload) 0 [byte] ret tail) :
    tail = [.coapResourceSend (.packet (edhocPacket (edhocRequest payload) [byte]))] := by
  have hbuilt : edhocResponse (edhocRequest payload) [byte]
      = .ok (edhocPacket (edhocRequest payload) [byte]) := rfl
  cases h with
  | failed hne => exact absurd rfl hne
  | noRoom _ hbuild => rw [hbuilt] at hbuild; simp at hbuild
  | sent _ hbuild =>
      rw [hbuilt] at hbuild
      rw [Except.ok.inj hbuild]

/-- A message_1 is accepted in any state, and its message_2 sent. -/
theorem message1_accepted (b : Board σ) (k : SessionKeys) (ctx : σ) :
    b.step (arrival (.message1 [1]) k ctx) =
      { dev := b.dev.afterMessage1 true
        log := b.log ++ (.edhocPost (some [0xf5, 1]) :: (resetLog b.dev ++
          (setupLog (obliging k ctx) ++ [.message1Process [1] 0, .message2Compose 0])) ++
          [.coapResourceSend (.packet (edhocPacket (edhocRequest [0xf5, 1]) [2]))]) } := by
  have hran := edhocPost_ran (obliging k ctx) (edhocRequest [0xf5, 1]) b
  have hframed : edhocDeframe (edhocRequest [0xf5, 1]).payload = .ok (.message1 [1]) := rfl
  show b.step (.edhoc (edhocRequest [0xf5, 1]) (obliging k ctx)) = _
  generalize b.ret (.edhoc (edhocRequest [0xf5, 1]) (obliging k ctx)) = r,
    b.step (.edhoc (edhocRequest [0xf5, 1]) (obliging k ctx)) = b' at hran
  cases hran with
  | rejected hframe => rw [hframed] at hframe; simp at hframe
  | message3 hframe _ _ => rw [hframed] at hframe; simp at hframe
  | message1 hframe hran hreply =>
      rw [hframed] at hframe
      obtain rfl := Framed.message1.inj (Except.ok.inj hframe)
      cases hran with
      | initFailed hinit => exact absurd rfl hinit
      | configureFailed _ hconf _ => exact Bool.noConfusion (show true = false from hconf)
      | message1Failed _ _ hm1 => exact absurd rfl hm1
      | message2Failed _ _ _ hm2 => exact absurd rfl hm2
      | composed _ _ _ _ =>
          rw [replied_short hreply]
          rfl

/-- And the message_3 behind it: OSCORE is keyed, and its message_4 sent. -/
theorem message3_accepted (b : Board σ) (k : SessionKeys) (ctx : σ)
    (hactive : b.dev.edhocCtxActive = true) :
    b.step (arrival (.message3 [3]) k ctx) =
      { dev := { b.dev with
          keys := (obliging k ctx).exportOscoreSession.keys, oscoreCtx := ctx
          oscoreReady := true, edhocCtxActive := false }
        log := b.log ++ (.edhocPost (some [cidToCbor edCRInt.val, 3]) ::
          [.message3Process [3] 0, .message4Compose 0,
            .exportOscoreSession (obliging k ctx).exportOscoreSession,
            .oscoreContextInit (obliging k ctx).exportOscoreSession.params .ok ctx, .contextDeinit] ++
          [.coapResourceSend (.packet (edhocPacket (edhocRequest [cidToCbor edCRInt.val, 3]) [4]))]) } := by
  have hran := edhocPost_ran (obliging k ctx) (edhocRequest [cidToCbor edCRInt.val, 3]) b
  have hframed : edhocDeframe (edhocRequest [cidToCbor edCRInt.val, 3]).payload
      = .ok (.message3 [3]) := rfl
  show b.step (.edhoc (edhocRequest [cidToCbor edCRInt.val, 3]) (obliging k ctx)) = _
  generalize b.ret (.edhoc (edhocRequest [cidToCbor edCRInt.val, 3]) (obliging k ctx)) = r,
    b.step (.edhoc (edhocRequest [cidToCbor edCRInt.val, 3]) (obliging k ctx)) = b' at hran
  cases hran with
  | rejected hframe => rw [hframed] at hframe; simp at hframe
  | message1 hframe _ _ => rw [hframed] at hframe; simp at hframe
  | message3 hframe hran hreply =>
      rw [hframed] at hframe
      obtain rfl := Framed.message3.inj (Except.ok.inj hframe)
      rcases hran.failed_or_keyed with hfail | hkeyed
      · exact absurd ⟨hactive, rfl, rfl, rfl, rfl⟩ hfail.cause
      · obtain ⟨-, -, -, -, -, rfl, rfl, rfl, rfl⟩ := hkeyed
        rw [replied_short hreply]
        rfl

/-! ### Five steps -/

/-- The client has POSTed its message_1. -/
def World.started (w : World σ) (i : Nat) : World σ :=
  w.move i ⟨(clientStart soleStart).1, none⟩ (.message1 i) (clientStart soleStart).2

/-- The transcript of the context that the device opens next, with client `i`. -/
def World.next (w : World σ) (i : Nat) : Transcript := ⟨i, w.track.contexts + 1⟩

/-- A message_1 has been accepted: what the link looks like then. -/
theorem started_request (w : World σ) (i : Nat) (k : SessionKeys) (ctx : σ) :
    let w' := w.request (arrival (.message1 [1]) k ctx) i
    w'.board.dev.edhocCtxActive = true ∧ w'.track.pending = some (w.next i) ∧
      w'.track.sent = w.track.sent ++ [(.message2 (w.next i), [2])] ∧
      w'.track.installed = w.track.installed ∧ w'.track.contexts = w.track.contexts + 1 := by
  have hstep := message1_accepted w.board k ctx
  obtain ⟨pending, hreset⟩ := track_resetLog i { w.track with out := none } w.board.dev
  have htrack : (w.request (arrival (.message1 [1]) k ctx) i).track
      = { w.track with
          contexts := w.track.contexts + 1, pending := some (w.next i)
          out := some (.message2 (w.next i))
          sent := w.track.sent ++ [(.message2 (w.next i), [2])] } := by
    show (w.board.newCalls (arrival (.message1 [1]) k ctx)).foldl (Track.call i) w.track = _
    rw [newCalls_eq (congrArg Board.log hstep)]
    simp [Track.call, hreset, track_setupLog, World.next, edhocPacket, ackPacket]
  intro w'
  refine ⟨?_, by rw [htrack], by rw [htrack], by rw [htrack], by rw [htrack]⟩
  show (w.board.step (arrival (.message1 [1]) k ctx)).dev.edhocCtxActive = true
  rw [hstep]
  rfl

/-- And when the message_3 has been accepted. -/
theorem pending_request (w : World σ) (i : Nat) (t : Transcript) (k : SessionKeys) (ctx : σ)
    (hactive : w.board.dev.edhocCtxActive = true) (hpending : w.track.pending = some t) :
    let w' := w.request (arrival (.message3 [3]) k ctx) i
    w'.board.dev.oscoreReady = true ∧ w'.board.dev.oscoreCtx = ctx ∧
      latest Call.keyedWith w'.board.log = some (obliging k ctx).exportOscoreSession.params ∧
      w'.track.installed = w.track.installed ++ [t] ∧ (.message4 t, [4]) ∈ w'.track.sent ∧
      w'.track.contexts = w.track.contexts := by
  have hstep := message3_accepted w.board k ctx hactive
  have htrack : (w.request (arrival (.message3 [3]) k ctx) i).track
      = { w.track with
          pending := none, out := some (.message4 t)
          installed := w.track.installed ++ [t]
          sent := w.track.sent ++ [(.message4 t, [4])] } := by
    show (w.board.newCalls (arrival (.message3 [3]) k ctx)).foldl (Track.call i) w.track = _
    rw [newCalls_eq (congrArg Board.log hstep)]
    simp [Track.call, hpending, edhocPacket, ackPacket]
  intro w'
  refine ⟨?_, ?_, ?_, by rw [htrack], by rw [htrack]; simp, by rw [htrack]⟩
  · show (w.board.step (arrival (.message3 [3]) k ctx)).dev.oscoreReady = true
    rw [hstep]
  · show (w.board.step (arrival (.message3 [3]) k ctx)).dev.oscoreCtx = ctx
    rw [hstep]
  · show latest Call.keyedWith (w.board.step (arrival (.message3 [3]) k ctx)).log = _
    rw [hstep]
    simp [Call.keyedWith]

/-- The client's libraries accept message_4 and export the keys. -/
def obliged (k : SessionKeys) : Message4Answers where
  recv := some [4]
  message4Process := 0
  exportOscoreSession := k.export k.responderId k.initiatorId
  oscoreContextInit := .ok

/-! ### The engine keeps its promises -/

theorem promised_message1 (w : World σ) (i : Nat) (k : SessionKeys) (ctx : σ)
    (hsent : (.message1 i, [1]) ∈ w.track.sent) :
    Promised exporter w.track i (w.board.newCalls (arrival (.message1 [1]) k ctx)) := by
  rw [newCalls_eq (congrArg Board.log (message1_accepted w.board k ctx)), setupLog_obliging]
  have hreset : resetLog w.board.dev = [] ∨ resetLog w.board.dev = [.contextDeinit] := by
    unfold resetLog
    split
    · exact .inr rfl
    · exact .inl rfl
  refine ⟨?_, ?_, ?_⟩
  · intro msg hmsg
    obtain rfl : msg = [1] := by rcases hreset with h | h <;> simpa [h, setupCalls] using hmsg
    exact hsent
  · intro msg hmsg
    rcases hreset with h | h <;> simp [h, setupCalls] at hmsg
  · intro s t hs
    rcases hreset with h | h <;> simp [h, setupCalls] at hs

theorem promised_message3 (w : World σ) (i : Nat) (t : Transcript) (ctx : σ)
    (hsize : (exporter t).Sized) (hactive : w.board.dev.edhocCtxActive = true)
    (hpending : w.track.pending = some t) (hsent : (.message3 t, [3]) ∈ w.track.sent) :
    Promised exporter w.track i (w.board.newCalls (arrival (.message3 [3]) (exporter t) ctx)) := by
  rw [newCalls_eq (congrArg Board.log (message3_accepted w.board (exporter t) ctx hactive))]
  refine ⟨by simp, ?_, ?_⟩
  · intro msg hmsg
    obtain rfl : msg = [3] := by simpa using hmsg
    exact ⟨t, hpending, hsent⟩
  · intro s t' hs _ ht'
    obtain rfl : t = t' := Option.some.inj (hpending.symm.trans ht')
    obtain rfl : s = (obliging (exporter t) ctx).exportOscoreSession := by simpa using hs
    exact hsize.exported hsize.initiatorId hsize.responderId

/-- A step in which no protected request is handled. -/
inductive HandshakeStep (exporter : Transcript → SessionKeys) : World σ → World σ → Prop
  /-- A client moves on. -/
  | client {w w' : World σ} (hstep : Step exporter w w') (hboard : w'.board = w.board) :
      HandshakeStep exporter w w'
  /-- The device handles a POST. -/
  | edhoc {w : World σ} (request : Request) (eng : Engine σ) (i : Nat)
      (hpromised : Promised exporter w.track i (w.board.newCalls (.edhoc request eng))) :
      HandshakeStep exporter w (w.request (.edhoc request eng) i)

theorem HandshakeStep.step {w w' : World σ} (h : HandshakeStep exporter w w') :
    Step exporter w w' := by
  cases h with
  | client hstep _ => exact hstep
  | edhoc request eng i hpromised => exact .request _ i hpromised

/-- The five steps, with a context that is initialised as `init` says. -/
theorem handshake_gets_through (hsized : ∀ t, (exporter t).Sized) (init : OscoreInitParams → σ)
    (w : World σ) (i : Nat) (hidle : (w.clients i).phase = .idle) :
    ∃ w' session, Relation.ReflTransGen (HandshakeStep exporter) w w' ∧
      (w'.clients i).phase = .complete (some session) ∧ w'.board.dev.oscoreReady = true ∧
      w'.board.dev.oscoreCtx = init session.swapped ∧
      latest Call.keyedWith w'.board.log = some session.swapped ∧
      w'.track.installed = w.track.installed ++ [w.next i] ∧
      w'.track.contexts = w.track.contexts + 1 ∧ ∀ j, j ≠ i → w'.clients j = w.clients j := by
  have hsize := hsized (w.next i)
  let k := exporter (w.next i)
  let ctx := init (k.export k.initiatorId k.responderId).params
  -- message_1 goes out and comes in
  let w₁ := w.started i
  have hstep₁ : HandshakeStep exporter w w₁ := .client (.start i soleStart hidle) rfl
  have hphase₁ : w₁.clients i = ⟨.awaiting2, none⟩ := Function.update_self ..
  have hsent₁ : (.message1 i, [1]) ∈ w₁.track.sent := List.mem_append_right _ (List.mem_singleton.mpr rfl)
  let w₂ := w₁.request (arrival (.message1 [1]) k ctx) i
  have hstep₂ : HandshakeStep exporter w₁ w₂ :=
    .edhoc _ _ i (promised_message1 w₁ i k ctx hsent₁)
  obtain ⟨hactive₂, hpending₂, hsent₂, hinstalled₂, hcontexts₂⟩ := started_request w₁ i k ctx
  -- message_2 comes back and message_3 goes out
  let w₃ := w₂.move i ⟨.awaiting4, some (w.next i)⟩ (.message3 (w.next i)) (some (.message3 [3]))
  have hstep₃ : HandshakeStep exporter w₂ w₃ := by
    refine .client (.message2 i (w.track.contexts + 1) soleMessage2
      (congrArg ClientRun.phase hphase₁) ?_) rfl
    intro resp hrecv _
    obtain rfl : [2] = resp := Option.some.inj hrecv
    rw [hsent₂]
    exact List.mem_append_right _ (List.mem_singleton.mpr rfl)
  have hphase₃ : w₃.clients i = ⟨.awaiting4, some (w.next i)⟩ := Function.update_self ..
  have hsent₃ : (.message3 (w.next i), [3]) ∈ w₃.track.sent :=
    List.mem_append_right _ (List.mem_singleton.mpr rfl)
  -- message_3 comes in and message_4 goes out
  let w₄ := w₃.request (arrival (.message3 [3]) k ctx) i
  have hstep₄ : HandshakeStep exporter w₃ w₄ :=
    .edhoc _ _ i (promised_message3 w₃ i (w.next i) ctx hsize hactive₂ hpending₂ hsent₃)
  obtain ⟨hready, hctx, hkeyed, hinstalled, hsent₄, hcontexts⟩ :=
    pending_request w₃ i (w.next i) k ctx hactive₂ hpending₂
  -- message_4 comes back
  let w₅ := w₄.move i ⟨clientMessage4 (obliged k), some (w.next i)⟩ (.message4 (w.next i)) none
  have hstep₅ : HandshakeStep exporter w₄ w₅ := by
    refine .client (.message4 i (w.next i) (obliged k) (congrArg ClientRun.phase hphase₃)
      (congrArg ClientRun.transcript hphase₃) ?_ ?_) rfl
    · intro resp hrecv _
      obtain rfl : [4] = resp := Option.some.inj hrecv
      exact hsent₄
    · intro _
      exact hsize.exported hsize.responderId hsize.initiatorId
  have hphase₅ : w₅.clients i = ⟨clientMessage4 (obliged k), some (w.next i)⟩ :=
    Function.update_self ..
  -- and the two ends have the same keys, the other way round
  have hswapped : (k.export k.initiatorId k.responderId).params
      = (obliged k).exportOscoreSession.params.swapped := by
    show _ = (k.export k.responderId k.initiatorId).params.swapped
    rw [(hsize.exported hsize.initiatorId hsize.responderId).params,
      (hsize.exported hsize.responderId hsize.initiatorId).params]
    rfl
  refine ⟨w₅, (obliged k).exportOscoreSession.params,
    .tail (.tail (.tail (.tail (.tail .refl hstep₁) hstep₂) hstep₃) hstep₄) hstep₅,
    congrArg ClientRun.phase hphase₅, hready, hctx.trans (congrArg init hswapped),
    hkeyed.trans (congrArg some hswapped),
    hinstalled.trans (congrArg (· ++ [w.next i]) hinstalled₂), hcontexts.trans hcontexts₂, ?_⟩
  intro j hj
  show Function.update (Function.update (Function.update w.clients i _) i _) i _ j = _
  rw [Function.update_of_ne hj, Function.update_of_ne hj, Function.update_of_ne hj]

/--
**A client can always get through.**  From any world, whatever handshakes are pending or
forgotten in it, there are steps after which a client that was idle has a session, and
the device has the same one, keyed last.
-/
theorem client_gets_through (exporter : Transcript → SessionKeys)
    (hsized : ∀ t, (exporter t).Sized) (w : World σ) (i : Nat)
    (hidle : (w.clients i).phase = .idle) :
    ∃ w' session, Relation.ReflTransGen (Step exporter) w w' ∧
      (w'.clients i).phase = .complete (some session) ∧ w'.board.dev.oscoreReady = true ∧
      latest Call.keyedWith w'.board.log = some session.swapped ∧
      w'.track.installed = w.track.installed ++ [w.next i] := by
  obtain ⟨w', session, hrun, hphase, hready, -, hkeyed, hinstalled, -, -⟩ :=
    handshake_gets_through hsized (fun _ => w.board.dev.oscoreCtx) w i hidle
  exact ⟨w', session, Relation.ReflTransGen.mono (fun _ _ => HandshakeStep.step) _ _ hrun, hphase,
    hready, hkeyed, hinstalled⟩

theorem soleKeys_sized (t : Transcript) : (soleKeys t).Sized where
  masterSecret := rfl
  masterSalt := rfl
  initiatorId := Nat.le_add_right 1 7
  responderId := Nat.le_add_right 1 7

/-- Keys with a secret of its own for each context of the device. -/
def ownKeys (t : Transcript) : SessionKeys :=
  { soleKeys t with masterSecret := List.replicate 16 (UInt8.ofNat t.responder) }

theorem ownKeys_sized (t : Transcript) : (ownKeys t).Sized where
  masterSecret := rfl
  masterSalt := rfl
  initiatorId := Nat.le_add_right 1 7
  responderId := Nat.le_add_right 1 7

/-- A second client, after a first that is through. -/
theorem client_gets_through_second :
    ∃ w' session, Relation.ReflTransGen (Step soleKeys) soleWorld w' ∧
      (w'.clients 1).phase = .complete (some session) ∧ w'.board.dev.oscoreReady = true ∧
      latest Call.keyedWith w'.board.log = some session.swapped ∧
      w'.track.installed = soleWorld.track.installed ++ [⟨1, 2⟩] :=
  client_gets_through soleKeys soleKeys_sized soleWorld 1 rfl

end UsbNcmNet
