/-
When the two OSCORE identifiers coincide.

The Sender ID of a session is the peer's C_I, the Recipient ID the device's own
C_R.  The device fixes C_R before it has seen C_I, and nobody compares the two: not
the responder, not the export, not `oscore_context_init`.  A peer that picks the
device's own identifier gets both directions keyed alike.

What C_I a message_1 carries is for the engine to parse, so it is a parameter
here, and what a successful export yields is an assumption on the log:
`ExportsIdentifiers`.
-/
import UsbNcmNet.Lib.Trace
import UsbNcmNet.Proofs.Reply

namespace UsbNcmNet

open Trace

variable {σ : Type}

/-! ### Identifiers that clash -/

/-- The connection identifiers that encode to the device's own OSCORE identifier. -/
def ConnectionId.Clashes (ci : ConnectionId) : Prop :=
  ci = .oneByteInteger edCRInt ∨ ci = .byteString [0x27]

instance (ci : ConnectionId) : Decidable ci.Clashes := inferInstanceAs (Decidable (_ ∨ _))

theorem cidToCbor_eq_iff (v : OneByteInt) :
    cidToCbor v.val = cidToCbor edCRInt.val ↔ v = edCRInt := by
  obtain ⟨v, hlo, hhi⟩ := v
  have hdec : ∀ n : Fin 48, cidToCbor ((n.val : Int) - 24) = cidToCbor edCRInt.val →
      (n.val : Int) - 24 = edCRInt.val := by decide
  constructor
  · intro h
    have hn : (v + 24).toNat < 48 := by omega
    have hv : ((v + 24).toNat : Int) - 24 = v := by omega
    have := hdec ⟨(v + 24).toNat, hn⟩
    simp only [hv] at this
    exact Subtype.ext (this h)
  · intro h
    rw [h]

/-- Only C_R itself, as an integer or as the byte it encodes to, gives the device's identifier. -/
theorem oscoreId_eq_iff (ci : ConnectionId) :
    ci.oscoreId = (ConnectionId.oneByteInteger edCRInt).oscoreId ↔ ci.Clashes := by
  cases ci with
  | oneByteInteger v => simp [ConnectionId.oscoreId, ConnectionId.Clashes, cidToCbor_eq_iff]
  | byteString bs =>
      have hcr : cidToCbor edCRInt.val = 0x27 := by decide
      simp [ConnectionId.oscoreId, ConnectionId.Clashes, hcr]

/-! ### What the log says about identifiers -/

section

variable (peerId : Bytes → ConnectionId)

/-- The C_I an accepted message_1 brought. -/
def Call.peer : Call σ → Option ConnectionId
  | .message1Process msg ret => if ret = EDHOC_SUCCESS then some (peerId msg) else none
  | _ => none

/-- The identifier the firmware set on the context. -/
def Call.own : Call σ → Option ConnectionId
  | .configure (.setConnectionId cid) ret => if ret = EDHOC_SUCCESS then some cid else none
  | _ => none

/-- The parameters of a context init that succeeded. -/
def Call.keyedWith : Call σ → Option OscoreInitParams
  | .oscoreContextInit params err _ => if err = .ok then some params else none
  | _ => none

/--
A successful export returns the encoding of the peer's C_I as Sender ID and of
the identifier set on the context as Recipient ID.
-/
def ExportsIdentifiers : List (Call σ) → Prop :=
  AtEach fun pre c => ∀ session, c = .exportOscoreSession session → session.ret = EDHOC_SUCCESS →
    ∀ ci cr, latest (Call.peer peerId) pre = some ci → latest Call.own pre = some cr →
      session.keys.senderId.toList.take session.senderIdLen = ci.oscoreId ∧
        session.keys.recipientId.toList.take session.recipientIdLen = cr.oscoreId

/-- What is known of the identifiers between two requests. -/
structure IdentifierInv (b : Board σ) : Prop where
  pending : b.dev.edhocCtxActive = true →
    (∃ ci, latest (Call.peer peerId) b.log = some ci) ∧
      latest Call.own b.log = some (.oneByteInteger edCRInt)
  ready : b.dev.oscoreReady = true →
    ∃ ci params, latest (Call.peer peerId) b.log = some ci ∧
      latest Call.keyedWith b.log = some params ∧ params.senderId = ci.oscoreId ∧
      params.recipientId = (ConnectionId.oneByteInteger edCRInt).oscoreId

end

variable {peerId : Bytes → ConnectionId}

/-- Entries that say nothing of identifiers keep what is known, if no flag is raised. -/
theorem IdentifierInv.extend {b b' : Board σ} {new : List (Call σ)} (h : IdentifierInv peerId b)
    (hlog : b'.log = b.log ++ new) (hpeer : latest (Call.peer peerId) new = none)
    (hown : latest Call.own new = none) (hkeyed : latest Call.keyedWith new = none)
    (hactive : b'.dev.edhocCtxActive = true → b.dev.edhocCtxActive = true)
    (hready : b'.dev.oscoreReady = true → b.dev.oscoreReady = true) : IdentifierInv peerId b' where
  pending ha := by
    rw [hlog, latest_append, latest_append, hpeer, hown]
    exact h.pending (hactive ha)
  ready hr := by
    rw [hlog, latest_append, latest_append, hpeer, hkeyed]
    exact h.ready (hready hr)

theorem own_setupLog {eng : Engine σ} (h : eng.configures = true) :
    latest Call.own (setupLog eng) = some (.oneByteInteger edCRInt) := by
  have hall : ∀ c ∈ setupCalls, eng.configure c = 0 := by
    simpa [Engine.configures] using h
  simp [setupCalls] at hall
  simp [setupLog, setupCalls, configureLog, hall, Call.own]

/-- Calls that settle nothing key nothing. -/
theorem keyedWith_eq_none {cs : List (Call σ)} (h : ∀ c ∈ cs, c.settles = false) :
    latest Call.keyedWith cs = none := by
  refine latest_eq_none ?_
  intro c hc
  have hsettles := h c hc
  cases c with
  | oscoreContextInit params err ctx =>
      have herr : err ≠ .ok := of_decide_eq_false hsettles
      simp [Call.keyedWith, herr]
  | _ => rfl

/-- Nor do they say anything else of identifiers. -/
theorem says_nothing (peerId : Bytes → ConnectionId) {cs : List (Call σ)}
    (h : ∀ c ∈ cs, c.settles = false) :
    latest (Call.peer peerId) cs = none ∧ latest Call.own cs = none ∧
      latest Call.keyedWith cs = none := by
  refine ⟨latest_eq_none ?_, latest_eq_none ?_, keyedWith_eq_none h⟩ <;>
  · intro c hc
    have hsettles := h c hc
    cases c <;> first | rfl | exact Bool.noConfusion hsettles

/-! ### One request -/

theorem identifiers_edhoc {b : Board σ} {request : Request} {eng : Engine σ}
    (h : IdentifierInv peerId b)
    (hlog : ExportsIdentifiers peerId (b.step (.edhoc request eng)).log) :
    IdentifierInv peerId (b.step (.edhoc request eng)) := by
  have hran := edhocPost_ran eng request b
  generalize b.ret (.edhoc request eng) = r, b.step (.edhoc request eng) = b' at hran hlog
  cases hran with
  | rejected _ =>
      exact h.extend rfl (by simp [Call.peer]) (by simp [Call.own]) (by simp [Call.keyedWith])
        id id
  | message1 _ hran hreply =>
      obtain ⟨hpeer, hown, -⟩ := says_nothing peerId (settles_of_serves hreply.serves)
      cases hran with
      | composed _ hconf _ _ =>
          refine ⟨fun _ => ?_, fun hr => Bool.noConfusion hr⟩
          simp [hpeer, hown, own_setupLog hconf, Call.peer, Call.own]
      | _ => exact ⟨fun ha => Bool.noConfusion ha, fun hr => Bool.noConfusion hr⟩
  | @message3 msg _ _ _ _ _ tail _ hran hreply =>
      rcases hran.failed_or_keyed with hfail | hkeyed
      · obtain rfl := hreply.silent hfail.rc
        obtain ⟨hpeer, hown, hkeyed⟩ := says_nothing peerId hfail.settles
        exact h.extend rfl (by simp [hpeer, Call.peer]) (by simp [hown, Call.own])
          (by simp [hkeyed, Call.keyedWith]) (by simp [hfail.idle]) (by simp [hfail.ready])
      · obtain ⟨hpeer, -, htail⟩ := says_nothing peerId (settles_of_serves hreply.serves)
        obtain ⟨hactive, -, -, hexp, -, rfl, rfl, rfl, rfl⟩ := hkeyed
        obtain ⟨⟨ci, hci⟩, hcr⟩ := h.pending hactive
        -- the export is the fourth entry of this request; the handshake's C_I is still the latest
        have hids := hlog (b.log ++ [.edhocPost request.payload, .message3Process msg 0,
          .message4Compose 0]) (.exportOscoreSession eng.exportOscoreSession)
          (.oscoreContextInit eng.exportOscoreSession.params .ok eng.oscoreContextInit.2 ::
            .contextDeinit :: tail)
          (by simp) _ rfl hexp ci (.oneByteInteger edCRInt)
          (by simp [hci, Call.peer]) (by simp [hcr, Call.own])
        refine ⟨fun ha => Bool.noConfusion ha,
          fun _ => ⟨ci, eng.exportOscoreSession.params, ?_, ?_, hids.1, hids.2⟩⟩
        · simp [hpeer, hci, Call.peer]
        · simp [htail, Call.keyedWith]

theorem identifiers_step {b : Board σ} {e : Event σ} (h : IdentifierInv peerId b)
    (hlog : ExportsIdentifiers peerId (b.step e).log) : IdentifierInv peerId (b.step e) := by
  rcases e.edhoc_or_not with ⟨request, eng, rfl⟩ | he
  · exact identifiers_edhoc h hlog
  · have hserved := served_of_not_edhoc (b := b) he
    obtain ⟨new, hnew, hserves⟩ := hserved.log
    obtain ⟨hpeer, hown, hkeyed⟩ := says_nothing peerId (settles_of_serves hserves)
    exact h.extend hnew hpeer hown hkeyed (by rw [hserved.active]; exact id)
      (by rw [hserved.ready]; exact id)

/-! ### Every run -/

theorem identifiers_run (ctx : σ) (evs : List (Event σ)) :
    ExportsIdentifiers peerId ((board ctx).run evs).log →
      IdentifierInv peerId ((board ctx).run evs) := by
  refine (board ctx).run_induction
    (P := fun _ b => ExportsIdentifiers peerId b.log → IdentifierInv peerId b) ?_ ?_ evs
  · intro _
    exact ⟨fun ha => Bool.noConfusion ha, fun hr => Bool.noConfusion hr⟩
  · intro _ b e ih hlog
    refine identifiers_step (ih ?_) hlog
    obtain ⟨new, hnew⟩ := log_grows b e
    rw [board_step, hnew] at hlog
    exact (atEach_append.mp hlog).1

/-- A message_1 in this request, if it is one, carries no identifier that clashes. -/
def Event.Distinct (peerId : Bytes → ConnectionId) : Event σ → Prop
  | .edhoc request _ =>
      ∀ msg, edhocDeframe request.payload = .ok (.message1 msg) → ¬ (peerId msg).Clashes
  | _ => True

private theorem message1_not_mem_resetLog {d : Device σ} {msg : Bytes} {ret : Int} :
    Call.message1Process msg ret ∉ resetLog d := by
  intro h
  unfold resetLog at h
  split at h <;> simp at h

private theorem message1_not_mem_setupLog {eng : Engine σ} {msg : Bytes} {ret : Int} :
    Call.message1Process msg ret ∉ setupLog eng := by
  intro h
  rcases List.mem_cons.mp h with h | h
  · cases h
  · obtain ⟨s, r, h⟩ := mem_configureLog h
    cases h

/-- What `edhoc_message_1_process` is given is what the POST carried behind the 0xf5. -/
theorem message1_deframed {b : Board σ} {request : Request} {eng : Engine σ} {msg : Bytes}
    {ret : Int} (h : Call.message1Process msg ret ∈ (b.step (.edhoc request eng)).log) :
    Call.message1Process msg ret ∈ b.log ∨
      edhocDeframe request.payload = .ok (.message1 msg) := by
  have hran := edhocPost_ran eng request b
  generalize b.ret (.edhoc request eng) = r, b.step (.edhoc request eng) = b' at hran h
  have htail : ∀ {rc r out tail}, Replied eng request rc out r tail →
      Call.message1Process msg ret ∉ tail :=
    fun hreply hc => Bool.noConfusion (hreply.serves _ hc)
  cases hran with
  | rejected _ => exact .inl (by simpa using h)
  | message1 hframe hran hreply =>
      have htail := htail hreply
      rw [hframe]
      cases hran <;>
        simp [htail, message1_not_mem_resetLog, message1_not_mem_setupLog] at h ⊢ <;>
        first | exact .inl h | exact h.imp_right fun hm => hm.1.symm
  | message3 _ hran hreply =>
      have htail := htail hreply
      left
      cases hran <;> simpa [htail] using h

/-- In a run without clashing message_1s, no C_I on the log clashes. -/
theorem no_clash_on_log (ctx : σ) (evs : List (Event σ)) :
    (∀ e ∈ evs, e.Distinct peerId) → ∀ c ∈ ((board ctx).run evs).log, ∀ ci,
      c.peer peerId = some ci → ¬ ci.Clashes := by
  refine (board ctx).run_induction (P := fun evs b => (∀ e ∈ evs, e.Distinct peerId) →
    ∀ c ∈ b.log, ∀ ci, c.peer peerId = some ci → ¬ ci.Clashes) ?_ ?_ evs
  · intro _ c hc
    exact absurd hc List.not_mem_nil
  · intro evs b e ih hdist c hc ci hci
    have hold := ih (fun e' he' => hdist e' (by simp [he'])) c
    have hdist := hdist e (by simp)
    -- only an accepted message_1 brings a C_I
    cases c with
    | message1Process msg ret =>
        have hmsg : peerId msg = ci := by
          by_cases hret : ret = 0
          · simpa [Call.peer, hret] using hci
          · simp [Call.peer, hret] at hci
        rcases e.edhoc_or_not with ⟨request, eng, rfl⟩ | he
        · rcases message1_deframed hc with hc | hframe
          · exact hold hc ci hci
          · rw [← hmsg]
            exact hdist msg hframe
        · exact hold (mem_log_of_not_edhoc he hc rfl) ci hci
    | _ => simp [Call.peer] at hci

/--
**The two identifiers of a session differ exactly when the peer did not choose the
device's own.**  In a run in which no message_1 carries such an identifier, they
differ in every state that is ready.
-/
theorem identifiers_distinct_iff (peerId : Bytes → ConnectionId) (ctx : σ) (evs : List (Event σ))
    (hlog : ExportsIdentifiers peerId ((board ctx).run evs).log) :
    (((board ctx).run evs).dev.oscoreReady = true →
      ∃ ci params, latest (Call.peer peerId) ((board ctx).run evs).log = some ci ∧
        latest Call.keyedWith ((board ctx).run evs).log = some params ∧
        (params.senderId ≠ params.recipientId ↔ ¬ ci.Clashes)) ∧
    ((∀ e ∈ evs, e.Distinct peerId) → ((board ctx).run evs).dev.oscoreReady = true →
      ∃ params, latest Call.keyedWith ((board ctx).run evs).log = some params ∧
        params.senderId ≠ params.recipientId) := by
  have hinv := identifiers_run ctx evs hlog
  constructor
  · intro hready
    obtain ⟨ci, params, hci, hparams, hs, hr⟩ := hinv.ready hready
    exact ⟨ci, params, hci, hparams, by rw [hs, hr, ne_eq, oscoreId_eq_iff]⟩
  · intro hdist hready
    obtain ⟨ci, params, hci, hparams, hs, hr⟩ := hinv.ready hready
    refine ⟨params, hparams, ?_⟩
    rw [hs, hr, ne_eq, oscoreId_eq_iff]
    obtain ⟨c, hc, hpeer⟩ := mem_of_latest hci
    exact no_clash_on_log ctx evs hdist c hc ci hpeer

/-! ### Two peers

The same handshake twice, once by a peer that identifies itself as the
repository's client does and once by one that has taken the device's own C_R.
-/

/-- A message_1 of method 3 and suite 0: a 32-byte G_X, then a one-byte C_I. -/
def message1With (ci : UInt8) : Bytes := [0x03, 0x00, 0x58, 0x20] ++ List.replicate 32 0xaa ++ [ci]

/-- The one-byte C_I of such a message. -/
def message1Peer (msg : Bytes) : ConnectionId :=
  let c := (msg.getD 36 0).toNat
  if h : c ≤ 23 then .oneByteInteger ⟨c, by omega⟩
  else if h : 0x20 ≤ c ∧ c ≤ 0x37 then .oneByteInteger ⟨0x20 - c - 1, by omega⟩
  else .byteString []

/-- Libraries that accept everything and export the given Sender ID. -/
def exporting (ci : UInt8) : Engine Unit :=
  { willing with exportOscoreSession := ⟨0, sampleKeys ci (cidToCbor edCRInt.val), 1, 1⟩ }

/-- A whole handshake opened by a message_1 that carries `ci`. -/
def handshakeWith (ci : UInt8) : List (Event Unit) :=
  [.edhoc (edhocRequest (0xf5 :: message1With ci)) (exporting ci),
    .edhoc (edhocRequest [cidToCbor edCRInt.val, 3]) (exporting ci)]

/-- The log of that handshake. -/
def handshakeLog (ci : UInt8) : List (Call Unit) :=
  [.edhocPost (some (0xf5 :: message1With ci)), .contextInit 0,
    .configure (.setMethods [3]) 0, .configure (.setCipherSuites [0]) 0,
    .configure (.setConnectionId (.oneByteInteger edCRInt)) 0, .configure .bindKeys 0,
    .configure .bindCrypto 0, .configure .bindCredentials 0,
    .message1Process (message1With ci) 0, .message2Compose 0,
    .coapResourceSend (.packet (edhocPacket (edhocRequest []) [2])),
    .edhocPost (some [cidToCbor edCRInt.val, 3]), .message3Process [3] 0, .message4Compose 0,
    .exportOscoreSession (exporting ci).exportOscoreSession,
    .oscoreContextInit (exporting ci).exportOscoreSession.params .ok (), .contextDeinit,
    .coapResourceSend (.packet (edhocPacket (edhocRequest []) [4]))]

theorem handshakeLog_exports {ci : UInt8}
    (h : (message1Peer (message1With ci)).oscoreId = [ci]) :
    ExportsIdentifiers message1Peer (handshakeLog ci) := by
  let session := (exporting ci).exportOscoreSession
  have hids : session.keys.senderId.toList.take session.senderIdLen = [ci] ∧
      session.keys.recipientId.toList.take session.recipientIdLen
        = (ConnectionId.oneByteInteger edCRInt).oscoreId := ⟨rfl, rfl⟩
  unfold ExportsIdentifiers handshakeLog
  simpa [atEach_cons, Call.peer, Call.own, h] using fun _ => hids

theorem handshakeWith_distinct {ci : UInt8} (h : ¬ (message1Peer (message1With ci)).Clashes) :
    ∀ e ∈ handshakeWith ci, e.Distinct message1Peer := by
  have hfirst : edhocDeframe (some (0xf5 :: message1With ci)) = .ok (.message1 (message1With ci)) :=
    rfl
  have hsecond : edhocDeframe (some [cidToCbor edCRInt.val, 3]) = .ok (.message3 [3]) := rfl
  intro e he
  simp only [handshakeWith, List.mem_cons, List.not_mem_nil, or_false] at he
  rcases he with rfl | rfl
  · intro msg hmsg
    simp only [edhocRequest, hfirst, Except.ok.injEq, Framed.message1.injEq] at hmsg
    rw [← hmsg]
    exact h
  · intro msg hmsg
    simp [edhocRequest, hsecond] at hmsg

theorem identifiers_distinct_for_client :
    ((board ()).run (handshakeWith 0x2d)).dev.oscoreReady = true ∧
      ∃ params, latest Call.keyedWith ((board ()).run (handshakeWith 0x2d)).log = some params ∧
        params.senderId ≠ params.recipientId := by
  have hlog : ((board ()).run (handshakeWith 0x2d)).log = handshakeLog 0x2d := rfl
  have hready : ((board ()).run (handshakeWith 0x2d)).dev.oscoreReady = true := rfl
  refine ⟨hready, (identifiers_distinct_iff message1Peer () (handshakeWith 0x2d) ?_).2 ?_ hready⟩
  · rw [hlog]
    exact handshakeLog_exports (by decide)
  · exact handshakeWith_distinct (by decide)

/-- A peer that calls itself -8: the context is keyed with one identifier for both directions. -/
theorem identifiers_equal_for_clash :
    ExportsIdentifiers message1Peer ((board ()).run (handshakeWith 0x27)).log ∧
      ((board ()).run (handshakeWith 0x27)).dev.oscoreReady = true ∧
      ∃ params, latest Call.keyedWith ((board ()).run (handshakeWith 0x27)).log = some params ∧
        params.senderId = params.recipientId := by
  have hlog : ((board ()).run (handshakeWith 0x27)).log = handshakeLog 0x27 := rfl
  rw [hlog]
  exact ⟨handshakeLog_exports (by decide), rfl, _, rfl, by decide⟩

end UsbNcmNet
