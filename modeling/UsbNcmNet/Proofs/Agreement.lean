/-
Both ends of a session agree.

message_4 is composed before OSCORE is keyed, and keying can still fail; a client
that accepts a message_4 knows that the device has keyed OSCORE only because the
device withholds the reply on every failure after the compose.  A repeated
message_1 replaces the device's context while replies to the old one are still
under way, so what the client has accepted and what the device holds have to be
matched by transcript and not by order of arrival.

The invariant says where every message_3 and message_4 on the wire comes from, and
is carried through every step of every party.
-/
import UsbNcmNet.Proofs.Link

namespace UsbNcmNet

open Trace

variable {σ : Type} {exporter : Transcript → SessionKeys}

/-! ### The invariant -/

structure AgreementInv (exporter : Transcript → SessionKeys) (w : World σ) : Prop where
  /-- A message_4 on the wire means the device keyed OSCORE on its transcript. -/
  sent4 : ∀ t bytes, (.message4 t, bytes) ∈ w.track.sent → t ∈ w.track.installed
  /-- A message_3 on the wire comes from the client whose transcript it names. -/
  sent3 : ∀ t bytes, (.message3 t, bytes) ∈ w.track.sent →
    (w.clients t.initiator).transcript = some t
  installed3 : ∀ t ∈ w.track.installed, ∃ bytes, (.message3 t, bytes) ∈ w.track.sent
  early : ∀ i, (w.clients i).phase = .idle ∨ (w.clients i).phase = .awaiting2 →
    (w.clients i).transcript = none
  own : ∀ i t, (w.clients i).transcript = some t → t.initiator = i
  passed : ∀ i session, (w.clients i).phase = .complete session →
    ∃ t, (w.clients i).transcript = some t ∧ t ∈ w.track.installed ∧
      ∀ s, session = some s →
        s = (exporter t).params (exporter t).responderId (exporter t).initiatorId
  ready : w.board.dev.oscoreReady = true →
    ∃ t, w.track.installed.getLast? = some t ∧
      latest Call.keyedWith w.board.log
        = some ((exporter t).params (exporter t).initiatorId (exporter t).responderId)

theorem agreement_boot (ctx : σ) : AgreementInv exporter (World.boot ctx) where
  sent4 _ _ h := absurd h List.not_mem_nil
  sent3 _ _ h := absurd h List.not_mem_nil
  installed3 _ h := absurd h List.not_mem_nil
  early _ _ := rfl
  own _ _ h := by simp [World.boot] at h
  passed _ _ h := by simp [World.boot] at h
  ready h := Bool.noConfusion h

/-- A request to the device keeps the invariant. -/
theorem agreement_request {w : World σ} {e : Event σ} {i : Nat} (h : AgreementInv exporter w)
    (hpromised : Promised exporter w.track i (w.board.newCalls e)) :
    AgreementInv exporter (w.request e i) := by
  have hclients : (w.request e i).clients = w.clients := rfl
  cases request_ran hpromised with
  | quiet hinstalled hsent hready hkeyed =>
      refine ⟨?_, ?_, ?_, h.early, h.own, ?_, ?_⟩
      · rw [hsent, hinstalled]; exact h.sent4
      · rw [hsent, hclients]; exact h.sent3
      · rw [hsent, hinstalled]; exact h.installed3
      · rw [hclients, hinstalled]; exact h.passed
      · intro hr
        rw [hinstalled, hkeyed hr]
        exact h.ready (hready hr)
  | replied2 hinstalled hsent hready =>
      obtain ⟨bytes, hsent⟩ := hsent
      refine ⟨?_, ?_, ?_, h.early, h.own, ?_, ?_⟩
      · rw [hsent, hinstalled]
        intro t bytes hmem
        exact h.sent4 t bytes (by simpa using hmem)
      · rw [hsent, hclients]
        intro t bytes hmem
        exact h.sent3 t bytes (by simpa using hmem)
      · rw [hsent, hinstalled]
        intro t ht
        obtain ⟨bytes, hmem⟩ := h.installed3 t ht
        exact ⟨bytes, List.mem_append_left _ hmem⟩
      · rw [hclients, hinstalled]; exact h.passed
      · intro hr
        rw [hready] at hr
        exact Bool.noConfusion hr
  | @keyed t msg hmessage3 hinstalled hsent hkeyed =>
      have hgrow : ∀ x ∈ w.track.sent, x ∈ (w.request e i).track.sent := by
        intro x hx
        rcases hsent with hsent | ⟨bytes, hsent⟩ <;> rw [hsent] <;> simp [hx]
      refine ⟨?_, ?_, ?_, h.early, h.own, ?_, ?_⟩
      · -- the one message_4 that may be new is on the transcript just installed
        intro t' bytes hmem
        rw [hinstalled, List.mem_append, List.mem_singleton]
        rcases hsent with hsent | ⟨bytes', hsent⟩ <;> rw [hsent] at hmem
        · exact .inl (h.sent4 t' bytes hmem)
        · rcases List.mem_append.mp hmem with hmem | hmem
          · exact .inl (h.sent4 t' bytes hmem)
          · exact .inr (by simpa using (Prod.mk.inj (List.mem_singleton.mp hmem)).1)
      · intro t' bytes hmem
        rw [hclients]
        rcases hsent with hsent | ⟨bytes', hsent⟩ <;> rw [hsent] at hmem
        · exact h.sent3 t' bytes hmem
        · exact h.sent3 t' bytes (by simpa using hmem)
      · intro t' ht'
        rw [hinstalled, List.mem_append, List.mem_singleton] at ht'
        rcases ht' with ht' | rfl
        · obtain ⟨bytes, hmem⟩ := h.installed3 t' ht'
          exact ⟨bytes, hgrow _ hmem⟩
        · exact ⟨msg, hgrow _ hmessage3⟩
      · intro j session hphase
        obtain ⟨t', ht', hmem, hs⟩ := h.passed j session hphase
        exact ⟨t', ht', by rw [hinstalled]; exact List.mem_append_left _ hmem, hs⟩
      · intro _
        exact ⟨t, by rw [hinstalled]; simp, hkeyed⟩

/-- What a client may do to its own run and to what is on the wire. -/
structure MoveOk (exporter : Transcript → SessionKeys) (w : World σ) (i : Nat) (c : ClientRun)
    (m : Message) (posted : Option Framed) : Prop where
  kept : ∀ t, (w.clients i).transcript = some t → c.transcript = some t
  not4 : ∀ t framed, posted = some framed → m ≠ .message4 t
  posts3 : ∀ t framed, posted = some framed → m = .message3 t →
    t.initiator = i ∧ c.transcript = some t
  early : c.phase = .idle ∨ c.phase = .awaiting2 → c.transcript = none
  own : ∀ t, c.transcript = some t → t.initiator = i
  passed : ∀ session, c.phase = .complete session →
    ∃ t, c.transcript = some t ∧ t ∈ w.track.installed ∧
      ∀ s, session = some s →
        s = (exporter t).params (exporter t).responderId (exporter t).initiatorId

theorem agreement_move {w : World σ} {i : Nat} {c : ClientRun} {m : Message}
    {posted : Option Framed} (h : AgreementInv exporter w) (hok : MoveOk exporter w i c m posted) :
    AgreementInv exporter (w.move i c m posted) := by
  have hnew : ∀ {m' bytes}, (m', bytes) ∈ (w.move i c m posted).track.sent →
      (m', bytes) ∈ w.track.sent ∨ ∃ framed, posted = some framed ∧ m' = m := by
    intro m' bytes hmem
    rcases List.mem_append.mp hmem with hmem | hmem
    · exact .inl hmem
    · cases posted with
      | none => simp at hmem
      | some framed =>
          exact .inr ⟨framed, rfl, by simpa using (Prod.mk.inj (by simpa using hmem)).1⟩
  have hsame : (w.move i c m posted).clients i = c := Function.update_self ..
  have hother : ∀ {j}, j ≠ i → (w.move i c m posted).clients j = w.clients j :=
    fun hj => Function.update_of_ne hj ..
  refine ⟨?_, ?_, ?_, ?_, ?_, ?_, h.ready⟩
  · intro t bytes hmem
    rcases hnew hmem with hmem | ⟨framed, hposted, hm⟩
    · exact h.sent4 t bytes hmem
    · exact absurd hm.symm (hok.not4 t framed hposted)
  · intro t bytes hmem
    rcases hnew hmem with hmem | ⟨framed, hposted, hm⟩
    · have htr := h.sent3 t bytes hmem
      by_cases hi : t.initiator = i
      · rw [hi, hsame]
        exact hok.kept t (by rw [← hi]; exact htr)
      · rw [hother hi]
        exact htr
    · obtain ⟨hi, htr⟩ := hok.posts3 t framed hposted hm.symm
      rw [hi, hsame]
      exact htr
  · intro t ht
    obtain ⟨bytes, hmem⟩ := h.installed3 t ht
    exact ⟨bytes, List.mem_append_left _ hmem⟩
  · intro j
    by_cases hj : j = i
    · rw [hj, hsame]; exact hok.early
    · rw [hother hj]; exact h.early j
  · intro j t
    by_cases hj : j = i
    · rw [hj, hsame]; exact hok.own t
    · rw [hother hj]; exact h.own j t
  · intro j session
    by_cases hj : j = i
    · rw [hj, hsame]; exact hok.passed session
    · rw [hother hj]; exact h.passed j session

theorem agreement_step {w w' : World σ} (h : AgreementInv exporter w) (hstep : Step exporter w w') :
    AgreementInv exporter w' := by
  cases hstep with
  | request e i hpromised => exact agreement_request h hpromised
  | start i a hphase =>
      have hnone := h.early i (.inl hphase)
      refine agreement_move h ⟨by simp [hnone], by simp, by simp, fun _ => rfl, by simp, ?_⟩
      intro session hc
      rcases clientStart_cases a with ha | ha <;> simp [ha] at hc
  | message2 i r a hphase _ =>
      have hnone := h.early i (.inr hphase)
      refine agreement_move h ⟨by simp [hnone], by simp, ?_, ?_, ?_, ?_⟩
      · intro t framed hposted hm
        obtain rfl := Message.message3.inj hm
        exact ⟨rfl, by simp [hposted]⟩
      · rcases clientMessage2_cases a with ha | ⟨_, _, _, ha⟩ <;> simp [ha]
      · intro t ht
        obtain ⟨_, -, rfl⟩ := Option.map_eq_some_iff.mp ht
        rfl
      · intro session hc
        rcases clientMessage2_cases a with ha | ⟨_, _, _, ha⟩ <;> simp [ha] at hc
  | message4 i t a hphase htranscript hprocess hexport =>
      refine agreement_move h ⟨?_, by simp, by simp, ?_, ?_, ?_⟩
      · intro t' ht'
        rw [htranscript] at ht'
        exact ht'
      · rcases clientMessage4_cases a with ha | ⟨_, session, _, _, ha, _⟩ <;> simp [ha]
      · intro t' ht'
        exact h.own i t' (htranscript.trans ht')
      · intro session hc
        rcases clientMessage4_cases a with ha | ⟨resp, session', hrecv, hret, ha, hsession⟩
        · simp [ha] at hc
        · obtain rfl : session' = session := by simpa [ha] using hc
          refine ⟨t, rfl, h.sent4 t resp (hprocess resp hrecv hret), ?_⟩
          intro s hs
          obtain ⟨hexp, rfl⟩ := hsession s hs
          exact (hexport hexp).params

theorem agreement_reachable {ctx : σ} {w : World σ} (h : Reachable exporter ctx w) :
    AgreementInv exporter w := by
  induction h with
  | refl => exact agreement_boot ctx
  | tail _ hstep ih => exact agreement_step ih hstep

/--
**Key agreement.**  In every reachable world, a client that is past message_4 is
so on a transcript of its own on which the device has keyed OSCORE; and a device
that is ready was keyed last on a transcript on which a client sent its message_3,
with parameters that are, ends swapped, those of that client's session once it has
one.
-/
theorem key_agreement (exporter : Transcript → SessionKeys) (ctx : σ) (w : World σ)
    (h : Reachable exporter ctx w) :
    (∀ i session, (w.clients i).phase = .complete session →
      ∃ t, (w.clients i).transcript = some t ∧ t.initiator = i ∧ t ∈ w.track.installed) ∧
    (w.board.dev.oscoreReady = true →
      ∃ t params, w.track.installed.getLast? = some t ∧
        latest Call.keyedWith w.board.log = some params ∧
        (∃ bytes, (.message3 t, bytes) ∈ w.track.sent) ∧
        (w.clients t.initiator).transcript = some t ∧
        ∀ session, (w.clients t.initiator).phase = .complete (some session) →
          session = params.swapped) := by
  have hinv := agreement_reachable h
  constructor
  · intro i session hphase
    obtain ⟨t, ht, hinstalled, -⟩ := hinv.passed i session hphase
    exact ⟨t, ht, hinv.own i t ht, hinstalled⟩
  · intro hready
    obtain ⟨t, hlast, hkeyed⟩ := hinv.ready hready
    obtain ⟨bytes, hmem⟩ := hinv.installed3 t (List.mem_of_getLast? hlast)
    have htr := hinv.sent3 t bytes hmem
    refine ⟨t, _, hlast, hkeyed, ⟨bytes, hmem⟩, htr, ?_⟩
    intro session hphase
    obtain ⟨t', ht', -, hsession⟩ := hinv.passed t.initiator (some session) hphase
    obtain rfl : t = t' := Option.some.inj (htr.symm.trans ht')
    exact hsession session rfl

/-! ### One client, nothing lost

The repository's client and the device, every datagram delivered once and in
order.
-/

def soleKeys : Transcript → SessionKeys := fun _ =>
  { masterSecret := List.replicate 16 0x11, masterSalt := List.replicate 8 0x22
    initiatorId := [cidToCbor edCIInt.val], responderId := [cidToCbor edCRInt.val] }

def soleStart : StartAnswers where
  psaCryptoInit := 0
  sockInit := 0
  contextInit := 0
  configure := fun _ => 0
  message1Compose := ⟨0, [1]⟩
  send := 0

def soleMessage2 : Message2Answers where
  recv := some [2]
  message2Process := 0
  message3Compose := ⟨0, [3]⟩
  send := 0

def soleMessage4 : Message4Answers where
  recv := some [4]
  message4Process := 0
  exportOscoreSession := ⟨0, sampleKeys (cidToCbor edCRInt.val) (cidToCbor edCIInt.val), 1, 1⟩
  oscoreContextInit := .ok

/-- The device gets what the client POSTed. -/
def solePost (framed : Framed) : Event Unit := .edhoc (edhocRequest framed.encode) willing

/-- The client's message_1 is on its way. -/
def soleWorld1 : World Unit :=
  (World.boot ()).move 0 ⟨(clientStart soleStart).1, none⟩ (.message1 0) (clientStart soleStart).2

/-- The client has accepted message_2 and its message_3 is on its way. -/
def soleWorld2 : World Unit :=
  (soleWorld1.request (solePost (.message1 [1])) 0).move 0
    ⟨(clientMessage2 soleMessage2).1, (clientMessage2 soleMessage2).2.map fun _ => ⟨0, 1⟩⟩
    (.message3 ⟨0, 1⟩) (clientMessage2 soleMessage2).2

/-- The client has accepted message_4. -/
def soleWorld : World Unit :=
  (soleWorld2.request (solePost (.message3 [3])) 0).move 0 ⟨clientMessage4 soleMessage4, some ⟨0, 1⟩⟩
    (.message4 ⟨0, 1⟩) none

theorem soleWorld_reachable : Reachable soleKeys () soleWorld := by
  have hcalls1 : soleWorld1.board.newCalls (solePost (.message1 [1])) =
      [.edhocPost (some [0xf5, 1]), .contextInit 0, .configure (.setMethods [3]) 0,
        .configure (.setCipherSuites [0]) 0,
        .configure (.setConnectionId (.oneByteInteger edCRInt)) 0, .configure .bindKeys 0,
        .configure .bindCrypto 0, .configure .bindCredentials 0, .message1Process [1] 0,
        .message2Compose 0, .coapResourceSend (.packet (edhocPacket (edhocRequest []) [2]))] := rfl
  have hcalls2 : soleWorld2.board.newCalls (solePost (.message3 [3])) =
      [.edhocPost (some [cidToCbor edCRInt.val, 3]), .message3Process [3] 0, .message4Compose 0,
        .exportOscoreSession willing.exportOscoreSession,
        .oscoreContextInit willing.exportOscoreSession.params .ok (), .contextDeinit,
        .coapResourceSend (.packet (edhocPacket (edhocRequest []) [4]))] := rfl
  have hsent1 : soleWorld1.track.sent = [(.message1 0, [1])] := rfl
  have hpending2 : soleWorld2.track.pending = some ⟨0, 1⟩ := rfl
  have hsent2 : soleWorld2.track.sent
      = [(.message1 0, [1]), (.message2 ⟨0, 1⟩, [2]), (.message3 ⟨0, 1⟩, [3])] := rfl
  have hpromised1 : Promised soleKeys soleWorld1.track 0
      (soleWorld1.board.newCalls (solePost (.message1 [1]))) := by
    rw [hcalls1]
    exact ⟨by simp [hsent1], by simp, by simp⟩
  have hpromised2 : Promised soleKeys soleWorld2.track 0
      (soleWorld2.board.newCalls (solePost (.message3 [3]))) := by
    rw [hcalls2]
    refine ⟨by simp, by simp [hpending2, hsent2], ?_⟩
    intro s t hs _ _
    obtain rfl : s = willing.exportOscoreSession := by simpa using hs
    exact ⟨rfl, rfl, rfl, rfl⟩
  refine .tail (.tail (.tail (.tail (.tail .refl (.start 0 soleStart rfl))
    (.request (solePost (.message1 [1])) 0 hpromised1)) (.message2 0 1 soleMessage2 rfl ?_))
    (.request (solePost (.message3 [3])) 0 hpromised2))
    (.message4 0 ⟨0, 1⟩ soleMessage4 rfl rfl ?_ (fun _ => ⟨rfl, rfl, rfl, rfl⟩))
  · rintro resp hrecv -
    obtain rfl : [2] = resp := Option.some.inj hrecv
    exact List.mem_cons_of_mem _ List.mem_cons_self
  · rintro resp hrecv -
    obtain rfl : [4] = resp := Option.some.inj hrecv
    exact List.mem_cons_of_mem _
      (List.mem_cons_of_mem _ (List.mem_cons_of_mem _ List.mem_cons_self))

theorem key_agreement_sole :
    Reachable soleKeys () soleWorld ∧ soleWorld.board.dev.oscoreReady = true ∧
      (∃ session, (soleWorld.clients 0).phase = .complete (some session)) ∧
      ∃ t params, soleWorld.track.installed.getLast? = some t ∧
        latest Call.keyedWith soleWorld.board.log = some params ∧
        ∀ session, (soleWorld.clients t.initiator).phase = .complete (some session) →
          session = params.swapped := by
  refine ⟨soleWorld_reachable, rfl, ⟨_, rfl⟩, ?_⟩
  obtain ⟨t, params, hlast, hkeyed, -, -, hagree⟩ :=
    (key_agreement soleKeys () soleWorld soleWorld_reachable).2 rfl
  exact ⟨t, params, hlast, hkeyed, hagree⟩

end UsbNcmNet
