/-
What one step can change on the link.

`RequestRan` says what a request to the device can change of what has been sent
and of the transcripts on which OSCORE is keyed: nothing, one message_2 more, or
one more transcript, with or without its message_4.  The three stretches of a
client are split into the ways they can end.
-/
import UsbNcmNet.Link
import UsbNcmNet.Proofs.Identifiers
import UsbNcmNet.Proofs.Session

namespace UsbNcmNet

open Trace

variable {σ : Type} {exporter : Transcript → SessionKeys}

/-- The parameters built from what was exported. -/
theorem SessionKeys.Exported.params {k : SessionKeys} {sender recipient : Bytes} {s : Export}
    (h : k.Exported sender recipient s) : s.params = k.params sender recipient := by
  simp only [Export.params, oscoreInitParams, SessionKeys.params, h.masterSecret, h.masterSalt,
    h.senderId, h.recipientId]

/-! ### Following the calls of one request -/

theorem track_configureLog (i : Nat) (g : Track) (eng : Engine σ) (cs : List SetupCall) :
    (configureLog eng cs).foldl (Track.call i) g = g := by
  induction cs with
  | nil => rfl
  | cons c cs ih =>
      rw [configureLog, List.foldl_cons]
      split
      · exact ih
      · rfl

theorem track_setupLog (i : Nat) (g : Track) (eng : Engine σ) :
    (setupLog eng).foldl (Track.call i) g
      = { g with contexts := g.contexts + 1, pending := none } := by
  simp [setupLog, Track.call, track_configureLog]

/-- Resetting may drop the pending transcript and does nothing else. -/
theorem track_resetLog (i : Nat) (g : Track) (d : Device σ) :
    ∃ pending, (resetLog d).foldl (Track.call i) g = { g with pending := pending } := by
  unfold resetLog
  split
  · exact ⟨none, rfl⟩
  · exact ⟨g.pending, rfl⟩

/-- A message_3 that comes to nothing neither keys nor sends. -/
theorem track_inconclusive (i : Nat) {cs : List (Call σ)}
    (h : ∀ c ∈ cs, c.inconclusive = true) (g : Track) :
    (cs.foldl (Track.call i) g).installed = g.installed ∧
      (cs.foldl (Track.call i) g).sent = g.sent := by
  have hone : ∀ (c : Call σ) (g : Track), c.inconclusive = true →
      (Track.call i g c).installed = g.installed ∧ (Track.call i g c).sent = g.sent := by
    intro c g hc
    cases c with
    | message4Compose ret =>
        simp only [Track.call]
        split <;> exact ⟨rfl, rfl⟩
    | oscoreContextInit params err ctx =>
        have herr : err ≠ .ok := by simpa [Call.inconclusive] using hc
        simp [Track.call, herr]
    | message3Process _ _ | exportOscoreSession _ | contextDeinit => exact ⟨rfl, rfl⟩
    | _ => exact Bool.noConfusion hc
  induction cs generalizing g with
  | nil => exact ⟨rfl, rfl⟩
  | cons c cs ih =>
      obtain ⟨hinstalled, hsent⟩ := hone c g (h c (by simp))
      have htail := ih (fun c' hc' => h c' (by simp [hc'])) (Track.call i g c)
      rw [hinstalled, hsent] at htail
      exact htail

/-- What a request changes of what is sent and installed. -/
inductive RequestRan (exporter : Transcript → SessionKeys) (w w' : World σ) : Prop
  | quiet (hinstalled : w'.track.installed = w.track.installed)
      (hsent : w'.track.sent = w.track.sent)
      (hready : w'.board.dev.oscoreReady = true → w.board.dev.oscoreReady = true)
      (hkeyed : w'.board.dev.oscoreReady = true →
        latest Call.keyedWith w'.board.log = latest Call.keyedWith w.board.log)
  | replied2 {t : Transcript} (hinstalled : w'.track.installed = w.track.installed)
      (hsent : ∃ bytes, w'.track.sent = w.track.sent ++ [(.message2 t, bytes)])
      (hready : w'.board.dev.oscoreReady = false)
  | keyed {t : Transcript} {msg : Bytes} (hmessage3 : (.message3 t, msg) ∈ w.track.sent)
      (hinstalled : w'.track.installed = w.track.installed ++ [t])
      (hsent : w'.track.sent = w.track.sent ∨
        ∃ bytes, w'.track.sent = w.track.sent ++ [(.message4 t, bytes)])
      (hkeyed : latest Call.keyedWith w'.board.log
        = some ((exporter t).params (exporter t).initiatorId (exporter t).responderId))

/-- Nothing sent and nothing installed, on a device that is left without a session. -/
theorem RequestRan.unready {w w' : World σ} (hinstalled : w'.track.installed = w.track.installed)
    (hsent : w'.track.sent = w.track.sent) (hready : w'.board.dev.oscoreReady = false) :
    RequestRan exporter w w' :=
  .quiet hinstalled hsent (by simp [hready]) (by simp [hready])

theorem request_ran_of_not_edhoc {w : World σ} {e : Event σ} (i : Nat)
    (he : ∀ request eng, e ≠ .edhoc request eng) : RequestRan exporter w (w.request e i) := by
  have hserved := served_of_not_edhoc (b := w.board) he
  obtain ⟨new, hlog, hnew⟩ := hserved.log
  have hkeyed := keyedWith_eq_none (settles_of_serves hnew)
  have hready : (w.request e i).board.dev.oscoreReady = true → w.board.dev.oscoreReady = true := by
    intro h
    rw [← hserved.ready]
    exact h
  have hkept : latest Call.keyedWith (w.request e i).board.log
      = latest Call.keyedWith w.board.log := by
    show latest Call.keyedWith (w.board.step e).log = _
    rw [hlog, latest_append, hkeyed]
    rfl
  -- a response is only sent after a dispatch, which is where a stale reply is forgotten
  suffices h : ∃ out, (w.board.newCalls e).foldl (Track.call i) w.track
      = { w.track with out := out } by
    obtain ⟨out, h⟩ := h
    refine .quiet ?_ ?_ hready (fun _ => hkept)
    · show ((w.board.newCalls e).foldl (Track.call i) w.track).installed = _
      rw [h]
    · show ((w.board.newCalls e).foldl (Track.call i) w.track).sent = _
      rw [h]
  cases e with
  | edhoc request eng => exact absurd rfl (he request eng)
  | oscore osc =>
      have hran := oscorePost_ran osc w.board
      generalize w.board.ret (.oscore osc) = r, hb : w.board.step (.oscore osc) = b' at hran
      cases hran with
      | notReady _ =>
          rw [newCalls_eq (congrArg Board.log hb)]
          exact ⟨_, rfl⟩
      | rejected _ =>
          rw [newCalls_eq (congrArg Board.log hb)]
          exact ⟨_, rfl⟩
      | unbuilt _ _ _ =>
          rw [newCalls_eq (congrArg Board.log hb)]
          exact ⟨_, rfl⟩
      | answered _ _ _ htail =>
          rw [newCalls_eq (congrArg Board.log hb)]
          rcases htail with rfl | rfl <;> exact ⟨_, rfl⟩
  | app request gpio send =>
      have hran := appRequest_ran gpio send request w.board
      generalize hb : w.board.step (.app request gpio send) = b' at hran
      cases hran with
      | mk _ htail =>
          rw [newCalls_eq (congrArg Board.log hb)]
          rcases htail with rfl | ⟨p, rfl⟩
          · exact ⟨_, rfl⟩
          · exact ⟨none, by simp [Track.call]⟩

/-- A message_1 that goes through leaves its message_2 to be sent; one that fails leaves nothing. -/
theorem message1_track {eng : Engine σ} {msg out : Bytes} {d d' : Device σ} {rc : Int}
    {cs : List (Call σ)} (h : Message1Ran eng msg d rc out d' cs) (i : Nat) (g : Track) :
    (rc ≠ 0 ∧ (cs.foldl (Track.call i) g).installed = g.installed ∧
      (cs.foldl (Track.call i) g).sent = g.sent) ∨
    ∃ t, rc = 0 ∧ (cs.foldl (Track.call i) g).installed = g.installed ∧
      (cs.foldl (Track.call i) g).sent = g.sent ∧
      (cs.foldl (Track.call i) g).out = some (.message2 t) := by
  cases h with
  | initFailed hinit => exact .inl ⟨hinit, by simp [Track.call, hinit], by simp [Track.call, hinit]⟩
  | configureFailed _ _ hrc => exact .inl ⟨hrc, by simp [track_setupLog], by simp [track_setupLog]⟩
  | message1Failed _ _ hm1 =>
      exact .inl ⟨hm1, by simp [Track.call, track_setupLog, hm1],
        by simp [Track.call, track_setupLog, hm1]⟩
  | message2Failed _ _ _ hm2 =>
      exact .inl ⟨hm2, by simp [Track.call, track_setupLog, hm2],
        by simp [Track.call, track_setupLog, hm2]⟩
  | composed _ _ _ _ =>
      refine .inr ⟨⟨i, g.contexts + 1⟩, rfl, ?_, ?_, ?_⟩ <;> simp [Track.call, track_setupLog]

theorem request_ran_message1 {w : World σ} {request : Request} {eng : Engine σ} (i : Nat)
    (hstart : startsMessage1 request.payload = true) :
    RequestRan exporter w (w.request (.edhoc request eng) i) := by
  have hready : (w.request (.edhoc request eng) i).board.dev.oscoreReady = false :=
    message1_clears_ready hstart
  obtain ⟨msg, out, rc, d, cs, tail, hran, hreply, hb⟩ :=
    edhocPost_message1 (b := w.board) eng hstart
  obtain ⟨pending, hreset⟩ := track_resetLog i { w.track with out := none } w.board.dev
  have htrack : (w.request (.edhoc request eng) i).track
      = tail.foldl (Track.call i) (cs.foldl (Track.call i)
          { w.track with out := none, pending := pending }) := by
    show (w.board.newCalls (.edhoc request eng)).foldl (Track.call i) w.track = _
    rw [newCalls_eq (congrArg Board.log hb)]
    simp only [List.foldl_append, List.foldl_cons, Track.call, hreset]
  rcases message1_track hran i { w.track with out := none, pending := pending } with
    ⟨hrc, hinstalled, hsent⟩ | ⟨t, hrc, hinstalled, hsent, hout⟩
  · obtain rfl := hreply.silent hrc
    exact .unready (by rw [htrack]; exact hinstalled) (by rw [htrack]; exact hsent) hready
  · generalize w.board.ret (.edhoc request eng) = r at hreply
    cases hreply with
    | failed hne => exact absurd hrc hne
    | noRoom _ _ =>
        exact .unready (by rw [htrack]; exact hinstalled) (by rw [htrack]; exact hsent) hready
    | @sent p _ _ =>
        refine .replied2 (t := t) ?_ ⟨p.payload, ?_⟩ hready
        · rw [htrack]; exact hinstalled
        · rw [htrack]; simp [Track.call, hout, hsent]

/-- A POST that keys nothing and sends nothing. -/
theorem quiet_of_calls {w : World σ} {e : Event σ} {i : Nat} {payload : Option Bytes}
    {d : Device σ} (cs : List (Call σ))
    (hb : w.board.step e = { dev := d, log := w.board.log ++ (.edhocPost payload :: cs ++ []) })
    (hready : d.oscoreReady = w.board.dev.oscoreReady) (hkeyed : latest Call.keyedWith cs = none)
    (hinstalled : (cs.foldl (Track.call i) { w.track with out := none }).installed
      = w.track.installed)
    (hsent : (cs.foldl (Track.call i) { w.track with out := none }).sent = w.track.sent) :
    RequestRan exporter w (w.request e i) := by
  have htrack : (w.request e i).track
      = cs.foldl (Track.call i) { w.track with out := none } := by
    show (w.board.newCalls e).foldl (Track.call i) w.track = _
    rw [newCalls_eq (congrArg Board.log hb), List.append_nil]
    rfl
  have hboard : (w.request e i).board
      = { dev := d, log := w.board.log ++ (.edhocPost payload :: cs ++ []) } := hb
  refine .quiet (by rw [htrack]; exact hinstalled) (by rw [htrack]; exact hsent) ?_ ?_
  · rw [hboard, ← hready]
    exact id
  · intro _
    rw [hboard]
    simp [hkeyed, Call.keyedWith]

theorem request_ran_message3 {w : World σ} {request : Request} {eng : Engine σ} {i : Nat}
    (hpromised : Promised exporter w.track i (w.board.newCalls (.edhoc request eng)))
    (hstart : startsMessage1 request.payload = false) :
    RequestRan exporter w (w.request (.edhoc request eng) i) := by
  have hran := edhocPost_ran eng request w.board
  generalize w.board.ret (.edhoc request eng) = r,
    hb : w.board.step (.edhoc request eng) = b' at hran
  cases hran with
  | message1 hframe _ _ =>
      rw [edhocDeframe_message1 hframe] at hstart
      exact Bool.noConfusion hstart
  | rejected _ =>
      exact quiet_of_calls [] hb rfl rfl rfl rfl
  | @message3 msg _ _ _ _ _ tail _ hran hreply =>
      rcases hran.failed_or_keyed with hfail | hkeyed
      · obtain rfl := hreply.silent hfail.rc
        obtain ⟨hinstalled, hsent⟩ := track_inconclusive i hfail.calls { w.track with out := none }
        exact quiet_of_calls _ hb hfail.ready (keyedWith_eq_none hfail.settles)
          hinstalled hsent
      · obtain ⟨-, -, -, hexp, -, hrc, rfl, rfl, rfl⟩ := hkeyed
        have htrack : (w.request (.edhoc request eng) i).track
            = (w.board.newCalls (.edhoc request eng)).foldl (Track.call i) w.track := rfl
        rw [newCalls_eq (congrArg Board.log hb)] at htrack hpromised
        obtain ⟨t, hpending, hmessage3⟩ := hpromised.message3 msg (by simp)
        have hparams := (hpromised.exports _ t (by simp) hexp hpending).params
        have hkeyed : latest Call.keyedWith (w.request (.edhoc request eng) i).board.log
            = some ((exporter t).params (exporter t).initiatorId (exporter t).responderId) := by
          show latest Call.keyedWith (w.board.step (.edhoc request eng)).log = _
          rw [hb]
          simp [keyedWith_eq_none (settles_of_serves hreply.serves), Call.keyedWith, hparams]
        cases hreply with
        | failed hne => exact absurd hrc hne
        | noRoom _ _ =>
            refine .keyed hmessage3 ?_ (.inl ?_) hkeyed <;> simp [htrack, Track.call, hpending]
        | @sent p _ _ =>
            refine .keyed hmessage3 ?_ (.inr ⟨p.payload, ?_⟩) hkeyed <;>
              simp [htrack, Track.call, hpending]

/-- **What a request can change of what is sent and installed.** -/
theorem request_ran {w : World σ} {e : Event σ} {i : Nat}
    (hpromised : Promised exporter w.track i (w.board.newCalls e)) :
    RequestRan exporter w (w.request e i) := by
  rcases e.edhoc_or_not with ⟨request, eng, rfl⟩ | he
  · cases hstart : startsMessage1 request.payload with
    | true => exact request_ran_message1 i hstart
    | false => exact request_ran_message3 hpromised hstart
  · exact request_ran_of_not_edhoc i he

/-! ### What one stretch of a client can do -/

theorem clientStart_cases (a : StartAnswers) :
    clientStart a = (.failed, none) ∨
      clientStart a = (.awaiting2, some (.message1 a.message1Compose.out)) := by
  unfold clientStart
  repeat' split
  all_goals first | exact .inl rfl | exact .inr rfl

theorem clientMessage2_cases (a : Message2Answers) :
    clientMessage2 a = (.failed, none) ∨
      ∃ resp, clientRecv a.recv = some resp ∧ a.message2Process = EDHOC_SUCCESS ∧
        clientMessage2 a = (.awaiting4, some (.message3 a.message3Compose.out)) := by
  unfold clientMessage2
  split
  · exact .inl rfl
  · rename_i resp hrecv
    split
    · exact .inl rfl
    · rename_i hprocess
      repeat' split
      all_goals first | exact .inl rfl | exact .inr ⟨resp, hrecv, not_not.mp hprocess, rfl⟩

theorem clientMessage4_cases (a : Message4Answers) :
    clientMessage4 a = .failed ∨
      ∃ resp session, clientRecv a.recv = some resp ∧ a.message4Process = EDHOC_SUCCESS ∧
        clientMessage4 a = .complete session ∧
        ∀ s, session = some s →
          a.exportOscoreSession.ret = EDHOC_SUCCESS ∧ s = a.exportOscoreSession.params := by
  unfold clientMessage4
  split
  · exact .inl rfl
  · rename_i resp hrecv
    split
    · exact .inl rfl
    · rename_i hprocess
      refine .inr ⟨resp, ?_⟩
      split
      · exact ⟨none, hrecv, not_not.mp hprocess, rfl, by simp⟩
      · rename_i hexport
        split
        · exact ⟨none, hrecv, not_not.mp hprocess, rfl, by simp⟩
        · refine ⟨_, hrecv, not_not.mp hprocess, rfl, ?_⟩
          intro s hs
          exact ⟨not_not.mp hexport, (Option.some.inj hs).symm⟩

end UsbNcmNet
