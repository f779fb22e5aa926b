/-
One session for one handshake.

Agreement says that a client that is through shares its transcript with the device.  It
does not say that the device was keyed on that transcript only once: a network that can
repeat datagrams might replay a handshake, and a device that keyed OSCORE on the same
transcript again would start its replay window and its sequence numbers afresh under an
old key.  It cannot, because a context is dropped as soon as it has keyed, and every
context is numbered; and a client sends its message_3 on one transcript only.
-/
import UsbNcmNet.Proofs.Recovery

namespace UsbNcmNet

open Trace

variable {σ : Type} {exporter : Transcript → SessionKeys}

/-! ### What a request does to the contexts -/

/-- What a request can do to the device's contexts and to what is installed. -/
inductive TrackRan (g g' : Track) : Prop
  | kept (hcontexts : g'.contexts = g.contexts) (hinstalled : g'.installed = g.installed)
      (hpending : g'.pending = g.pending ∨ g'.pending = none)
  | opened (hcontexts : g'.contexts = g.contexts + 1) (hinstalled : g'.installed = g.installed)
      (hpending : ∀ t, g'.pending = some t → t.responder = g.contexts + 1)
  | keyed (hcontexts : g'.contexts = g.contexts)
      (hinstalled : g'.installed = g.installed ++ g.pending.toList) (hpending : g'.pending = none)

/-- The same context with the same transcript, or with none. -/
structure Track.Kept (g g' : Track) : Prop where
  contexts : g'.contexts = g.contexts
  installed : g'.installed = g.installed
  pending : g'.pending = g.pending ∨ g'.pending = none

theorem Track.Kept.refl (g : Track) : g.Kept g := ⟨rfl, rfl, .inl rfl⟩

theorem Track.Kept.trans {g g' g'' : Track} (h : g.Kept g') (h' : g'.Kept g'') : g.Kept g'' where
  contexts := h'.contexts.trans h.contexts
  installed := h'.installed.trans h.installed
  pending := by
    rcases h'.pending with hp | hp
    · rw [hp]
      exact h.pending
    · exact .inr hp

/-- Before it and after it nothing may change that matters. -/
theorem TrackRan.after {g g₁ g₂ : Track} (h : g.Kept g₁) (hran : TrackRan g₁ g₂) :
    TrackRan g g₂ := by
  obtain ⟨hcontexts, hinstalled, hpending⟩ := h
  cases hran with
  | kept hc hi hp =>
      refine .kept (hc.trans hcontexts) (hi.trans hinstalled) ?_
      rcases hp with hp | hp
      · rw [hp]
        exact hpending
      · exact .inr hp
  | opened hc hi hp => exact .opened (by rw [hc, hcontexts]) (hi.trans hinstalled) (hcontexts ▸ hp)
  | keyed hc hi hp =>
      rw [hcontexts] at hc
      rw [hinstalled] at hi
      rcases hpending with hsame | hnone
      · exact .keyed hc (hsame ▸ hi) hp
      · rw [hnone] at hi
        exact .kept hc (by simpa using hi) (.inr hp)

theorem TrackRan.before {g g₁ g₂ : Track} (hran : TrackRan g g₁) (h : g₁.Kept g₂) :
    TrackRan g g₂ := by
  obtain ⟨hcontexts, hinstalled, hpending⟩ := h
  cases hran with
  | kept hc hi hp =>
      refine .kept (hcontexts.trans hc) (hinstalled.trans hi) ?_
      rcases hpending with hp' | hp'
      · rw [hp']
        exact hp
      · exact .inr hp'
  | opened hc hi hp =>
      refine .opened (hcontexts.trans hc) (hinstalled.trans hi) ?_
      intro t ht
      rcases hpending with hp' | hp'
      · exact hp t (hp' ▸ ht)
      · rw [hp'] at ht
        simp at ht
  | keyed hc hi hp =>
      refine .keyed (hcontexts.trans hc) (hinstalled.trans hi) ?_
      rcases hpending with hp' | hp'
      · rw [hp', hp]
      · exact hp'

/-- Calls that open no context, accept no message_1 and key nothing. -/
def Call.keeps : Call σ → Bool
  | .contextInit ret | .message1Process _ ret => ret != EDHOC_SUCCESS
  | .oscoreContextInit _ err _ => err != .ok
  | _ => true

theorem kept_call (i : Nat) (g : Track) {c : Call σ} (h : c.keeps = true) :
    g.Kept (Track.call i g c) := by
  cases c with
  | contextInit ret =>
      rw [Track.call, if_neg (by simpa [Call.keeps] using h)]
      exact .refl g
  | message1Process msg ret =>
      rw [Track.call, if_neg (by simpa [Call.keeps] using h)]
      exact .refl g
  | oscoreContextInit params err ctx =>
      rw [Track.call, if_neg (by simpa [Call.keeps] using h)]
      exact .refl g
  | message2Compose ret | message4Compose ret =>
      rw [Track.call]
      split <;> exact ⟨rfl, rfl, .inl rfl⟩
  | contextDeinit => exact ⟨rfl, rfl, .inr rfl⟩
  | coapResourceSend out => rcases out with p | data <;> exact ⟨rfl, rfl, .inl rfl⟩
  | _ => exact ⟨rfl, rfl, .inl rfl⟩

theorem kept_calls (i : Nat) (cs : List (Call σ)) (h : ∀ c ∈ cs, c.keeps = true) :
    ∀ g : Track, g.Kept (cs.foldl (Track.call i) g) := by
  induction cs with
  | nil => intro g; exact .refl g
  | cons c cs ih =>
      intro g
      refine (kept_call i g (h c (by simp))).trans ?_
      exact ih (fun c' hc' => h c' (by simp [hc'])) _

theorem keeps_of_not_settles {c : Call σ} (h : c.settles = false) : c.keeps = true := by
  cases c <;> first | rfl | exact Bool.noConfusion h | exact bne_iff_ne.mpr (of_decide_eq_false h)

theorem keeps_resetLog (d : Device σ) : ∀ c ∈ resetLog d, c.keeps = true := by
  unfold resetLog
  split <;> simp [Call.keeps]

/-- A message_1 opens a context, if it gets that far. -/
theorem message1_opens {eng : Engine σ} {msg out : Bytes} {d d' : Device σ} {rc : Int}
    {cs : List (Call σ)} (h : Message1Ran eng msg d rc out d' cs) (i : Nat) (g : Track) :
    TrackRan g (cs.foldl (Track.call i) g) := by
  cases h with
  | initFailed hinit =>
      have hkept := kept_call i g (c := (.contextInit eng.contextInit : Call σ)) (by simpa [Call.keeps])
      exact .kept hkept.contexts hkept.installed hkept.pending
  | configureFailed _ _ _ => apply TrackRan.opened <;> simp [track_setupLog]
  | message1Failed _ _ hm1 => apply TrackRan.opened <;> simp [Track.call, track_setupLog, hm1]
  | message2Failed _ _ _ hm2 => apply TrackRan.opened <;> simp [Track.call, track_setupLog, hm2]
  | composed _ _ _ _ => apply TrackRan.opened <;> simp [Track.call, track_setupLog]

/-- A message_3 keys on the pending transcript and drops it, or keys nothing. -/
theorem message3_keys {eng : Engine σ} {msg out : Bytes} {d d' : Device σ} {rc : Int}
    {cs : List (Call σ)} (h : Message3Ran eng msg d rc out d' cs) (i : Nat) (g : Track) :
    TrackRan g (cs.foldl (Track.call i) g) := by
  rcases h.failed_or_keyed with hfail | hkeyed
  · have hkept := kept_calls i cs (fun c hc => keeps_of_not_settles (hfail.settles c hc)) g
    exact .kept hkept.contexts hkept.installed hkept.pending
  · rw [hkeyed.calls]
    apply TrackRan.keyed <;> simp [Track.call]

/-- **What a request does to the contexts.** -/
theorem request_track (w : World σ) (e : Event σ) (i : Nat) :
    TrackRan w.track (w.request e i).track := by
  show TrackRan w.track ((w.board.newCalls e).foldl (Track.call i) w.track)
  rcases e.edhoc_or_not with ⟨request, eng, rfl⟩ | he
  · have hran := edhocPost_ran eng request w.board
    generalize w.board.ret (.edhoc request eng) = r,
      hb : w.board.step (.edhoc request eng) = b' at hran
    have hentry : w.track.Kept (Track.call i w.track (.edhocPost request.payload : Call σ)) :=
      kept_call i w.track rfl
    cases hran with
    | rejected _ =>
        rw [newCalls_eq (congrArg Board.log hb)]
        exact .kept hentry.contexts hentry.installed hentry.pending
    | message1 _ hran hreply =>
        rw [newCalls_eq (congrArg Board.log hb), List.foldl_append, List.foldl_cons,
          List.foldl_append]
        refine .before (.after (hentry.trans (kept_calls i _ (keeps_resetLog w.board.dev) _))
          (message1_opens hran i _)) ?_
        exact kept_calls i _ (fun c hc => keeps_of_not_settles (settles_of_serves hreply.serves c hc)) _
    | message3 _ hran hreply =>
        rw [newCalls_eq (congrArg Board.log hb), List.foldl_append, List.foldl_cons]
        refine .before (.after hentry (message3_keys hran i _)) ?_
        exact kept_calls i _ (fun c hc => keeps_of_not_settles (settles_of_serves hreply.serves c hc)) _
  · obtain ⟨new, hlog, hnew⟩ := (served_of_not_edhoc (b := w.board) he).log
    rw [newCalls_eq hlog]
    have hkept := kept_calls i new (fun c hc => keeps_of_not_settles (settles_of_serves hnew c hc)) w.track
    exact .kept hkept.contexts hkept.installed hkept.pending

/-! ### No transcript is used twice -/

/-- Contexts are numbered as they are opened, and the pending one has not been used. -/
structure Track.Fresh (g : Track) : Prop where
  opened : ∀ t ∈ g.installed, t.responder ≤ g.contexts
  pending : ∀ t, g.pending = some t →
    t.responder = g.contexts ∧ ∀ t' ∈ g.installed, t'.responder < g.contexts
  sorted : g.installed.Pairwise fun t t' => t.responder < t'.responder

theorem Track.Fresh.step {g g' : Track} (h : g.Fresh) (hran : TrackRan g g') : g'.Fresh := by
  cases hran with
  | kept hcontexts hinstalled hpending =>
      refine ⟨by rw [hinstalled, hcontexts]; exact h.opened, ?_, by rw [hinstalled]; exact h.sorted⟩
      intro t ht
      rw [hinstalled, hcontexts]
      rcases hpending with hp | hp
      · exact h.pending t (hp ▸ ht)
      · rw [hp] at ht
        simp at ht
  | opened hcontexts hinstalled hpending =>
      refine ⟨?_, ?_, by rw [hinstalled]; exact h.sorted⟩
      · rw [hinstalled, hcontexts]
        intro t ht
        exact Nat.le_succ_of_le (h.opened t ht)
      · rw [hinstalled, hcontexts]
        intro t ht
        exact ⟨hpending t ht, fun t' ht' => Nat.lt_succ_of_le (h.opened t' ht')⟩
  | keyed hcontexts hinstalled hpending =>
      have hused : ∀ t ∈ g.pending.toList, t.responder = g.contexts ∧
          ∀ t' ∈ g.installed, t'.responder < g.contexts :=
        fun t ht => h.pending t (Option.mem_toList.mp ht)
      refine ⟨?_, by simp [hpending], ?_⟩
      · rw [hinstalled, hcontexts]
        intro t ht
        rcases List.mem_append.mp ht with ht | ht
        · exact h.opened t ht
        · exact Nat.le_of_eq (hused t ht).1
      · rw [hinstalled, List.pairwise_append]
        refine ⟨h.sorted, ?_, ?_⟩
        · cases g.pending <;> simp
        · intro t' ht' t ht
          rw [(hused t ht).1]
          exact (hused t ht).2 t' ht'

theorem fresh_reachable {ctx : σ} {w : World σ} (h : Reachable exporter ctx w) :
    w.track.Fresh := by
  induction h with
  | refl => exact ⟨by simp [World.boot, Track.boot], by simp [World.boot, Track.boot], .nil⟩
  | @tail w w' _ hstep ih =>
      cases hstep with
      | request e i _ => exact ih.step (request_track w e i)
      | start i a _ => exact ⟨ih.opened, ih.pending, ih.sorted⟩
      | message2 i r a _ _ => exact ⟨ih.opened, ih.pending, ih.sorted⟩
      | message4 i t a _ _ _ _ => exact ⟨ih.opened, ih.pending, ih.sorted⟩

/-- What is installed for a client is the one transcript it is on. -/
theorem AgreementInv.installed_transcript {w : World σ} (h : AgreementInv exporter w)
    {t : Transcript} (ht : t ∈ w.track.installed) :
    (w.clients t.initiator).transcript = some t := by
  obtain ⟨bytes, hmem⟩ := h.installed3 t ht
  exact h.sent3 t bytes hmem

/--
**Injective agreement.**  In every reachable world the transcripts on which the device
has keyed OSCORE differ pairwise in their client and were opened in the order in which
they were keyed; and a client that is through has exactly one of them to itself.
-/
theorem injective_agreement (exporter : Transcript → SessionKeys) (ctx : σ) (w : World σ)
    (h : Reachable exporter ctx w) :
    (w.track.installed.Pairwise fun t t' =>
      t.initiator ≠ t'.initiator ∧ t.responder < t'.responder) ∧
    ∀ i session, (w.clients i).phase = .complete session →
      ∃ past t later, w.track.installed = past ++ t :: later ∧
        (w.clients i).transcript = some t ∧ ∀ t' ∈ past ++ later, t'.initiator ≠ i := by
  have hinv := agreement_reachable h
  have hpairwise : w.track.installed.Pairwise fun t t' =>
      t.initiator ≠ t'.initiator ∧ t.responder < t'.responder := by
    refine (fresh_reachable h).sorted.imp_of_mem ?_
    intro t t' ht ht' hlt
    refine ⟨?_, hlt⟩
    intro heq
    -- one client is on one transcript
    have htr := hinv.installed_transcript ht
    rw [heq, hinv.installed_transcript ht'] at htr
    rw [Option.some.inj htr] at hlt
    exact Nat.lt_irrefl _ hlt
  refine ⟨hpairwise, ?_⟩
  intro i session hphase
  obtain ⟨t, htr, hmem, -⟩ := hinv.passed i session hphase
  obtain ⟨past, later, hsplit⟩ := List.append_of_mem hmem
  refine ⟨past, t, later, hsplit, htr, ?_⟩
  rw [hsplit, List.pairwise_append, List.pairwise_cons] at hpairwise
  obtain ⟨-, ⟨hlater, -⟩, hpast⟩ := hpairwise
  intro t' ht'
  rw [← hinv.own i t htr]
  rcases List.mem_append.mp ht' with ht' | ht'
  · exact (hpast t' ht' t (by simp)).1
  · exact fun heq => (hlater t' ht').1 heq.symm

/-- Two clients that are through, one after the other. -/
theorem injective_agreement_two :
    ∃ w : World Unit, Reachable ownKeys () w ∧ w.track.installed = [⟨0, 1⟩, ⟨1, 2⟩] ∧
      (w.track.installed.Pairwise fun t t' =>
        t.initiator ≠ t'.initiator ∧ t.responder < t'.responder) ∧
      ∀ i < 2, ∃ session past t later, (w.clients i).phase = .complete (some session) ∧
        w.track.installed = past ++ t :: later ∧ (w.clients i).transcript = some t ∧
        ∀ t' ∈ past ++ later, t'.initiator ≠ i := by
  obtain ⟨w₁, session₀, hrun₁, hphase₀, -, -, -, hinstalled₁, hcontexts₁, hother₁⟩ :=
    handshake_gets_through ownKeys_sized (fun _ => ()) (World.boot ()) 0 rfl
  have hidle : (w₁.clients 1).phase = .idle := by
    rw [hother₁ 1 (by decide)]
    rfl
  obtain ⟨w₂, session₁, hrun₂, hphase₁, -, -, -, hinstalled₂, -, hother₂⟩ :=
    handshake_gets_through ownKeys_sized (fun _ => ()) w₁ 1 hidle
  have hreach : Reachable ownKeys () w₂ :=
    Relation.ReflTransGen.mono (fun _ _ => HandshakeStep.step) _ _ (hrun₁.trans hrun₂)
  obtain ⟨hpairwise, hown⟩ := injective_agreement ownKeys () w₂ hreach
  have hcomplete : ∀ i < 2, ∃ session, (w₂.clients i).phase = .complete (some session) := by
    intro i hi
    rcases Nat.lt_succ_iff_lt_or_eq.mp hi with hi | rfl
    · obtain rfl : i = 0 := by omega
      exact ⟨session₀, by rw [hother₂ 0 (by decide), hphase₀]⟩
    · exact ⟨session₁, hphase₁⟩
  refine ⟨w₂, hreach, ?_, hpairwise, ?_⟩
  · rw [hinstalled₂, hinstalled₁]
    unfold World.next
    rw [hcontexts₁]
    rfl
  · intro i hi
    obtain ⟨session, hphase⟩ := hcomplete i hi
    obtain ⟨past, t, later, hsplit, htr, hothers⟩ := hown i _ hphase
    exact ⟨session, past, t, later, hphase, hsplit, htr, hothers⟩

end UsbNcmNet
