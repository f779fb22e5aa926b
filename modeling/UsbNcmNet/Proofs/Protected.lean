/-
No protected request is served twice.

uoscore looks after that for as long as a context lives, and forgets it all when one is
initialised.  A device that could be made to key OSCORE a second time on one transcript
would serve every request of that session again.  So this rests on the sessions being
injective, and needs the secrets of different transcripts to differ: a message that
opens under the keys of the current context was then protected on the transcript that
was installed last, and its number is in the window if it was ever accepted.
-/
import Mathlib.Data.List.Nodup
import UsbNcmNet.Proofs.Sessions
import UsbNcmNet.Proofs.Conversation

namespace UsbNcmNet

open Trace

variable {σ : Type} {exporter : Transcript → SessionKeys}

/-! ### The world beneath -/

theorem world_step {s s' : Secure σ} (h : SecureStep exporter s s') :
    s'.world = s.world ∨ Step exporter s.world s'.world := by
  cases h with
  | client hstep _ => exact .inr hstep
  | request e i m hpromised _ => exact .inr (.request e i hpromised)
  | protect i session request _ => exact .inl rfl

theorem world_reachable {ctx : σ} {s : Secure σ} (h : SecureReachable exporter ctx s) :
    Reachable exporter ctx s.world := by
  induction h with
  | refl => exact .refl
  | tail _ hstep ih =>
      rcases world_step hstep with heq | hworld
      · rw [heq]
        exact ih
      · exact ih.tail hworld

/-! ### Accepting a message -/

/-- Only a device with a session accepts a message, and in doing so keys nothing. -/
theorem ready_of_opens {s : Secure σ} {e : Event σ} {x : Sealed} (h : Opens s e (some x)) :
    s.world.board.dev.oscoreReady = true ∧
      ∀ c ∈ s.world.board.newCalls e, c.keyless = true := by
  have hany : (s.world.board.newCalls e).any Call.opens = true := h.accepted.symm
  rcases e.edhoc_or_not with ⟨request, eng, rfl⟩ | he
  · obtain ⟨⟨new, hlog, hnew⟩, -⟩ := responds_edhoc s.world.board request eng
    rw [newCalls_eq hlog] at hany
    obtain ⟨c, hc, hopens⟩ := List.any_eq_true.mp hany
    rw [opens_of_responds (hnew c hc)] at hopens
    exact Bool.noConfusion hopens
  · obtain ⟨new, hlog, hnew⟩ := (served_of_not_edhoc (b := s.world.board) he).log
    refine ⟨?_, ?_⟩
    · cases e with
      | edhoc request eng => exact absurd rfl (he request eng)
      | app request gpio send =>
          have hran := appRequest_ran gpio send request s.world.board
          generalize hb : s.world.board.step (.app request gpio send) = b' at hran
          cases hran with
          | mk _ htail =>
              rw [newCalls_eq (congrArg Board.log hb)] at hany
              rcases htail with rfl | ⟨p, rfl⟩ <;> simp [Call.opens] at hany
      | oscore osc =>
          by_contra hready
          have hran := oscorePost_ran osc s.world.board
          generalize s.world.board.ret (.oscore osc) = r,
            hb : s.world.board.step (.oscore osc) = b' at hran
          cases hran with
          | notReady _ =>
              rw [newCalls_eq (congrArg Board.log hb)] at hany
              simp [Call.opens] at hany
          | rejected hyes | unbuilt hyes _ _ | answered hyes _ _ _ => exact hready hyes
    · rw [newCalls_eq hlog]
      exact keyless_of_serves hnew

/-- To dispatch what is inside, the message has to be accepted. -/
theorem opens_of_inner {osc : OscoreEngine σ} {b : Board σ} {request : Request}
    (h : (Event.oscore osc).inner b = some request) :
    (b.newCalls (.oscore osc)).any Call.opens = true ∧ osc.inner = .ok request := by
  change (if b.dev.oscoreReady = true ∧
    (osc.oscore2coap.1 = .ok ∨ osc.oscore2coap.1 = .firstRequestAfterReboot) then
      osc.inner.toOption else none) = some request at h
  split at h
  · rename_i hyes
    obtain ⟨hready, herr⟩ := hyes
    have haccepts : osc.oscore2coap.1.accepts = true := by
      rcases herr with herr | herr <;> rw [herr] <;> rfl
    refine ⟨?_, ?_⟩
    · have hran := oscorePost_ran osc b
      generalize b.ret (.oscore osc) = r, hb : b.step (.oscore osc) = b' at hran
      cases hran with
      | notReady hno => rw [hready] at hno; exact Bool.noConfusion hno
      | rejected _ | unbuilt _ _ _ | answered _ _ _ _ =>
          rw [newCalls_eq (congrArg Board.log hb)]
          simp [Call.opens, haccepts]
    · rcases hinner : osc.inner with r | request'
      · rw [hinner] at h
        simp [Except.toOption] at h
      · rw [hinner] at h
        rw [Option.some.inj h]
  · simp at h

/-- What is dispatched from inside is what was accepted, or nothing is. -/
theorem opened_sublist {s : Secure σ} {e : Event σ} {m : Option Sealed} (h : Opens s e m) :
    (e.opened s.world.board).Sublist (m.toList.map Sealed.request) := by
  cases e with
  | edhoc request eng => exact List.nil_sublist _
  | app request gpio send => exact List.nil_sublist _
  | oscore osc =>
      show ((s.world.board.dispatches (.oscore osc)).map Prod.fst).Sublist _
      have hran := inner_ran_oscore osc s.world.board
      generalize hinner : (Event.oscore osc).inner s.world.board = inner at hran
      cases hran with
      | turnedAway hnone _ =>
          rw [hnone]
          exact List.nil_sublist _
      | @dispatched request p hone _ =>
          rw [hone]
          obtain ⟨hopens, hok⟩ := opens_of_inner hinner
          have hsome := h.accepted
          rw [hopens] at hsome
          obtain ⟨x, rfl⟩ := Option.isSome_iff_exists.mp hsome
          rw [h.inner x osc request rfl rfl hok]
          exact List.Sublist.refl _

/-! ### The invariant -/

structure SecureInv (s : Secure σ) : Prop where
  /-- Whoever has protected a request has the session it is protected under. -/
  owner : ∀ x ∈ s.sealed, (s.world.clients x.initiator).phase = .complete (some x.session)
  accepted : ∀ x ∈ s.accepted, x ∈ s.sealed
  /-- What was accepted on the current transcript is in the window. -/
  seen : ∀ x ∈ s.accepted, ∀ t, s.world.track.installed.getLast? = some t →
    t.initiator = x.initiator → x.number ∈ s.window
  once : (s.accepted.map Sealed.key).Nodup
  served : s.served.Sublist (s.accepted.map Sealed.request)

theorem secureInv_boot (ctx : σ) : SecureInv (Secure.boot ctx) where
  owner _ h := absurd h List.not_mem_nil
  accepted _ h := absurd h List.not_mem_nil
  seen _ h := absurd h List.not_mem_nil
  once := List.nodup_nil
  served := List.Sublist.slnil

/-- The secrets of the installed transcripts are all different. -/
def SecretsDiffer (exporter : Transcript → SessionKeys) (s : Secure σ) : Prop :=
  (s.world.track.installed.map fun t => (exporter t).masterSecret).Nodup

/-- A message that opens was protected on the transcript that was installed last. -/
theorem opens_last {ctx : σ} {s : Secure σ} (hreach : SecureReachable exporter ctx s)
    (hdiffer : SecretsDiffer exporter s) (hinv : SecureInv s) {e : Event σ} {x : Sealed}
    (h : Opens s e (some x)) :
    ∃ t, s.world.track.installed.getLast? = some t ∧ t.initiator = x.initiator := by
  have hagree := agreement_reachable (world_reachable hreach)
  obtain ⟨hsealed, params, hparams, hswapped⟩ := h.authentic x rfl
  obtain ⟨t, hlast, hkeyed⟩ := hagree.ready (ready_of_opens h).1
  obtain ⟨tx, htx, hmem, hsession⟩ :=
    hagree.passed x.initiator (some x.session) (hinv.owner x hsealed)
  refine ⟨t, hlast, ?_⟩
  -- the keys of the two transcripts are the same
  have hkeys := hsession x.session rfl
  rw [hswapped, Option.some.inj (hparams.symm.trans hkeyed)] at hkeys
  have hsecret : (exporter t).masterSecret = (exporter tx).masterSecret :=
    congrArg OscoreInitParams.masterSecret hkeys
  have hsame : t = tx :=
    List.inj_on_of_nodup_map hdiffer (List.mem_of_getLast? hlast) hmem hsecret
  rw [hsame, hagree.own x.initiator tx htx]

/-! ### One step -/

/-- A client that is through stays so. -/
theorem complete_stays {w w' : World σ} (h : Step exporter w w') {j : Nat}
    {session : Option OscoreInitParams} (hphase : (w.clients j).phase = .complete session) :
    (w'.clients j).phase = .complete session := by
  have hmove : ∀ {i : Nat} {c : ClientRun} {m : Message} {posted : Option Framed},
      (w.clients i).phase ≠ .complete session →
        ((w.move i c m posted).clients j).phase = .complete session := by
    intro i c m posted hearlier
    have hne : j ≠ i := by
      intro heq
      rw [heq] at hphase
      exact hearlier hphase
    show (Function.update w.clients i c j).phase = _
    rw [Function.update_of_ne hne]
    exact hphase
  cases h with
  | request e i _ => exact hphase
  | start i a hidle => exact hmove (by simp [hidle])
  | message2 i r a hawaiting _ => exact hmove (by simp [hawaiting])
  | message4 i t a hawaiting _ _ _ => exact hmove (by simp [hawaiting])

/-- A transcript that is installed now was not used for anything accepted so far. -/
theorem accepted_of_other {ctx : σ} {s : Secure σ} (hreach : SecureReachable exporter ctx s)
    (hinv : SecureInv s) {w' : World σ} (hreach' : Reachable exporter ctx w')
    (hclients : w'.clients = s.world.clients) {t : Transcript}
    (hgrown : w'.track.installed = s.world.track.installed ++ [t]) {x : Sealed}
    (hx : x ∈ s.accepted) : t.initiator ≠ x.initiator := by
  intro heq
  have hagree := agreement_reachable (world_reachable hreach)
  obtain ⟨tx, htx, hmem, -⟩ :=
    hagree.passed x.initiator (some x.session) (hinv.owner x (hinv.accepted x hx))
  have ht := (agreement_reachable hreach').installed_transcript (t := t) (by rw [hgrown]; simp)
  rw [hclients, heq, htx] at ht
  have hsorted := (fresh_reachable hreach').sorted
  rw [hgrown, List.pairwise_append] at hsorted
  have hlt := hsorted.2.2 tx hmem t (by simp)
  rw [Option.some.inj ht] at hlt
  exact Nat.lt_irrefl _ hlt

/-- Nothing is accepted that was accepted before. -/
theorem accepted_new {ctx : σ} {s : Secure σ} (hreach : SecureReachable exporter ctx s)
    (hdiffer : SecretsDiffer exporter s) (hinv : SecureInv s) {e : Event σ} {x : Sealed}
    (h : Opens s e (some x)) : x.key ∉ s.accepted.map Sealed.key := by
  intro hmem
  obtain ⟨y, hy, hkey⟩ := List.mem_map.mp hmem
  obtain ⟨hinitiator, hnumber⟩ := Prod.mk.inj hkey
  obtain ⟨t, hlast, ht⟩ := opens_last hreach hdiffer hinv h
  have hseen := hinv.seen y hy t hlast (ht.trans hinitiator.symm)
  rw [hnumber] at hseen
  exact h.unseen x rfl hseen

theorem secureInv_request {ctx : σ} {s : Secure σ} (hreach : SecureReachable exporter ctx s)
    (hdiffer : SecretsDiffer exporter s) (hinv : SecureInv s) {e : Event σ} {i : Nat}
    {m : Option Sealed}
    (hpromised : Promised exporter s.world.track i (s.world.board.newCalls e))
    (hopens : Opens s e m) : SecureInv (s.request e i m) := by
  have hreach' : Reachable exporter ctx (s.request e i m).world :=
    world_reachable (hreach.tail (.request e i m hpromised hopens))
  refine ⟨hinv.owner, ?_, ?_, ?_, ?_⟩
  · intro x hx
    rcases List.mem_append.mp hx with hx | hx
    · exact hinv.accepted x hx
    · exact (hopens.authentic x (Option.mem_toList.mp hx)).1
  · intro x hx t hlast hinitiator
    show x.number ∈ m.toList.map Sealed.number ++ _
    rcases request_window m hpromised with ⟨hsame, hwindow⟩ | ⟨t', hgrown, -⟩
    · rw [hwindow]
      rcases List.mem_append.mp hx with hx | hx
      · rw [hsame] at hlast
        exact List.mem_append_right _ (hinv.seen x hx t hlast hinitiator)
      · exact List.mem_append_left _ (List.mem_map_of_mem hx)
    · -- keying OSCORE accepts nothing, and what was accepted before is another client's
      rcases List.mem_append.mp hx with hx | hx
      · rw [hgrown, List.getLast?_concat] at hlast
        obtain rfl := Option.some.inj hlast
        exact absurd hinitiator (accepted_of_other hreach hinv hreach' rfl hgrown hx)
      · obtain rfl := Option.mem_toList.mp hx
        exact List.mem_append_left _ (by simp)
  · show ((s.accepted ++ m.toList).map Sealed.key).Nodup
    rcases m with _ | x
    · simpa using hinv.once
    · rw [List.map_append, List.nodup_append]
      refine ⟨hinv.once, by simp, ?_⟩
      intro k hk k' hk' heq
      obtain rfl : k' = x.key := by simpa using hk'
      exact accepted_new hreach hdiffer hinv hopens (heq ▸ hk)
  · show (s.served ++ e.opened s.world.board).Sublist ((s.accepted ++ m.toList).map Sealed.request)
    rw [List.map_append]
    exact hinv.served.append (opened_sublist hopens)

theorem secureInv_step {ctx : σ} {s s' : Secure σ} (hreach : SecureReachable exporter ctx s)
    (hdiffer : SecretsDiffer exporter s) (hinv : SecureInv s) (hstep : SecureStep exporter s s') :
    SecureInv s' := by
  cases hstep with
  | client hstep hboard =>
      refine ⟨?_, hinv.accepted, ?_, hinv.once, hinv.served⟩
      · intro x hx
        exact complete_stays hstep (hinv.owner x hx)
      · intro x hx t hlast
        rw [client_installs_nothing hstep hboard] at hlast
        exact hinv.seen x hx t hlast
  | request e i m hpromised hopens => exact secureInv_request hreach hdiffer hinv hpromised hopens
  | protect i session request hphase =>
      refine ⟨?_, ?_, hinv.seen, hinv.once, hinv.served⟩
      · intro x hx
        rcases List.mem_append.mp hx with hx | hx
        · exact hinv.owner x hx
        · rw [List.mem_singleton.mp hx]
          exact hphase
      · intro x hx
        exact List.mem_append_left _ (hinv.accepted x hx)

theorem secureInv_reachable {ctx : σ} {s : Secure σ} (h : SecureReachable exporter ctx s) :
    SecretsDiffer exporter s → SecureInv s := by
  induction h with
  | refl => intro _; exact secureInv_boot ctx
  | @tail s s' hreach hstep ih =>
      intro hdiffer'
      -- secrets that differ now differed before
      have hdiffer : SecretsDiffer exporter s :=
        hdiffer'.sublist ((installed_grows hstep).sublist.map _)
      exact secureInv_step hreach hdiffer (ih hdiffer) hstep

/--
**Every protected request is served at most once.**  Over all runs of the device, its
clients and a network that repeats what it likes, and through any number of handshakes:
no message is accepted twice, every one that is accepted was protected by a client that
has a session on an installed transcript, and the requests served are, in order, among
those that were accepted.
-/
theorem protected_at_most_once (exporter : Transcript → SessionKeys) (ctx : σ) (s : Secure σ)
    (h : SecureReachable exporter ctx s) (hdiffer : SecretsDiffer exporter s) :
    (s.accepted.map Sealed.key).Nodup ∧
    s.served.Sublist (s.accepted.map Sealed.request) ∧
    ∀ x ∈ s.accepted, x ∈ s.sealed ∧
      (s.world.clients x.initiator).phase = .complete (some x.session) ∧
      ∃ t ∈ s.world.track.installed, (s.world.clients x.initiator).transcript = some t := by
  have hinv := secureInv_reachable h hdiffer
  refine ⟨hinv.once, hinv.served, ?_⟩
  intro x hx
  have hphase := hinv.owner x (hinv.accepted x hx)
  obtain ⟨t, ht, hmem, -⟩ :=
    (agreement_reachable (world_reachable h)).passed x.initiator (some x.session) hphase
  exact ⟨hinv.accepted x hx, hphase, t, hmem, ht⟩

/-- Two messages of one client, and after a handshake in between one of another. -/
theorem protected_at_most_once_two :
    let get := requestTo COAP_METHOD_GET ledPath none
    let put := requestTo COAP_METHOD_PUT ledPath (some (ascii ['1']))
    ∃ s : Secure (Option OscoreInitParams × UInt8), SecureReachable ownKeys (none, 0) s ∧
      s.world.track.installed = [⟨0, 1⟩, ⟨1, 2⟩] ∧ s.served = [get, put, get] ∧
      s.accepted.map Sealed.key = [(0, 0), (0, 1), (1, 0)] ∧
      (s.accepted.map Sealed.key).Nodup ∧
      s.served.Sublist (s.accepted.map Sealed.request) ∧
      ∀ x ∈ s.accepted, x ∈ s.sealed ∧
        (s.world.clients x.initiator).phase = .complete (some x.session) ∧
        ∃ t ∈ s.world.track.installed, (s.world.clients x.initiator).transcript = some t := by
  intro get put
  obtain ⟨s₁, session₀, hrun₁, hconnected₁, huntouched₁, hinstalled₁, hcontexts₁, hothers₁⟩ :=
    gets_connected tagging ownKeys_sized (Secure.boot (none, 0)) 0 rfl
  obtain ⟨s₂, -, hrun₂, hconnected₂, -, -, -, -, hserved₂, hsealed₂, haccepted₂, htrack₂,
    hclients₂⟩ := hconnected₁.serve ownKeys get 0
  obtain ⟨s₃, -, hrun₃, -, -, -, -, -, hserved₃, hsealed₃, haccepted₃, htrack₃,
    hclients₃⟩ := hconnected₂.serve ownKeys put 0
  have hidle : (s₃.world.clients 1).phase = .idle := by
    rw [hclients₃, hclients₂, hothers₁ 1 (by decide)]
    rfl
  obtain ⟨s₄, session₁, hrun₄, hconnected₄, huntouched₄, hinstalled₄, -, -⟩ :=
    gets_connected tagging ownKeys_sized s₃ 1 hidle
  obtain ⟨s₅, -, hrun₅, -, -, -, -, -, hserved₅, -, haccepted₅, htrack₅, -⟩ :=
    hconnected₄.serve ownKeys get 0
  have hreach : SecureReachable ownKeys (none, 0) s₅ :=
    ((((secure_run hrun₁).trans hrun₂).trans hrun₃).trans (secure_run hrun₄)).trans hrun₅
  have hinstalled : s₅.world.track.installed = [⟨0, 1⟩, ⟨1, 2⟩] := by
    rw [htrack₅]
    show s₄.world.track.installed = _
    rw [hinstalled₄]
    unfold World.next
    rw [htrack₃, htrack₂]
    show s₁.world.track.installed ++ [⟨1, s₁.world.track.contexts + 1⟩] = _
    rw [hinstalled₁, hcontexts₁]
    rfl
  have hdiffer : SecretsDiffer ownKeys s₅ := by
    unfold SecretsDiffer
    rw [hinstalled]
    decide
  refine ⟨s₅, hreach, hinstalled, ?_, ?_, protected_at_most_once ownKeys (none, 0) s₅ hreach hdiffer⟩
  · rw [hserved₅, huntouched₄.served, hserved₃, hserved₂, huntouched₁.served]
    rfl
  · rw [haccepted₅, huntouched₄.accepted, haccepted₃, haccepted₂, huntouched₁.accepted]
    simp [Secure.next, Secure.count, Sealed.key, huntouched₄.sealed, hsealed₃, hsealed₂,
      huntouched₁.sealed, Secure.boot]

end UsbNcmNet
