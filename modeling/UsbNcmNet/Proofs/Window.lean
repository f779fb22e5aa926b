/-
The replay window and the transcripts.

uoscore's window belongs to a context, and a context is made when OSCORE is keyed.  So
the window is emptied exactly where a transcript is installed: a request does both or
neither, and a step of a client does neither.
-/
import UsbNcmNet.Protected
import UsbNcmNet.Proofs.Link

namespace UsbNcmNet

open Trace

variable {σ : Type} {exporter : Transcript → SessionKeys}

/-! ### Calls that key nothing -/

/-- A call that does not key OSCORE. -/
def Call.keyless : Call σ → Bool
  | .oscoreContextInit _ err _ => err != .ok
  | _ => true

theorem keyless_of_not_settles {c : Call σ} (h : c.settles = false) : c.keyless = true := by
  cases c <;> first | rfl | exact bne_iff_ne.mpr (of_decide_eq_false h)

theorem keyless_of_serves {cs : List (Call σ)} (h : ∀ c ∈ cs, c.serves = true) :
    ∀ c ∈ cs, c.keyless = true :=
  fun c hc => keyless_of_not_settles (settles_of_serves h c hc)

theorem keyless_call (i : Nat) (g : Track) (window : List Nat) {c : Call σ}
    (h : c.keyless = true) :
    (Track.call i g c).installed = g.installed ∧ windowCall window c = window := by
  cases c with
  | oscoreContextInit params err ctx =>
      have herr : err ≠ .ok := by simpa [Call.keyless] using h
      simp [Track.call, windowCall, herr]
  | contextInit ret | message1Process _ ret | message2Compose ret | message4Compose ret =>
      refine ⟨?_, rfl⟩
      rw [Track.call]
      split <;> rfl
  | coapResourceSend out => rcases out with p | data <;> exact ⟨rfl, rfl⟩
  | _ => exact ⟨rfl, rfl⟩

/-- Without keying, neither the window nor what is installed changes. -/
theorem keyless_calls (i : Nat) (cs : List (Call σ)) (h : ∀ c ∈ cs, c.keyless = true) :
    ∀ (g : Track) (window : List Nat), (cs.foldl (Track.call i) g).installed = g.installed ∧
      cs.foldl windowCall window = window := by
  induction cs with
  | nil => intro g window; exact ⟨rfl, rfl⟩
  | cons c cs ih =>
      intro g window
      obtain ⟨hinstalled, hwindow⟩ := keyless_call i g window (h c (by simp))
      rw [List.foldl_cons, List.foldl_cons, hwindow, ← hinstalled]
      exact ih (fun c' hc' => h c' (by simp [hc'])) _ window

theorem keyless_message1 {eng : Engine σ} {msg out : Bytes} {rc : Int} {d d' : Device σ}
    {cs : List (Call σ)} (h : Message1Ran eng msg d rc out d' cs) :
    ∀ c ∈ resetLog d ++ cs, c.keyless = true := by
  have hsetup : ∀ c ∈ setupLog eng, c.keyless = true := by
    intro c hc
    rcases List.mem_cons.mp hc with rfl | hc
    · rfl
    · obtain ⟨s, r, rfl⟩ := mem_configureLog hc
      rfl
  have hreset : ∀ c ∈ resetLog d, c.keyless = true := by
    unfold resetLog
    split <;> simp [Call.keyless]
  intro c hc
  rcases List.mem_append.mp hc with hc | hc
  · exact hreset c hc
  · cases h with
    | initFailed _ =>
        rw [List.mem_singleton.mp hc]
        rfl
    | configureFailed _ _ _ => exact hsetup c hc
    | message1Failed _ _ _ | message2Failed _ _ _ _ | composed _ _ _ _ =>
        rcases List.mem_append.mp hc with hc | hc
        · exact hsetup c hc
        · simp only [List.mem_cons, List.not_mem_nil, or_false] at hc
          rcases hc with rfl | hc
          · rfl
          · rcases hc with rfl | rfl <;> rfl

/-! ### One step -/

/-- Either the window and what is installed stay, or one more is installed with a new window. -/
theorem request_window {s : Secure σ} {e : Event σ} {i : Nat} (m : Option Sealed)
    (hpromised : Promised exporter s.world.track i (s.world.board.newCalls e)) :
    ((s.request e i m).world.track.installed = s.world.track.installed ∧
      (s.world.board.newCalls e).foldl windowCall s.window = s.window) ∨
    ∃ t, (s.request e i m).world.track.installed = s.world.track.installed ++ [t] ∧
      (s.world.board.newCalls e).foldl windowCall s.window = [] := by
  have hkeyless : (∀ c ∈ s.world.board.newCalls e, c.keyless = true) →
      (s.request e i m).world.track.installed = s.world.track.installed ∧
        (s.world.board.newCalls e).foldl windowCall s.window = s.window :=
    fun h => keyless_calls i _ h _ _
  rcases e.edhoc_or_not with ⟨request, eng, rfl⟩ | he
  · have hran := edhocPost_ran eng request s.world.board
    generalize s.world.board.ret (.edhoc request eng) = r,
      hb : s.world.board.step (.edhoc request eng) = b' at hran
    cases hran with
    | rejected _ =>
        refine .inl (hkeyless ?_)
        rw [newCalls_eq (congrArg Board.log hb)]
        simp [Call.keyless]
    | message1 _ hran hreply =>
        refine .inl (hkeyless ?_)
        rw [newCalls_eq (congrArg Board.log hb)]
        intro c hc
        rcases List.mem_append.mp hc with hc | hc
        · rcases List.mem_cons.mp hc with rfl | hc
          · rfl
          · exact keyless_message1 hran c hc
        · exact keyless_of_serves hreply.serves c hc
    | @message3 msg _ _ _ _ _ tail _ hran hreply =>
        rcases hran.failed_or_keyed with hfail | hkeyed
        · refine .inl (hkeyless ?_)
          rw [newCalls_eq (congrArg Board.log hb), hreply.silent hfail.rc, List.append_nil]
          intro c hc
          rcases List.mem_cons.mp hc with rfl | hc
          · rfl
          · exact keyless_of_not_settles (hfail.settles c hc)
        · have hcalls := newCalls_eq (congrArg Board.log hb)
          rw [hkeyed.calls] at hcalls
          obtain ⟨t, hpending, -⟩ := hpromised.message3 msg (by simp [hcalls])
          have htail := keyless_calls i tail (keyless_of_serves hreply.serves)
          refine .inr ⟨t, ?_, ?_⟩
          · show ((s.world.board.newCalls _).foldl (Track.call i) s.world.track).installed = _
            rw [hcalls, List.foldl_append, (htail _ []).1]
            simp [Track.call, hpending]
          · rw [hcalls, List.foldl_append, (htail s.world.track _).2]
            simp [windowCall]
  · obtain ⟨new, hlog, hnew⟩ := (served_of_not_edhoc (b := s.world.board) he).log
    refine .inl (hkeyless ?_)
    rw [newCalls_eq hlog]
    exact keyless_of_serves hnew

/-- A step of a client installs nothing. -/
theorem client_installs_nothing {w w' : World σ} (h : Step exporter w w')
    (hboard : w'.board = w.board) : w'.track.installed = w.track.installed := by
  cases h with
  | request e i _ =>
      have hcalls : w.board.newCalls e = [] := by
        show (w.board.step e).log.drop w.board.log.length = []
        rw [show w.board.step e = w.board from hboard, List.drop_length]
      show ((w.board.newCalls e).foldl (Track.call i) w.track).installed = _
      rw [hcalls]
      rfl
  | start i a _ => rfl
  | message2 i r a _ _ => rfl
  | message4 i t a _ _ _ _ => rfl

theorem installed_grows {s s' : Secure σ} (h : SecureStep exporter s s') :
    s.world.track.installed <+: s'.world.track.installed := by
  cases h with
  | client hstep hboard => exact (client_installs_nothing hstep hboard) ▸ List.prefix_rfl
  | request e i m hpromised _ =>
      rcases request_window m hpromised with ⟨hsame, -⟩ | ⟨t, hgrown, -⟩
      · exact hsame ▸ List.prefix_rfl
      · exact ⟨[t], hgrown.symm⟩
  | protect i session request _ => exact List.prefix_rfl

end UsbNcmNet
