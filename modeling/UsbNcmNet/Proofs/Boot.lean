/-
No crypto before PSA is up, and when that is not so.

`main()` calls `psa_crypto_init` after it has given the interface its address, and
the service has been running since before either.  Nothing ties the handlers to
the init: a message_1 that arrives in between, or after an init that failed, goes
straight into the engine.

It is message_1 that matters.  Every other POST reaches the engine only on a
context that an earlier message_1 left behind, so if no message_1 is delivered
early, nothing is.
-/
import UsbNcmNet.Boot
import UsbNcmNet.Lib.Trace
import UsbNcmNet.Proofs.Session

namespace UsbNcmNet

open Trace

variable {σ : Type}

/-! ### Calls into the engine -/

def Call.intoLibedhoc : Call σ → Bool
  | .contextInit _ | .configure _ _ | .message1Process _ _ | .message2Compose _
  | .message3Process _ _ | .message4Compose _ | .contextDeinit | .exportOscoreSession _ => true
  | _ => false

/-- Every call into the engine was made with PSA up. -/
def NoCryptoBeforePsa (s : System σ) : Prop :=
  ∀ m ∈ s.made, m.1.intoLibedhoc = true → m.2 = true

theorem intoLibedhoc_of_serves {cs : List (Call σ)} (h : ∀ c ∈ cs, c.serves = true) :
    ∀ c ∈ cs, c.intoLibedhoc = false :=
  serves_rule h rfl (fun _ _ => rfl) (fun _ _ _ => rfl) (fun _ _ => rfl) fun _ => rfl

/-- With no handshake pending, only a message_1 gets to the engine. -/
theorem newCalls_of_idle {b : Board σ} {e : Event σ} (hidle : b.dev.edhocCtxActive = false)
    (he : ∀ request eng, e = .edhoc request eng → startsMessage1 request.payload = false) :
    (∀ c ∈ b.newCalls e, c.intoLibedhoc = false) ∧ (b.step e).dev.edhocCtxActive = false := by
  rcases e.edhoc_or_not with ⟨request, eng, rfl⟩ | hnot
  · have hstep := edhocPost_of_idle eng hidle (he request eng rfl)
    refine ⟨?_, by rw [hstep]; exact hidle⟩
    rw [newCalls_eq (congrArg Board.log hstep)]
    simp [Call.intoLibedhoc]
  · have hserved := served_of_not_edhoc (b := b) hnot
    obtain ⟨new, hlog, hnew⟩ := hserved.log
    refine ⟨?_, hserved.active.trans hidle⟩
    rw [newCalls_eq hlog]
    exact intoLibedhoc_of_serves hnew

/-- A message_1 always gets as far as `edhoc_context_init`. -/
theorem message1_calls_init (b : Board σ) (request : Request) (eng : Engine σ)
    (hstart : startsMessage1 request.payload = true) :
    Call.contextInit eng.contextInit ∈ b.newCalls (.edhoc request eng) := by
  obtain ⟨msg, out, rc, d, cs, tail, hran, -, hb⟩ := edhocPost_message1 (b := b) eng hstart
  rw [newCalls_eq (congrArg Board.log hb)]
  cases hran with
  | initFailed _ => simp
  | _ hinit => simp [setupLog, hinit]

/-! ### Schedules without an early message_1 -/

/-- A message_1 is delivered only with PSA up. -/
def Action.Timely (s : System σ) (a : Action σ) : Prop :=
  ∀ request eng, a = .deliver (.edhoc request eng) → startsMessage1 request.payload = true →
    s.accepts = true → s.psaUp = true

/-- What holds between any two steps of such a schedule. -/
structure BootInv (s : System σ) : Prop where
  late : s.psaUp = true → s.pc = .coapServerStart ∨ s.pc = .returned
  active : s.board.dev.edhocCtxActive = true → s.psaUp = true
  pending : ∀ c ∈ s.pending, c.intoLibedhoc = true → s.psaUp = true
  made : NoCryptoBeforePsa s

theorem boot_init (ctx : σ) : BootInv (system ctx).init where
  late h := Bool.noConfusion h
  active h := Bool.noConfusion h
  pending _ hc := absurd hc List.not_mem_nil
  made _ hm := absurd hm List.not_mem_nil

/-- Moving `main()` on from where it says nothing about PSA keeps the invariant. -/
theorem BootInv.advance {s s' : System σ} (h : BootInv s) {pc : MainPc}
    (hpc : pc ≠ .coapServerStart) (hpc' : pc ≠ .returned) (hpsa : s'.psaUp = s.psaUp)
    (hboard : s'.board = s.board) (hpending : s'.pending = s.pending) (hmade : s'.made = s.made) :
    BootInv (if s.pc = pc then s' else s) := by
  split
  · rename_i heq
    refine ⟨fun hup => absurd (h.late (hpsa ▸ hup)) (by simp [heq, hpc, hpc']), ?_, ?_, ?_⟩
    · rw [hboard, hpsa]
      exact h.active
    · rw [hpending, hpsa]
      exact h.pending
    · unfold NoCryptoBeforePsa
      rw [hmade]
      exact h.made
  · exact h

theorem boot_step {s : System σ} {a : Action σ} (h : BootInv s) (ha : a.Timely s) :
    BootInv (s.step a) := by
  cases a with
  | ncmUsbdInit ok vbus => exact h.advance (by decide) (by decide) rfl rfl rfl rfl
  | usbdEnable ret => exact h.advance (by decide) (by decide) rfl rfl rfl rfl
  | assignStaticIpv4 net => exact h.advance (by decide) (by decide) rfl rfl rfl rfl
  | setNetmask => exact h.advance (by decide) (by decide) rfl rfl rfl rfl
  | psaCryptoInit st =>
      simp only [System.step]
      split
      · rename_i hpc
        -- PSA was down until now, so nothing that needs it is under way
        have hdown : s.psaUp ≠ true := fun hup => by simpa [hpc] using h.late hup
        exact ⟨fun _ => .inl rfl, fun hact => absurd (h.active hact) hdown,
          fun c hc hinto => absurd (h.pending c hc hinto) hdown, h.made⟩
      · exact h
  | coapServerStart =>
      simp only [System.step]
      split
      · exact ⟨fun _ => .inr rfl, h.active, h.pending, h.made⟩
      · exact h
  | deliver e =>
      simp only [System.step]
      split
      · rename_i haccepts
        by_cases hup : s.psaUp = true
        · exact ⟨h.late, fun _ => hup, fun _ _ _ => hup, h.made⟩
        · have hidle : s.board.dev.edhocCtxActive = false := by
            by_contra hc
            exact hup (h.active (by simpa using hc))
          obtain ⟨hcalls, hidle'⟩ := newCalls_of_idle (e := e) hidle (by
            rintro request eng rfl
            by_contra hc
            exact hup (ha request eng rfl (by simpa using hc) haccepts))
          refine ⟨h.late, ?_, ?_, h.made⟩
          · intro hact
            rw [hidle'] at hact
            exact Bool.noConfusion hact
          · intro c hc hinto
            rw [hcalls c hc] at hinto
            exact Bool.noConfusion hinto
      · exact h
  | makeCall =>
      simp only [System.step]
      split
      · exact h
      · rename_i c rest hpending
        refine ⟨h.late, h.active, ?_, ?_⟩
        · intro c' hc'
          exact h.pending c' (by rw [hpending]; exact List.mem_cons_of_mem _ hc')
        · intro m hm hinto
          rcases List.mem_append.mp hm with hm | hm
          · exact h.made m hm hinto
          · obtain rfl := List.mem_singleton.mp hm
            exact h.pending c (by rw [hpending]; exact List.mem_cons_self) hinto

/-- The invariant holds after every schedule whose deliveries are all timely. -/
theorem boot_run (ctx : σ) (acts : List (Action σ))
    (hacts : AtEach (fun pre a => a.Timely ((system ctx).run pre)) acts) :
    BootInv ((system ctx).run acts) := by
  induction acts using List.reverseRecOn with
  | nil => exact boot_init ctx
  | append_singleton acts a ih =>
      obtain ⟨hpast, ha⟩ := atEach_concat.mp hacts
      rw [Machine.run_concat]
      exact boot_step (ih hpast) ha

/-! ### What an early message_1 leads to -/

/-- Left alone, the service makes all its pending calls with PSA as it is. -/
theorem made_of_drain (s : System σ) :
    ((List.replicate s.pending.length Action.makeCall).foldl System.step s).made
      = s.made ++ s.pending.map fun c => (c, s.psaUp) := by
  generalize hn : s.pending.length = n
  induction n generalizing s with
  | zero =>
      rw [List.length_eq_zero_iff] at hn
      simp [hn]
  | succ n ih =>
      obtain ⟨c, rest, hpending⟩ := List.exists_cons_of_length_eq_add_one hn
      have hstep : s.step .makeCall =
          { s with pending := rest, made := s.made ++ [(c, s.psaUp)] } := by
        simp [System.step, hpending]
      rw [List.replicate_succ, List.foldl_cons, hstep, ih _ (by simpa [hpending] using hn)]
      simp [hpending]

/--
**When there is no crypto before PSA.**  In every schedule in which message_1 is
delivered only after `psa_crypto_init` has returned `PSA_SUCCESS`, every call into
the engine is made with PSA up.  And any delivery of a message_1 before that can be
followed, with `main()` standing still, by a call made without it.
-/
theorem no_crypto_before_psa (ctx : σ) :
    (∀ acts : List (Action σ), AtEach (fun pre a => a.Timely ((system ctx).run pre)) acts →
      NoCryptoBeforePsa ((system ctx).run acts)) ∧
    (∀ (acts : List (Action σ)) (request : Request) (eng : Engine σ),
      ¬ (Action.deliver (.edhoc request eng)).Timely ((system ctx).run acts) →
      ∃ n, ¬ NoCryptoBeforePsa ((system ctx).run
        (acts ++ .deliver (.edhoc request eng) :: List.replicate n .makeCall))) := by
  refine ⟨fun acts hacts => (boot_run ctx acts hacts).made, ?_⟩
  intro acts request eng hearly
  simp only [Action.Timely, not_forall] at hearly
  obtain ⟨request', eng', heq, hstart, haccepts, hdown⟩ := hearly
  obtain ⟨rfl, rfl⟩ : request = request' ∧ eng = eng' := by simpa using heq
  generalize hs : (system ctx).run acts = s at haccepts hdown
  have hdeliver : s.step (.deliver (.edhoc request eng)) =
      { s with
        board := s.board.step (.edhoc request eng)
        pending := s.board.newCalls (.edhoc request eng) } := if_pos haccepts
  have hmade := made_of_drain (s.step (.deliver (.edhoc request eng)))
  refine ⟨(s.step (.deliver (.edhoc request eng))).pending.length, ?_⟩
  rw [Machine.run_append, List.foldl_cons, hs, system_step]
  intro hno
  refine hdown (hno (.contextInit eng.contextInit, s.psaUp) ?_ rfl)
  rw [hmade, hdeliver]
  exact List.mem_append_right _
    (List.mem_map_of_mem (message1_calls_init s.board request eng hstart))

/-- `main()` up to the return of `assign_static_ipv4`: the interface has its address. -/
def bootToAddress : List (Action Unit) :=
  [.ncmUsbdInit true false, .usbdEnable 0, .assignStaticIpv4 ⟨true, 0, 0, true⟩, .setNetmask]

/-- A message_1, and the handler's first two calls. -/
def earlyPost : List (Action Unit) :=
  [.deliver (.edhoc (edhocRequest [0xf5, 1]) willing), .makeCall, .makeCall]

/-- A message_1 that beats `psa_crypto_init`, or that comes after it failed. -/
theorem crypto_before_psa :
    ¬ NoCryptoBeforePsa ((system ()).run (bootToAddress ++ earlyPost)) ∧
      ¬ NoCryptoBeforePsa ((system ()).run
        (bootToAddress ++ [.psaCryptoInit (-1), .coapServerStart] ++ earlyPost)) := by
  constructor
  · intro h
    have := h (.contextInit 0, false) (List.mem_cons_of_mem _ List.mem_cons_self) rfl
    exact Bool.noConfusion this
  · intro h
    have := h (.contextInit 0, false) (List.mem_cons_of_mem _ List.mem_cons_self) rfl
    exact Bool.noConfusion this

end UsbNcmNet
