/-
Who sets the LED.

A ledger goes along with the device, its clients and the network, and notes for every
PUT that is acknowledged where the request came from: in the clear, or out of a message
that a client protected.  The ledger changes nothing; every state of the system has one.

What it shows is that the LED is in nobody else's hands.  It is what the last entry
says, each entry is what its request asked for, and a protected request makes at most
one, however often the network repeats it.
-/
import UsbNcmNet.Proofs.Protected

namespace UsbNcmNet

open Trace

variable {σ : Type} {exporter : Transcript → SessionKeys}

/-! ### The ledger -/

/-- Where a request that reached the dispatcher came from. -/
inductive Origin
  | clear (request : Request)
  | sealed (x : Sealed)
  deriving DecidableEq, Repr

def Origin.request : Origin → Request
  | .clear request => request
  | .sealed x => x.request

def Origin.inClear : Origin → Option Request
  | .clear request => some request
  | .sealed _ => none

def Origin.inMessage : Origin → Option Sealed
  | .clear _ => none
  | .sealed x => some x

/-- The origin of what an event brings, where `m` is the message accepted in its course. -/
def Event.origin (m : Option Sealed) : Event σ → Option Origin
  | .edhoc _ _ => none
  | .oscore _ => m.map .sealed
  | .app request _ _ => some (.clear request)

structure Ledger (σ : Type) where
  secure : Secure σ
  /-- The requests handled in the clear. -/
  clear : List Request
  /-- The acknowledged PUTs, with the value each wrote. -/
  writes : List (Origin × Bool)

def Ledger.boot (ctx : σ) : Ledger σ where
  secure := Secure.boot ctx
  clear := []
  writes := []

/-- The entry an event makes. -/
def Board.entry (b : Board σ) (e : Event σ) (m : Option Sealed) : Option (Origin × Bool) := do
  let v ← latest ledWrite (b.dispatches e)
  let origin ← e.origin m
  return (origin, v)

def Ledger.request (l : Ledger σ) (e : Event σ) (i : Nat) (m : Option Sealed) : Ledger σ where
  secure := l.secure.request e i m
  clear := l.clear ++ ((e.origin m).bind Origin.inClear).toList
  writes := l.writes ++ (l.secure.world.board.entry e m).toList

inductive LedgerStep (exporter : Transcript → SessionKeys) : Ledger σ → Ledger σ → Prop
  /-- A client moves on, or protects a request. -/
  | client {l : Ledger σ} {s : Secure σ} (hstep : SecureStep exporter l.secure s)
      (hboard : s.world.board = l.secure.world.board) (haccepted : s.accepted = l.secure.accepted) :
      LedgerStep exporter l { l with secure := s }
  | request {l : Ledger σ} (e : Event σ) (i : Nat) (m : Option Sealed)
      (hpromised : Promised exporter l.secure.world.track i (l.secure.world.board.newCalls e))
      (hopens : Opens l.secure e m) : LedgerStep exporter l (l.request e i m)

def LedgerReachable (exporter : Transcript → SessionKeys) (ctx : σ) : Ledger σ → Prop :=
  Relation.ReflTransGen (LedgerStep exporter) (Ledger.boot ctx)

/-- The ledger leaves the system alone. -/
theorem secure_of_ledger {ctx : σ} {l : Ledger σ} (h : LedgerReachable exporter ctx l) :
    SecureReachable exporter ctx l.secure := by
  induction h with
  | refl => exact .refl
  | tail _ hstep ih =>
      cases hstep with
      | client hstep _ _ => exact ih.tail hstep
      | request e i m hpromised hopens => exact ih.tail (.request e i m hpromised hopens)

/-- And every state of the system has one. -/
theorem ledger_of_secure {ctx : σ} {s : Secure σ} (h : SecureReachable exporter ctx s) :
    ∃ l, LedgerReachable exporter ctx l ∧ l.secure = s := by
  induction h with
  | refl => exact ⟨Ledger.boot ctx, .refl, rfl⟩
  | tail _ hstep ih =>
      obtain ⟨l, hl, rfl⟩ := ih
      cases hstep with
      | client hstep hboard =>
          exact ⟨_, hl.tail (.client (.client hstep hboard) hboard rfl), rfl⟩
      | request e i m hpromised hopens =>
          exact ⟨_, hl.tail (.request e i m hpromised hopens), rfl⟩
      | protect i session request hphase =>
          exact ⟨_, hl.tail (.client (.protect i session request hphase) rfl rfl), rfl⟩

/-! ### One step -/

/-- What a request that reaches the dispatcher came out of. -/
theorem origin_of_inner {s : Secure σ} {e : Event σ} {m : Option Sealed} (h : Opens s e m)
    {request : Request} (hinner : e.inner s.world.board = some request) :
    ∃ origin, e.origin m = some origin ∧ origin.request = request := by
  cases e with
  | edhoc _ _ => simp [Event.inner] at hinner
  | app request' _ _ => exact ⟨.clear request', rfl, Option.some.inj hinner⟩
  | oscore osc =>
      obtain ⟨hopens, hok⟩ := opens_of_inner hinner
      have hsome := h.accepted
      rw [hopens] at hsome
      obtain ⟨x, rfl⟩ := Option.isSome_iff_exists.mp hsome
      exact ⟨.sealed x, rfl, (h.inner x osc request rfl rfl hok).symm⟩

/-- The entry a request makes: what it asks for, if it does, under where it came from. -/
theorem entry_eq {b : Board σ} {e : Event σ} {request : Request} (m : Option Sealed)
    (hinner : e.inner b = some request) :
    b.entry e m = (do
      let v ← request.write
      let origin ← e.origin m
      return (origin, v)) := by
  have hran := inner_ran b e
  rw [hinner] at hran
  cases hran with
  | dispatched hone hran =>
      rw [Board.entry, hone, latest_cons, latest_nil, Option.none_or, hran.ledWrite_eq]

/-- An event makes an entry and sets the LED as it says, or does neither. -/
theorem entry_ran {s : Secure σ} {e : Event σ} {m : Option Sealed} (h : Opens s e m) :
    (s.world.board.entry e m = none ∧
      (s.world.board.step e).dev.led.state = s.world.board.dev.led.state) ∨
    ∃ origin v, s.world.board.entry e m = some (origin, v) ∧ e.origin m = some origin ∧
      origin.request.write = some v ∧ (s.world.board.step e).dev.led.state = v := by
  have hran := inner_ran s.world.board e
  generalize hinner : e.inner s.world.board = reached at hran
  cases hran with
  | turnedAway hnone hled =>
      rw [Board.entry, hnone, hled]
      exact .inl ⟨rfl, rfl⟩
  | @dispatched request p hone hran =>
      obtain ⟨origin, horigin, hrequest⟩ := origin_of_inner h hinner
      have hstate := hran.state
      rw [hran.ledWrite_eq] at hstate
      rw [entry_eq m hinner, hstate, horigin]
      cases hwrite : request.write with
      | none => exact .inl ⟨rfl, rfl⟩
      | some v => exact .inr ⟨origin, v, rfl, rfl, by rw [hrequest, hwrite], rfl⟩

/-- What the ledger says about the LED, the requests and the messages. -/
structure LedgerInv (l : Ledger σ) : Prop where
  state : l.secure.world.board.dev.led.state = (l.writes.getLast?.map Prod.snd).getD false
  asked : ∀ w ∈ l.writes, w.1.request.write = some w.2
  clear : (l.writes.filterMap fun w => w.1.inClear).Sublist l.clear
  accepted : (l.writes.filterMap fun w => w.1.inMessage).Sublist l.secure.accepted

theorem ledgerInv_boot (ctx : σ) : LedgerInv (Ledger.boot ctx) where
  state := rfl
  asked _ h := absurd h List.not_mem_nil
  clear := List.Sublist.slnil
  accepted := List.Sublist.slnil

theorem ledgerInv_step {l l' : Ledger σ} (h : LedgerInv l) (hstep : LedgerStep exporter l l') :
    LedgerInv l' := by
  cases hstep with
  | client hstep hboard haccepted =>
      refine ⟨?_, h.asked, h.clear, ?_⟩
      · rw [hboard]
        exact h.state
      · rw [haccepted]
        exact h.accepted
  | request e i m hpromised hopens =>
      rcases entry_ran hopens with ⟨hnone, hled⟩ | ⟨origin, v, hsome, horigin, hwrite, hled⟩
      · have hwrites : (l.request e i m).writes = l.writes := by
          simp [Ledger.request, hnone]
        refine ⟨?_, ?_, ?_, ?_⟩
        · rw [hwrites, ← h.state]
          exact hled
        · rw [hwrites]
          exact h.asked
        · rw [hwrites]
          exact h.clear.trans (List.sublist_append_left _ _)
        · rw [hwrites]
          exact h.accepted.trans (List.sublist_append_left _ _)
      · have hwrites : (l.request e i m).writes = l.writes ++ [(origin, v)] := by
          simp [Ledger.request, hsome]
        refine ⟨?_, ?_, ?_, ?_⟩
        · rw [hwrites, List.getLast?_concat]
          exact hled
        · rw [hwrites]
          intro w hw
          rcases List.mem_append.mp hw with hw | hw
          · exact h.asked w hw
          · rw [List.mem_singleton.mp hw]
            exact hwrite
        · rw [hwrites, List.filterMap_append]
          refine h.clear.append ?_
          rw [horigin]
          cases origin with
          | clear request => exact List.Sublist.refl _
          | sealed x => exact List.Sublist.refl _
        · rw [hwrites, List.filterMap_append]
          refine h.accepted.append ?_
          cases origin with
          | clear request => exact List.nil_sublist _
          | sealed x =>
              -- what was accepted is what the entry names
              have hm : m = some x := by
                cases e with
                | edhoc _ _ => simp [Event.origin] at horigin
                | app _ _ _ => simp [Event.origin] at horigin
                | oscore osc => simpa [Event.origin] using horigin
              rw [hm]
              exact List.Sublist.refl _

/--
**The LED is in the hands of those who may set it.**  In every state of the device, its
clients and a network that repeats what it likes, the LED is what the last entry of the
ledger says; each entry is what its request asked for; the entries made in the clear are,
in order, among the requests handled in the clear; and the others come from messages
that are all different, each protected by a client that has a session on a transcript
the device installed.
-/
theorem led_integrity (exporter : Transcript → SessionKeys) (ctx : σ) (l : Ledger σ)
    (h : LedgerReachable exporter ctx l) (hdiffer : SecretsDiffer exporter l.secure) :
    l.secure.world.board.dev.led.state = (l.writes.getLast?.map Prod.snd).getD false ∧
    (∀ w ∈ l.writes, w.1.request.write = some w.2) ∧
    (l.writes.filterMap fun w => w.1.inClear).Sublist l.clear ∧
    ((l.writes.filterMap fun w => w.1.inMessage).map Sealed.key).Nodup ∧
    ∀ w ∈ l.writes, ∀ x, w.1 = .sealed x → x ∈ l.secure.sealed ∧
      (l.secure.world.clients x.initiator).phase = .complete (some x.session) ∧
      ∃ t ∈ l.secure.world.track.installed,
        (l.secure.world.clients x.initiator).transcript = some t := by
  have hreach := secure_of_ledger h
  have hsecure := secureInv_reachable hreach hdiffer
  have hinv : LedgerInv l := by
    clear hreach hsecure hdiffer
    induction h with
    | refl => exact ledgerInv_boot ctx
    | tail _ hstep ih => exact ledgerInv_step ih hstep
  refine ⟨hinv.state, hinv.asked, hinv.clear, hsecure.once.sublist (hinv.accepted.map _), ?_⟩
  intro w hw x hx
  have hmem : x ∈ l.secure.accepted := by
    refine hinv.accepted.subset (List.mem_filterMap.mpr ⟨w, hw, ?_⟩)
    rw [hx]
    rfl
  have hsealed := hsecure.accepted x hmem
  obtain ⟨t, ht, hinstalled, -⟩ := (agreement_reachable (world_reachable hreach)).passed
    x.initiator (some x.session) (hsecure.owner x hsealed)
  exact ⟨hsealed, hsecure.owner x hsealed, t, hinstalled, ht⟩

/-! ### A PUT by each route -/

/-- A handshake makes no entry. -/
theorem ledger_of_handshake {s s' : Secure σ}
    (hrun : Relation.ReflTransGen (SecureHandshake exporter) s s') (l : Ledger σ)
    (hl : l.secure = s) :
    ∃ l', Relation.ReflTransGen (LedgerStep exporter) l l' ∧ l'.secure = s' ∧
      l'.writes = l.writes := by
  induction hrun with
  | refl => exact ⟨l, .refl, hl, rfl⟩
  | tail _ hstep ih =>
      obtain ⟨l', hrun', rfl, hwrites⟩ := ih
      cases hstep with
      | client hstep hboard =>
          exact ⟨_, hrun'.tail (.client (.client hstep hboard) hboard rfl), rfl, hwrites⟩
      | edhoc request eng i hpromised =>
          have hopens := opens_edhoc l'.secure request eng
          refine ⟨_, hrun'.tail (.request _ i none hpromised hopens), rfl, ?_⟩
          have hnone : l'.secure.world.board.entry (.edhoc request eng) none = none := by
            unfold Board.entry
            cases latest ledWrite _ <;> rfl
          show l'.writes ++ _ = _
          rw [hnone, hwrites]
          exact List.append_nil _

/-- A request in the clear can always come, and is entered if it writes. -/
theorem ledger_clear (exporter : Transcript → SessionKeys) (l : Ledger σ) (request : Request)
    (gpio send : Int) :
    ∃ l', LedgerStep exporter l l' ∧ l'.secure.sealed = l.secure.sealed ∧
      l'.secure.world.track = { l.secure.world.track with out := none } ∧
      l'.secure.world.clients = l.secure.world.clients ∧
      l'.writes = l.writes ++ (request.write.map fun v => (Origin.clear request, v)).toList := by
  let e : Event σ := .app request gpio send
  obtain ⟨code, payload, led, -, -, hbuild⟩ := dispatch_ack gpio request l.secure.world.board.dev.led
  have hcalls : l.secure.world.board.newCalls e = _ :=
    newCalls_eq (congrArg (fun r => r.2.log) (appRequest_exec send hbuild))
  have hpromised : Promised exporter l.secure.world.track 0 (l.secure.world.board.newCalls e) := by
    rw [hcalls]
    exact promised_of_serves (by simp [Call.serves])
  have hopens : Opens l.secure e none := by
    refine ⟨?_, by simp, by simp, by simp⟩
    rw [hcalls]
    rfl
  refine ⟨l.request e 0 none, .request e 0 none hpromised hopens, rfl, ?_, rfl, ?_⟩
  · show (l.secure.world.board.newCalls e).foldl (Track.call 0) l.secure.world.track = _
    rw [hcalls]
    simp [Track.call]
  · show l.writes ++ (l.secure.world.board.entry e none).toList = _
    rw [entry_eq none rfl]
    cases request.write <;> rfl

/-- A client that is connected can have a request served, which is entered if it writes. -/
theorem ledger_sealed (exporter : Transcript → SessionKeys) {lib : Uoscore σ} {l : Ledger σ}
    {i : Nat} {session : OscoreInitParams} (h : Connected lib l.secure i session)
    (request : Request) (gpio : Int) :
    ∃ l', Relation.ReflTransGen (LedgerStep exporter) l l' ∧
      l'.secure.world.track.installed = l.secure.world.track.installed ∧
      l'.writes = l.writes ++ (request.write.map fun v =>
        (Origin.sealed (l.secure.next i session request), v)).toList := by
  let e : Event σ := .oscore (lib.taking request gpio l.secure.world.board.dev.oscoreCtx)
  let x := l.secure.next i session request
  let l₁ : Ledger σ := { l with secure := l.secure.seal i session request }
  obtain ⟨code, payload, led, -, -, hbuild⟩ := dispatch_ack gpio request l.secure.world.board.dev.led
  have hcalls : l.secure.world.board.newCalls e = _ :=
    newCalls_eq (congrArg Board.log (taking_served l.secure.world.board h.ready hbuild))
  have hpromised : Promised exporter l.secure.world.track i (l.secure.world.board.newCalls e) := by
    rw [hcalls]
    exact promised_of_serves (Turn.serves _)
  have hinner : e.inner l.secure.world.board = some request := by
    show (if l.secure.world.board.dev.oscoreReady = true ∧ _ then some request else none) = _
    rw [if_pos ⟨h.ready, .inl rfl⟩]
  refine ⟨l₁.request e i (some x),
    .tail (.tail .refl (.client (.protect i session request h.phase) rfl rfl))
      (.request e i (some x) hpromised (h.opens request gpio)), ?_, ?_⟩
  · show ((l.secure.world.board.newCalls e).foldl (Track.call i) l.secure.world.track).installed = _
    rw [hcalls]
    rfl
  · show l.writes ++ (l.secure.world.board.entry e (some x)).toList = _
    rw [entry_eq (some x) hinner]
    cases request.write <;> rfl

/-- The LED turned on in the clear, and off by the first request of a client. -/
theorem led_integrity_two_routes :
    let on := requestTo COAP_METHOD_PUT ledPath (some (ascii ['1']))
    let off := requestTo COAP_METHOD_PUT ledPath (some (ascii ['0']))
    ∃ (l : Ledger (Option OscoreInitParams × UInt8)) (x : Sealed),
      LedgerReachable ownKeys (none, 0) l ∧ x.key = (0, 0) ∧ x.request = off ∧
      l.writes = [(.clear on, true), (.sealed x, false)] ∧
      l.secure.world.board.dev.led.state = false ∧
      (∀ w ∈ l.writes, w.1.request.write = some w.2) ∧ [on].Sublist l.clear ∧
      ((l.writes.filterMap fun w => w.1.inMessage).map Sealed.key).Nodup ∧ x ∈ l.secure.sealed ∧
      (l.secure.world.clients 0).phase = .complete (some x.session) ∧
      ∃ t ∈ l.secure.world.track.installed, (l.secure.world.clients 0).transcript = some t := by
  intro on off
  obtain ⟨l₁, hstep₁, hsealed₁, htrack₁, hclients₁, hwrites₁⟩ :=
    ledger_clear ownKeys (Ledger.boot ((none, 0) : Option OscoreInitParams × UInt8)) on 0 0
  have hidle : (l₁.secure.world.clients 0).phase = .idle := by
    rw [hclients₁]
    rfl
  obtain ⟨s, session, hrun, hconnected, huntouched, hinstalled, -, -⟩ :=
    gets_connected tagging ownKeys_sized l₁.secure 0 hidle
  obtain ⟨l₂, hrun₂, rfl, hwrites₂⟩ := ledger_of_handshake hrun l₁ rfl
  obtain ⟨l₃, hrun₃, hinstalled₃, hwrites₃⟩ := ledger_sealed ownKeys hconnected off 0
  let x := l₂.secure.next 0 session off
  have hwrites : l₃.writes = [(.clear on, true), (.sealed x, false)] := by
    rw [hwrites₃, hwrites₂, hwrites₁]
    rfl
  have hdiffer : SecretsDiffer ownKeys l₃.secure := by
    unfold SecretsDiffer
    rw [hinstalled₃, hinstalled, htrack₁]
    exact List.nodup_singleton _
  have hreach : LedgerReachable ownKeys (none, 0) l₃ :=
    ((Relation.ReflTransGen.single hstep₁).trans hrun₂).trans hrun₃
  obtain ⟨hstate, hasked, hclear, honce, hsealed⟩ :=
    led_integrity ownKeys (none, 0) l₃ hreach hdiffer
  obtain ⟨hmem, hphase, htranscript⟩ := hsealed (.sealed x, false) (by simp [hwrites]) x rfl
  rw [hwrites] at hstate hclear
  refine ⟨l₃, x, hreach, ?_, rfl, hwrites, hstate, hasked, hclear, honce, hmem, hphase,
    htranscript⟩
  show (0, l₂.secure.count 0) = (0, 0)
  rw [Secure.count, huntouched.sealed, hsealed₁]
  rfl

end UsbNcmNet
