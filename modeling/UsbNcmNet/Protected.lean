/-
Protected requests on the link.

A client that is through protects its requests with `coap2oscore`, under its session
and with a sender sequence number that it never uses again.  What the network makes of
the datagrams is up to it, as before; what ties a request that the device serves to one
that a client protected is only what uoscore promises about `oscore2coap`: that it
accepts a message only if someone protected it under the keys of its context, and not
twice while the context lives.  The second promise starts over whenever a context is
initialised, for that is where the replay window is.

`window`, `accepted` and `served` are bookkeeping, like the `Track` of the link.
-/
import UsbNcmNet.Proofs.Identifiers
import UsbNcmNet.Proofs.Led
import UsbNcmNet.Link

namespace UsbNcmNet

open Trace

variable {σ : Type}

/-- A request as a client protected it: under which session, as which of its requests. -/
structure Sealed where
  initiator : Nat
  session : OscoreInitParams
  number : Nat
  request : Request
  deriving DecidableEq, Repr

/-- What makes it one of a kind. -/
def Sealed.key (x : Sealed) : Nat × Nat := (x.initiator, x.number)

structure Secure (σ : Type) where
  world : World σ
  /-- What the clients have protected. -/
  sealed : List Sealed
  /-- The numbers accepted since the context was last initialised. -/
  window : List Nat
  /-- What the device has accepted, since boot. -/
  accepted : List Sealed
  /-- The inner requests it has dispatched, since boot. -/
  served : List Request

def Secure.boot (ctx : σ) : Secure σ where
  world := World.boot ctx
  sealed := []
  window := []
  accepted := []
  served := []

/-! ### What uoscore promises -/

/-- `oscore_post` goes on with a message after this. -/
def Err.accepts : Err → Bool
  | .ok | .firstRequestAfterReboot => true
  | _ => false

/-- A message is accepted. -/
def Call.opens : Call σ → Bool
  | .oscore2coap err _ => err.accepts
  | _ => false

/-- `m` is the message that is accepted in the course of the request `e`, if one is. -/
structure Opens (s : Secure σ) (e : Event σ) (m : Option Sealed) : Prop where
  accepted : m.isSome = (s.world.board.newCalls e).any Call.opens
  /-- Someone protected it, with the identifiers of the context the other way round. -/
  authentic : ∀ x, m = some x → x ∈ s.sealed ∧
    ∃ params, latest Call.keyedWith s.world.board.log = some params ∧ x.session = params.swapped
  unseen : ∀ x, m = some x → x.number ∉ s.window
  /-- What comes out is what went in. -/
  inner : ∀ x osc request, m = some x → e = .oscore osc → osc.inner = .ok request →
    request = x.request

/-! ### Steps -/

/-- Initialising a context empties its replay window. -/
def windowCall (window : List Nat) : Call σ → List Nat
  | .oscoreContextInit _ err _ => if err = .ok then [] else window
  | _ => window

/-- The requests dispatched from inside a protected one. -/
def Event.opened (b : Board σ) (e : Event σ) : List Request :=
  match e with
  | .oscore osc => (b.dispatches (.oscore osc)).map Prod.fst
  | _ => []

/-- The device handles a request, in the course of which `m` is accepted. -/
def Secure.request (s : Secure σ) (e : Event σ) (i : Nat) (m : Option Sealed) : Secure σ where
  world := s.world.request e i
  sealed := s.sealed
  window := m.toList.map Sealed.number ++ (s.world.board.newCalls e).foldl windowCall s.window
  accepted := s.accepted ++ m.toList
  served := s.served ++ e.opened s.world.board

/-- How many requests a client has protected. -/
def Secure.count (s : Secure σ) (i : Nat) : Nat := s.sealed.countP fun x => x.initiator = i

inductive SecureStep (exporter : Transcript → SessionKeys) : Secure σ → Secure σ → Prop
  /-- A client takes a step of its handshake. -/
  | client {s : Secure σ} {w : World σ} (hstep : Step exporter s.world w)
      (hboard : w.board = s.world.board) : SecureStep exporter s { s with world := w }
  | request {s : Secure σ} (e : Event σ) (i : Nat) (m : Option Sealed)
      (hpromised : Promised exporter s.world.track i (s.world.board.newCalls e))
      (hopens : Opens s e m) : SecureStep exporter s (s.request e i m)
  /-- A client that has a session protects its next request. -/
  | protect {s : Secure σ} (i : Nat) (session : OscoreInitParams) (request : Request)
      (hphase : (s.world.clients i).phase = .complete (some session)) :
      SecureStep exporter s
        { s with sealed := s.sealed ++ [⟨i, session, s.count i, request⟩] }

/-- What can come about from power-on. -/
def SecureReachable (exporter : Transcript → SessionKeys) (ctx : σ) : Secure σ → Prop :=
  Relation.ReflTransGen (SecureStep exporter) (Secure.boot ctx)

end UsbNcmNet
