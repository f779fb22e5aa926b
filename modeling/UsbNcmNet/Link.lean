/-
The device and any number of clients over a link that cannot be trusted.

Whatever arrives at the device or at a client is up to the network: a datagram may
be lost, late, repeated, out of order or made up.  So a step hands arbitrary bytes
to one party, and what ties the parties together is only what the engine promises
about its process calls, stated in terms of what has really been sent.

A handshake has two contexts, one at each end, and its transcript is the pair of
them.  `Track` follows the device's calls one by one to know which transcript its
context belongs to, which message a reply carries, and on which transcripts
`derive_and_init_oscore` has gone through.  It is bookkeeping: no party reads it.
-/
import Mathlib.Logic.Relation
import UsbNcmNet.Board
import UsbNcmNet.Host.Client

namespace UsbNcmNet

variable {σ : Type}

/-- The client run and the device context (numbered from 1) that share a handshake. -/
structure Transcript where
  initiator : Nat
  responder : Nat
  deriving DecidableEq, Repr

/-- An EDHOC message, by where in which handshake it was composed. -/
inductive Message
  | message1 (initiator : Nat)
  | message2 (t : Transcript)
  | message3 (t : Transcript)
  | message4 (t : Transcript)
  deriving DecidableEq, Repr

/-! ### Following the device -/

structure Track where
  /-- How many contexts the device has initialised. -/
  contexts : Nat
  /-- The transcript of the current context, once it has accepted a message_1. -/
  pending : Option Transcript
  /-- The message composed for the reply under way. -/
  out : Option Message
  /-- The transcripts on which OSCORE was keyed, latest last. -/
  installed : List Transcript
  /-- Everything the parties have put on the wire. -/
  sent : List (Message × Bytes)
  deriving DecidableEq, Repr

def Track.boot : Track :=
  { contexts := 0, pending := none, out := none, installed := [], sent := [] }

/-- One call of the device; `i` is the client whose message_1 this is, if it accepts one. -/
def Track.call (i : Nat) (g : Track) : Call σ → Track
  | .edhocPost _ | .dispatchInner _ _ => { g with out := none }
  | .contextInit ret =>
      if ret = EDHOC_SUCCESS then { g with contexts := g.contexts + 1, pending := none } else g
  | .message1Process _ ret =>
      if ret = EDHOC_SUCCESS then { g with pending := some ⟨i, g.contexts⟩ } else g
  | .message2Compose ret =>
      if ret = EDHOC_SUCCESS then { g with out := g.pending.map .message2 } else g
  | .message4Compose ret =>
      if ret = EDHOC_SUCCESS then { g with out := g.pending.map .message4 } else g
  | .oscoreContextInit _ err _ =>
      if err = .ok then { g with installed := g.installed ++ g.pending.toList } else g
  | .contextDeinit => { g with pending := none }
  | .coapResourceSend (.packet p) =>
      { g with sent := g.sent ++ (g.out.map fun m => (m, p.payload)).toList }
  | _ => g

/-! ### What the engine promises -/

/-- What the two ends of one transcript export: one secret and salt, two identifiers. -/
structure SessionKeys where
  masterSecret : Bytes
  masterSalt : Bytes
  initiatorId : Bytes
  responderId : Bytes
  deriving DecidableEq, Repr

/-- The OSCORE parameters with the given identifiers. -/
def SessionKeys.params (k : SessionKeys) (sender recipient : Bytes) : OscoreInitParams where
  masterSecret := k.masterSecret
  senderId := sender
  recipientId := recipient
  idContext := []
  masterSalt := k.masterSalt
  aeadAlg := .aesCcm16_64_128
  hkdf := .sha256
  freshMasterSecretSalt := true

/-- The same keys seen from the other end. -/
def OscoreInitParams.swapped (p : OscoreInitParams) : OscoreInitParams :=
  { p with senderId := p.recipientId, recipientId := p.senderId }

/-- What a successful export leaves in the four buffers, each as long as it says. -/
structure SessionKeys.Exported (k : SessionKeys) (sender recipient : Bytes) (s : Export) :
    Prop where
  masterSecret : s.keys.masterSecret.toList = k.masterSecret
  masterSalt : s.keys.masterSalt.toList = k.masterSalt
  senderId : s.keys.senderId.toList.take s.senderIdLen = sender
  recipientId : s.keys.recipientId.toList.take s.recipientIdLen = recipient

/--
The calls of one request keep the engine's promises: a message is accepted only if
the peer sent it on this transcript, and the export is the transcript's.
-/
structure Promised (exporter : Transcript → SessionKeys) (g : Track) (i : Nat)
    (calls : List (Call σ)) : Prop where
  message1 : ∀ msg, .message1Process msg 0 ∈ calls → (.message1 i, msg) ∈ g.sent
  message3 : ∀ msg, .message3Process msg 0 ∈ calls →
    ∃ t, g.pending = some t ∧ (.message3 t, msg) ∈ g.sent
  exports : ∀ s t, .exportOscoreSession s ∈ calls → s.ret = EDHOC_SUCCESS → g.pending = some t →
    (exporter t).Exported (exporter t).initiatorId (exporter t).responderId s

/-! ### The world -/

/-- A client run and the transcript it is on, once it has sent its message_3. -/
structure ClientRun where
  phase : ClientPhase
  transcript : Option Transcript

structure World (σ : Type) where
  board : Board σ
  track : Track
  clients : Nat → ClientRun

def World.boot (ctx : σ) : World σ where
  board := (UsbNcmNet.board ctx).init
  track := Track.boot
  clients := fun _ => ⟨.idle, none⟩

/-- The device handles a request. -/
def World.request (w : World σ) (e : Event σ) (i : Nat) : World σ :=
  { w with board := w.board.step e, track := (w.board.newCalls e).foldl (Track.call i) w.track }

/-- Client `i` moves on to `c`, having POSTed `posted` as the message `m`. -/
def World.move (w : World σ) (i : Nat) (c : ClientRun) (m : Message) (posted : Option Framed) :
    World σ :=
  { w with
    clients := Function.update w.clients i c
    track := { w.track with
      sent := w.track.sent ++ (posted.map fun framed => (m, framed.msg)).toList } }

/-- One step of one party.  Nothing is asked of the bytes it receives. -/
inductive Step (exporter : Transcript → SessionKeys) : World σ → World σ → Prop
  | request {w : World σ} (e : Event σ) (i : Nat)
      (hpromised : Promised exporter w.track i (w.board.newCalls e)) :
      Step exporter w (w.request e i)
  | start {w : World σ} (i : Nat) (a : StartAnswers) (hphase : (w.clients i).phase = .idle) :
      Step exporter w (w.move i ⟨(clientStart a).1, none⟩ (.message1 i) (clientStart a).2)
  | message2 {w : World σ} (i r : Nat) (a : Message2Answers)
      (hphase : (w.clients i).phase = .awaiting2)
      (hprocess : ∀ resp, clientRecv a.recv = some resp → a.message2Process = EDHOC_SUCCESS →
        (.message2 ⟨i, r⟩, resp) ∈ w.track.sent) :
      Step exporter w (w.move i ⟨(clientMessage2 a).1, (clientMessage2 a).2.map fun _ => ⟨i, r⟩⟩
        (.message3 ⟨i, r⟩) (clientMessage2 a).2)
  | message4 {w : World σ} (i : Nat) (t : Transcript) (a : Message4Answers)
      (hphase : (w.clients i).phase = .awaiting4)
      (htranscript : (w.clients i).transcript = some t)
      (hprocess : ∀ resp, clientRecv a.recv = some resp → a.message4Process = EDHOC_SUCCESS →
        (.message4 t, resp) ∈ w.track.sent)
      (hexport : a.exportOscoreSession.ret = EDHOC_SUCCESS →
        (exporter t).Exported (exporter t).responderId (exporter t).initiatorId
          a.exportOscoreSession) :
      Step exporter w (w.move i ⟨clientMessage4 a, some t⟩ (.message4 t) none)

/-- The worlds that can come about from power-on. -/
def Reachable (exporter : Transcript → SessionKeys) (ctx : σ) : World σ → Prop :=
  Relation.ReflTransGen (Step exporter) (World.boot ctx)

end UsbNcmNet
