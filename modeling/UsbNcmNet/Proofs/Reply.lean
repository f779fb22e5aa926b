/-
Whether a session and its message_4 come together.

`derive_and_init_oscore` sets `oscore_ready` inside the critical section; the
reply that carries message_4 is built after it, in a buffer of the same 256 bytes
as the one message_4 was composed into.  Header, token and payload marker have to
fit there too.  When they do not, the handler gives up with the flag set: the
device has a session whose last message the client never gets.
-/
import UsbNcmNet.Proofs.Board
import UsbNcmNet.Proofs.Packet

namespace UsbNcmNet

variable {σ : Type}

/-! ### Building the reply -/

/-- The 2.04 reply with its payload in place. -/
def edhocPacket (request : Request) (out : Bytes) : Packet :=
  ackPacket EDHOC_MSG_MAX request COAP_RESPONSE_CODE_CHANGED out

/-- The reply fits in the response buffer. -/
abbrev ReplyFits (request : Request) (out : Bytes) : Prop := PayloadFits EDHOC_MSG_MAX request out

theorem edhocResponse_eq (request : Request) (out : Bytes) :
    edhocResponse request out =
      if ReplyFits request out then .ok (edhocPacket request out) else .error (-EINVAL) := by
  unfold edhocResponse edhocPacket
  rw [coapPacketInit_ack (by decide)]
  by_cases hout : out = []
  · subst hout
    simp [PayloadFits, bind, Except.bind, pure, Except.pure]
  · have hpos : 0 < out.length := List.length_pos_iff.mpr hout
    rw [← coapPacketAppend_ack _ _ _ hout]
    simp [hpos, bind, Except.bind]

/-! ### A message_3 POST -/

/-- Every library call of the message_3 half succeeds. -/
def Engine.Completes (eng : Engine σ) : Prop :=
  eng.message3Process = 0 ∧ eng.message4Compose.ret = 0 ∧ eng.exportOscoreSession.ret = 0 ∧
    eng.oscoreContextInit.1 = .ok

/-- If the message_3 is going to key the device, its reply fits. -/
def RoomForMessage4 (b : Board σ) (request : Request) (eng : Engine σ) : Prop :=
  b.dev.edhocCtxActive = true → eng.Completes → ReplyFits request eng.message4Compose.out

/-- A failure before `coap_resource_send` leaves the device without a session. -/
def FailsUnready (b : Board σ) (request : Request) (eng : Engine σ) : Prop :=
  b.ret (.edhoc request eng) < 0 →
    (∀ pkt, Call.coapResourceSend pkt ∉ b.newCalls (.edhoc request eng)) →
    (b.step (.edhoc request eng)).dev.oscoreReady = false

/-- A session that is set up has its reply, the whole message_4 in it, handed over for sending. -/
def ReadyWithReply (b : Board σ) (request : Request) (eng : Engine σ) : Prop :=
  (b.step (.edhoc request eng)).dev.oscoreReady = true →
    (edhocPacket request eng.message4Compose.out).data.length ≤ EDHOC_MSG_MAX ∧
      Call.coapResourceSend (.packet (edhocPacket request eng.message4Compose.out))
        ∈ b.newCalls (.edhoc request eng)

/-- The ways a message_3 POST can leave a device that had no session, as far as the reply goes. -/
inductive Message3Outcome (b : Board σ) (request : Request) (eng : Engine σ) : Prop
  | unready (hnot : ¬ (b.dev.edhocCtxActive = true ∧ eng.Completes))
      (hready : (b.step (.edhoc request eng)).dev.oscoreReady = false)
  | noRoom (hactive : b.dev.edhocCtxActive = true) (hcomp : eng.Completes)
      (hready : (b.step (.edhoc request eng)).dev.oscoreReady = true)
      (hfits : ¬ ReplyFits request eng.message4Compose.out)
      (hret : b.ret (.edhoc request eng) < 0)
      (hsend : ∀ pkt, Call.coapResourceSend pkt ∉ b.newCalls (.edhoc request eng))
  | sent (hfits : ReplyFits request eng.message4Compose.out)
      (hsend : Call.coapResourceSend (.packet (edhocPacket request eng.message4Compose.out))
        ∈ b.newCalls (.edhoc request eng))

theorem message3_outcome {b : Board σ} {request : Request} (eng : Engine σ) {msg : Bytes}
    (hnot : b.dev.oscoreReady = false)
    (hframe : edhocDeframe request.payload = .ok (.message3 msg)) :
    Message3Outcome b request eng := by
  have hran := edhocPost_ran eng request b
  generalize hr : b.ret (.edhoc request eng) = r, hb : b.step (.edhoc request eng) = b' at hran
  cases hran with
  | rejected hframe' => rw [hframe'] at hframe; simp at hframe
  | message1 hframe' _ _ => rw [hframe'] at hframe; simp at hframe
  | message3 _ hran hreply =>
      rcases hran.failed_or_keyed with hfail | hkeyed
      · exact .unready hfail.cause (by rw [hb]; exact hfail.ready.trans hnot)
      · obtain ⟨hactive, hm3, hm4, hexp, hctx, hrc, rfl, rfl, rfl⟩ := hkeyed
        cases hreply with
        | failed hne => exact absurd hrc hne
        | noRoom _ hbuild =>
            rw [edhocResponse_eq] at hbuild
            split at hbuild
            · simp at hbuild
            · rename_i hfits
              refine .noRoom hactive ⟨hm3, hm4, hexp, hctx⟩ (by rw [hb]) hfits ?_ ?_
              · rw [hr, ← Except.error.inj hbuild]; decide
              · intro pkt
                simp [Board.newCalls, hb]
        | sent _ hbuild =>
            rw [edhocResponse_eq] at hbuild
            split at hbuild
            · rename_i hfits
              refine .sent hfits ?_
              rw [← Except.ok.inj hbuild] at hb
              simp [Board.newCalls, hb]
            · simp at hbuild

/--
**A session comes with its message_4 exactly when the reply fits.**  Both
readings of the property fail on the same POSTs: those that key the device with a
message_4 that the response buffer has no room for.
-/
theorem ready_with_reply_iff_room (b : Board σ) (request : Request) (eng : Engine σ) (msg : Bytes)
    (hnot : b.dev.oscoreReady = false)
    (hframe : edhocDeframe request.payload = .ok (.message3 msg)) :
    (FailsUnready b request eng ↔ RoomForMessage4 b request eng) ∧
      (ReadyWithReply b request eng ↔ RoomForMessage4 b request eng) := by
  cases message3_outcome eng hnot hframe with
  | unready hnot hready =>
      have hroom : RoomForMessage4 b request eng := fun ha hc => absurd ⟨ha, hc⟩ hnot
      refine ⟨iff_of_true (fun _ _ => hready) hroom, iff_of_true ?_ hroom⟩
      intro hc
      rw [hready] at hc
      exact Bool.noConfusion hc
  | noRoom hactive hcomp hready hfits hret hsend =>
      have hroom : ¬ RoomForMessage4 b request eng := fun h => hfits (h hactive hcomp)
      refine ⟨iff_of_false ?_ hroom, iff_of_false ?_ hroom⟩
      · intro h
        rw [h hret hsend] at hready
        exact Bool.noConfusion hready
      · intro h
        exact hsend _ (h hready).2
  | sent hfits hsend =>
      have hroom : RoomForMessage4 b request eng := fun _ _ => hfits
      refine ⟨iff_of_true ?_ hroom, iff_of_true ?_ hroom⟩
      · intro _ hno
        exact absurd hsend (hno _)
      · intro _
        exact ⟨ackPacket_fits (by decide) hfits, hsend⟩

/-! ### At the boundary -/

/-- A board with a handshake pending. -/
def pendingBoard : Board Unit := (board ()).run [.edhoc (edhocRequest [0xf5, 1]) willing]

def message3Request : Request := edhocRequest [cidToCbor edCRInt.val, 3]

/-- Libraries whose message_4 has the given length. -/
def longMessage4 (n : Nat) : Engine Unit :=
  { willing with message4Compose := ⟨0, List.replicate n 4⟩ }

theorem longMessage4_fits (n : Nat) :
    ReplyFits message3Request (longMessage4 n).message4Compose.out ↔ n ≤ 251 := by
  simp [PayloadFits, longMessage4, message3Request, edhocRequest, EDHOC_MSG_MAX]
  omega

theorem ready_with_reply_at_251 :
    pendingBoard.dev.oscoreReady = false ∧
      edhocDeframe message3Request.payload = .ok (.message3 [3]) ∧
      FailsUnready pendingBoard message3Request (longMessage4 251) ∧
      ReadyWithReply pendingBoard message3Request (longMessage4 251) := by
  have h := ready_with_reply_iff_room pendingBoard message3Request (longMessage4 251) [3] rfl rfl
  have hroom : RoomForMessage4 pendingBoard message3Request (longMessage4 251) :=
    fun _ _ => (longMessage4_fits 251).mpr (by omega)
  exact ⟨rfl, rfl, h.1.mpr hroom, h.2.mpr hroom⟩

/-- One byte more, and the device is ready while its message_4 is dropped. -/
theorem ready_without_reply_at_252 :
    pendingBoard.dev.oscoreReady = false ∧
      edhocDeframe message3Request.payload = .ok (.message3 [3]) ∧
      (longMessage4 252).message4Compose.out.length ≤ EDHOC_MSG_MAX ∧
      ¬ FailsUnready pendingBoard message3Request (longMessage4 252) ∧
      ¬ ReadyWithReply pendingBoard message3Request (longMessage4 252) := by
  refine ⟨rfl, rfl, ?_, ?_⟩
  · simp only [longMessage4, List.length_replicate]
    decide
  have hout : Message3Outcome pendingBoard message3Request (longMessage4 252) :=
    message3_outcome _ rfl rfl
  cases hout with
  | unready hnot _ => exact absurd ⟨rfl, rfl, rfl, rfl, rfl⟩ hnot
  | sent hfits _ =>
      rw [longMessage4_fits] at hfits
      omega
  | noRoom _ _ hready _ hret hsend =>
      refine ⟨?_, fun h => hsend _ (h hready).2⟩
      intro h
      rw [h hret hsend] at hready
      exact Bool.noConfusion hready

end UsbNcmNet
