/-
One answer to each request.

A CoAP client that gets no reply tries again, and one that gets two is confused.  What
the handlers owe it is one reply, made for its request, or none and an error for the
service to act on.  `OneReply` says what the first of these means on the wire: the
packet is the last thing the handler does, it fits in the buffer, and what is sent reads
back as an acknowledgement of the request.
-/
import UsbNcmNet.Proofs.Datagram
import UsbNcmNet.Proofs.Threads

namespace UsbNcmNet

variable {σ : Type}

/-! ### Answers -/

/-- Nothing is sent, and the service is told so. -/
structure Refused (b : Board σ) (e : Event σ) : Prop where
  ret : b.ret e = -EINVAL ∨ b.ret e = -EBADMSG
  silent : (b.newCalls e).filterMap Call.outgoing = []

/-- One packet is sent, and it is an acknowledgement of the request. -/
structure OneReply (b : Board σ) (e : Event σ) (request : Request) (send : Int) (code : UInt8)
    (payload : Bytes) : Prop where
  /-- The handler returns what the transport says. -/
  ret : b.ret e = send
  reply : ∃ p cs, b.newCalls e = cs ++ [.coapResourceSend (.packet p)] ∧
    cs.filterMap Call.outgoing = [] ∧ p.data.length ≤ 256 ∧
    Rfc7252.decode p.data = some (replyMessage request code payload)

theorem outgoing_guarded {cs : List (Call σ)} (h : ∀ c ∈ cs, c.guarded = true) :
    cs.filterMap Call.outgoing = [] := by
  rw [List.filterMap_eq_nil_iff]
  intro c hc
  have hg := h c hc
  cases c with
  | coapResourceSend out => exact Bool.noConfusion hg
  | _ => rfl

/-- A finished acknowledgement in a buffer of 256 bytes, behind calls that send nothing. -/
theorem oneReply_ackPacket {b : Board σ} {e : Event σ} {request : Request} {send : Int}
    {code : UInt8} {payload : Bytes} {cs : List (Call σ)} (hcode : code ≠ 0)
    (hfits : PayloadFits 256 request payload) (hret : b.ret e = send)
    (hcalls : b.newCalls e = cs ++ [.coapResourceSend (.packet (ackPacket 256 request code payload))])
    (hcs : cs.filterMap Call.outgoing = []) : OneReply b e request send code payload where
  ret := hret
  reply := ⟨_, cs, hcalls, hcs, ackPacket_fits (by decide) hfits,
    decode_ackPacket 256 request payload hcode⟩

/-! ### EDHOC -/

/-- What comes behind the lock: a reply that fits, or nothing. -/
theorem finish_cases (p : Post σ) (left : Int × Bytes) :
    ((p.finish left).1 = -EINVAL ∨ (p.finish left).1 = -EBADMSG) ∧ p.replies left = [] ∨
    (p.finish left).1 = p.eng.send ∧ PayloadFits 256 p.request left.2 ∧
      p.replies left = [.coapResourceSend (.packet (edhocPacket p.request left.2))] := by
  unfold Post.replies Post.finish
  by_cases hrc : left.1 = EDHOC_SUCCESS
  · rw [if_neg (not_not_intro hrc), edhocResponse_eq]
    by_cases hfits : ReplyFits p.request left.2
    · rw [if_pos hfits]
      exact .inr ⟨rfl, hfits, rfl⟩
    · rw [if_neg hfits]
      exact .inl ⟨.inl rfl, rfl⟩
  · rw [if_pos hrc]
    exact .inl ⟨.inr rfl, rfl⟩

theorem edhocDeframe_error {payload : Option Bytes} {r : Int}
    (h : edhocDeframe payload = .error r) : r = -EINVAL := by
  unfold edhocDeframe at h
  rcases payload with _ | p
  · exact (Except.error.inj h).symm
  · dsimp only at h
    split at h
    · exact (Except.error.inj h).symm
    · split at h
      · simp at h
      · split at h
        · exact (Except.error.inj h).symm
        · simp at h

theorem edhoc_answers (b : Board σ) (request : Request) (eng : Engine σ) :
    Refused b (.edhoc request eng) ∨
      ∃ out, OneReply b (.edhoc request eng) request eng.send COAP_RESPONSE_CODE_CHANGED out := by
  rcases hframe : edhocDeframe request.payload with r | framed
  · have hexec := edhocPost_rejected eng hframe b
    have hcalls := newCalls_eq (e := .edhoc request eng) (congrArg (fun r => r.2.log) hexec)
    refine .inl ⟨.inl ?_, by rw [hcalls]; rfl⟩
    rw [← edhocDeframe_error hframe]
    exact congrArg Prod.fst hexec
  · obtain ⟨left, d', new, hnew, -, hexec⟩ := post_ran ⟨request, eng, framed, hframe⟩ b.dev
    have hexec := hexec b.dev.led b.log
    have hcalls : b.newCalls (.edhoc request eng) = _ :=
      newCalls_eq (congrArg (fun r => r.2.log) hexec)
    have hret : b.ret (.edhoc request eng) = _ := congrArg Prod.fst hexec
    rcases finish_cases ⟨request, eng, framed, hframe⟩ left with
      ⟨hfinish, hreplies⟩ | ⟨hfinish, hfits, hreplies⟩
    · refine .inl ⟨by rw [hret]; exact hfinish, ?_⟩
      rw [hcalls, hreplies, List.append_nil, List.filterMap_cons_none rfl, outgoing_guarded hnew]
    · rw [hreplies, ← List.cons_append] at hcalls
      refine .inr ⟨left.2, oneReply_ackPacket (by decide) hfits (hret.trans hfinish) hcalls ?_⟩
      rw [List.filterMap_cons_none rfl, outgoing_guarded hnew]

/-! ### In the clear -/

/-- Whatever the dispatcher chooses is an acknowledgement that fits. -/
theorem dispatch_ack (gpio : Int) (request : Request) (led : Led) :
    ∃ code payload led', code ≠ 0 ∧ PayloadFits 256 request payload ∧
      coapServerDispatchInner gpio request 256 led = (.ok (ackPacket 256 request code payload), led') := by
  obtain ⟨p, led', hbuild, hran⟩ := @dispatch_ran gpio request 256 led (by decide)
  cases hran with
  | hello _ _ =>
      exact ⟨_, _, _, by decide, content_fits (by decide) (by decide), hbuild⟩
  | ledGet _ _ => exact ⟨_, _, _, by decide, content_fits (by decide) (by simp), hbuild⟩
  | ledPutBad _ _ _ => exact ⟨_, _, _, by decide, .inl rfl, hbuild⟩
  | ledPut _ _ _ => exact ⟨_, _, _, by decide, .inl rfl, hbuild⟩
  | notFound _ _ => exact ⟨_, _, _, by decide, .inl rfl, hbuild⟩

/-- The plaintext handler sends what the dispatcher builds. -/
theorem appRequest_exec {gpio : Int} (send : Int) {request : Request} {b : Board σ} {p : Packet} {led : Led}
    (hbuild : coapServerDispatchInner gpio request 256 b.dev.led = (.ok p, led)) :
    (Event.app request gpio send).handler.exec b = (send,
      ⟨{ b.dev with led := led },
        b.log ++ ([.dispatchInner request (.ok p)] ++ [.coapResourceSend (.packet p)])⟩) := by
  show (appRequest gpio send request).exec b = _
  unfold appRequest CONFIG_COAP_SERVER_MESSAGE_SIZE
  rw [Fw.exec_bind, Fw.exec_get]
  dsimp only
  rw [hbuild, ← List.append_assoc]
  rfl

theorem app_answers (b : Board σ) (request : Request) (gpio send : Int) :
    ∃ code payload, OneReply b (.app request gpio send) request send code payload := by
  obtain ⟨code, payload, led', hcode, hfits, hbuild⟩ := dispatch_ack gpio request b.dev.led
  have hexec := appRequest_exec send hbuild
  exact ⟨code, payload, oneReply_ackPacket hcode hfits (congrArg Prod.fst hexec)
    (newCalls_eq (congrArg (fun r => r.2.log) hexec)) rfl⟩

/--
**One reply to each request, or none and an error.**  In any state of the board and for
any answers of the libraries, an EDHOC POST sends one 2.04 or is refused with EINVAL or
EBADMSG, and a request in the clear sends one reply.  A reply fits in 256 bytes, decodes
to an acknowledgement with the id and the token of its request and no options, and is
the last thing that happens.
-/
theorem one_reply_or_refused (b : Board σ) :
    (∀ request eng, Refused b (.edhoc request eng) ∨
      ∃ out, OneReply b (.edhoc request eng) request eng.send COAP_RESPONSE_CODE_CHANGED out) ∧
    ∀ request gpio send,
      ∃ code payload, OneReply b (.app request gpio send) request send code payload :=
  ⟨edhoc_answers b, fun request gpio send => app_answers b request gpio send⟩

end UsbNcmNet
