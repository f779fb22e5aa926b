/-
Replies as the clients see them.

All replies are made by `coap_packet_init` from the token and the id of the
request, as an ACK.  For a client that reads one with `parse_response` that is
enough: whatever the token holds, the search for the marker begins behind it.
For a request that asked for no acknowledgement it is the wrong type.
-/
import UsbNcmNet.Host.Cli
import UsbNcmNet.Lib.Rfc7252
import UsbNcmNet.Proofs.Onoff
import UsbNcmNet.Proofs.Reply

namespace UsbNcmNet

variable {σ : Type}

/-! ### What a reply takes from its request -/

/-- An ACK with the token and the id of the request. -/
structure Acknowledges (request : Request) (p : Packet) : Prop where
  type : p.type = .ack
  token : p.token = request.token
  id : p.id = request.id

theorem acknowledges_ackPacket (bufLen : Nat) (request : Request) (code : UInt8)
    (payload : Bytes) : Acknowledges request (ackPacket bufLen request code payload) :=
  ⟨rfl, rfl, rfl⟩

theorem acknowledges_init {bufLen : Nat} {request : Request} {code : UInt8} {p : Packet}
    (h : coapPacketInit bufLen COAP_VERSION_1 .ack request.token code request.id = .ok p) :
    Acknowledges request p := by
  unfold coapPacketInit at h
  split at h
  · obtain rfl := Except.ok.inj h
    exact ⟨rfl, rfl, rfl⟩
  · simp at h

/-- Marker and payload go behind what is there already. -/
theorem acknowledges_content {bufLen : Nat} {request : Request} {code : UInt8} {payload : Bytes}
    {p : Packet}
    (h : (do
      let response ← coapPacketInit bufLen COAP_VERSION_1 .ack request.token code request.id
      let response ← coapPacketAppendPayloadMarker response
      coapPacketAppendPayload response payload) = .ok p) : Acknowledges request p := by
  cases hinit : coapPacketInit bufLen COAP_VERSION_1 .ack request.token code request.id with
  | error r => simp [hinit, bind, Except.bind] at h
  | ok q =>
      obtain ⟨htype, htoken, hid⟩ := acknowledges_init hinit
      simp only [hinit, bind, Except.bind, coapPacketAppendPayloadMarker,
        coapPacketAppendPayload] at h
      split at h
      · simp at h
      · rename_i hmarker
        split at hmarker
        · obtain rfl := Except.ok.inj hmarker
          split at h
          · obtain rfl := Except.ok.inj h
            exact ⟨htype, htoken, hid⟩
          · simp at h
        · simp at hmarker

/-- Whatever the dispatcher builds, in whatever buffer, acknowledges the request. -/
theorem acknowledges_dispatch {gpio : Int} {request : Request} {bufLen : Nat} {led led' : Led}
    {p : Packet} (h : coapServerDispatchInner gpio request bufLen led = (.ok p, led')) :
    Acknowledges request p := by
  rw [coapServerDispatchInner_eq] at h
  have hbuilt := congrArg Prod.fst h
  cases hbuilder : selectBuilder request with
  | hello =>
      rw [hbuilder] at hbuilt
      exact acknowledges_content hbuilt
  | ledGet =>
      rw [hbuilder] at hbuilt
      exact acknowledges_content hbuilt
  | ledPut =>
      rw [hbuilder, Builder.build, buildLedPut] at hbuilt
      split at hbuilt <;> exact acknowledges_init hbuilt
  | notFound =>
      rw [hbuilder] at hbuilt
      exact acknowledges_init hbuilt

theorem setupLog_no_send (eng : Engine σ) (pkt : Outgoing) :
    .coapResourceSend pkt ∉ setupLog eng := by
  intro h
  rcases List.mem_cons.mp h with h | h
  · simp at h
  · obtain ⟨s, r, h⟩ := mem_configureLog h
    simp at h

/-- Nothing is sent from inside the critical section. -/
theorem Message1Ran.no_send {eng : Engine σ} {msg out : Bytes} {d d' : Device σ} {rc : Int}
    {cs : List (Call σ)} (h : Message1Ran eng msg d rc out d' cs) (pkt : Outgoing) :
    .coapResourceSend pkt ∉ resetLog d ++ cs := by
  have hreset : .coapResourceSend pkt ∉ resetLog d := by
    unfold resetLog
    split <;> simp
  have hsetup := setupLog_no_send eng pkt
  cases h <;> simp [hreset, hsetup]

theorem Message3Ran.no_send {eng : Engine σ} {msg out : Bytes} {d d' : Device σ} {rc : Int}
    {cs : List (Call σ)} (h : Message3Ran eng msg d rc out d' cs) (pkt : Outgoing) :
    .coapResourceSend pkt ∉ cs := by
  cases h <;> simp

theorem Replied.acknowledges {eng : Engine σ} {request : Request} {rc ret : Int} {out : Bytes}
    {tail : List (Call σ)} {p : Packet} (h : Replied eng request rc out ret tail)
    (hmem : .coapResourceSend (.packet p) ∈ tail) : Acknowledges request p := by
  cases h with
  | failed _ => simp at hmem
  | noRoom _ _ => simp at hmem
  | sent _ hbuild =>
      simp only [List.mem_singleton, Call.coapResourceSend.injEq, Outgoing.packet.injEq] at hmem
      subst hmem
      rw [edhocResponse_eq] at hbuild
      split at hbuild
      · obtain rfl := Except.ok.inj hbuild
        exact acknowledges_ackPacket _ request _ out
      · simp at hbuild

/-- What is sent is sent last, behind calls that send nothing. -/
theorem Replied.acknowledges_of_mem {eng : Engine σ} {request : Request} {rc ret : Int}
    {out : Bytes} {cs tail : List (Call σ)} {p : Packet} (h : Replied eng request rc out ret tail)
    (hcs : .coapResourceSend (.packet p) ∉ cs)
    (hmem : .coapResourceSend (.packet p) ∈ .edhocPost request.payload :: cs ++ tail) :
    Acknowledges request p := by
  rcases List.mem_append.mp hmem with hmem | hmem
  · rcases List.mem_cons.mp hmem with hmem | hmem
    · simp at hmem
    · exact absurd hmem hcs
  · exact h.acknowledges hmem

/-- And so does what `edhoc_post` sends. -/
theorem acknowledges_edhoc {b : Board σ} {request : Request} {eng : Engine σ} {p : Packet}
    (h : .coapResourceSend (.packet p) ∈ b.newCalls (.edhoc request eng)) :
    Acknowledges request p := by
  have hran := edhocPost_ran eng request b
  generalize b.ret (.edhoc request eng) = r, hb : b.step (.edhoc request eng) = b' at hran
  cases hran with
  | rejected _ =>
      rw [newCalls_eq (congrArg Board.log hb)] at h
      simp at h
  | message1 _ hran hreply =>
      rw [newCalls_eq (congrArg Board.log hb)] at h
      exact hreply.acknowledges_of_mem (hran.no_send _) h
  | message3 _ hran hreply =>
      rw [newCalls_eq (congrArg Board.log hb)] at h
      exact hreply.acknowledges_of_mem (hran.no_send _) h

/-! ### Correlation -/

/-- A response the firmware builds for a request: by the dispatcher, or as an EDHOC reply. -/
inductive BuiltFor (request : Request) (p : Packet) : Prop
  | dispatched {gpio : Int} {bufLen : Nat} {led led' : Led}
      (h : coapServerDispatchInner gpio request bufLen led = (.ok p, led'))
  | edhoc {σ : Type} {b : Board σ} {eng : Engine σ}
      (h : .coapResourceSend (.packet p) ∈ b.newCalls (.edhoc request eng))

/-- What the message layer asks: the token, an ACK of the id for a CON, a NON for a NON. -/
structure Correlates (request : Request) (p : Packet) : Prop where
  token : p.token = request.token
  con : request.type = .con → p.type = .ack ∧ p.id = request.id
  nonCon : request.type = .nonCon → p.type = .nonCon

theorem BuiltFor.acknowledges {request : Request} {p : Packet} (h : BuiltFor request p) :
    Acknowledges request p := by
  cases h with
  | dispatched h => exact acknowledges_dispatch h
  | edhoc h => exact acknowledges_edhoc h

theorem Acknowledges.not_correlates {request : Request} {p : Packet}
    (h : Acknowledges request p) (htype : request.type = .nonCon) : ¬ Correlates request p := by
  intro hc
  have hnon := hc.nonCon htype
  rw [h.type] at hnon
  exact CoapType.noConfusion hnon

/--
**A reply belongs to its request in the message layer exactly when that was
Confirmable.**  Every response to a Non-confirmable request is an ACK.
-/
theorem correlates_iff_confirmable (request : Request) (p : Packet)
    (htype : request.type = .con ∨ request.type = .nonCon) (hbuilt : BuiltFor request p) :
    Correlates request p ↔ request.type = .con := by
  have hack := hbuilt.acknowledges
  constructor
  · intro hc
    rcases htype with h | h
    · exact h
    · exact absurd hc (hack.not_correlates h)
  · intro hcon
    refine ⟨hack.token, fun _ => ⟨hack.type, hack.id⟩, ?_⟩
    intro hnon
    rw [hcon] at hnon
    exact CoapType.noConfusion hnon

/-- GET of the LED with a token of two bytes, as a CON or a NON. -/
def ledGetRequest (type : CoapType) : Request where
  type := type
  code := COAP_METHOD_GET
  id := 0x1234
  token := ⟨[0xff, 7], by decide⟩
  options := [⟨COAP_OPTION_URI_PATH, ascii ['l', 'e', 'd']⟩]
  findFails := false
  payload := none

/-- The reply to it while the LED is off. -/
def ledGetReply (type : CoapType) : Packet :=
  ackPacket 64 (ledGetRequest type) COAP_RESPONSE_CODE_CONTENT [ledByte false]

theorem correlates_con_get : Correlates (ledGetRequest .con) (ledGetReply .con) := by
  have hbuilt : coapServerDispatchInner 0 (ledGetRequest .con) 64 Led.boot
      = (.ok (ledGetReply .con), Led.boot) := rfl
  exact (correlates_iff_confirmable (ledGetRequest .con) (ledGetReply .con) (.inl rfl)
    (.dispatched hbuilt)).mpr rfl

/-- A NON GET is answered with an ACK. -/
theorem non_get_gets_ack :
    coapServerDispatchInner 0 (ledGetRequest .nonCon) 64 Led.boot
        = (.ok (ledGetReply .nonCon), Led.boot) ∧
      (ledGetReply .nonCon).type = .ack ∧
      ¬ Correlates (ledGetRequest .nonCon) (ledGetReply .nonCon) :=
  ⟨rfl, rfl, (acknowledges_ackPacket _ _ _ _).not_correlates rfl⟩

/-! ### Replies are messages -/

/-- The reply as a message of the format: an ACK without options. -/
def replyMessage (request : Request) (code : UInt8) (payload : Bytes) : Rfc7252.Message where
  type := Rfc7252.typeBits 2
  code := code
  id := request.id
  token := request.token.val
  options := []
  payload := payload

theorem replyHeader_eq : ∀ n ≤ COAP_TOKEN_MAX_LEN,
    COAP_VERSION_1 <<< 6 ||| CoapType.ack.bits <<< 4 ||| UInt8.ofNat n
      = UInt8.ofNat (64 + 16 * 2 + n) := by
  decide

theorem id_bytes (id : UInt16) :
    (id >>> 8).toUInt8 = UInt8.ofNat (id.toNat / 256) ∧ id.toUInt8 = UInt8.ofNat id.toNat := by
  constructor <;> apply UInt8.toNat_inj.mp <;>
    simp [UInt16.toNat_shiftRight, Nat.shiftRight_eq_div_pow, UInt8.toNat_ofNat']

/-- What goes out is the encoding of the reply, with no marker when there is no payload. -/
theorem data_ackPacket (bufLen : Nat) (request : Request) (code : UInt8) (payload : Bytes) :
    (ackPacket bufLen request code payload).data
      = Rfc7252.encode (replyMessage request code payload) := by
  have hheader := replyHeader_eq _ request.token.property
  obtain ⟨hhi, hlo⟩ := id_bytes request.id
  have hbody : (if decide (payload ≠ []) = true then [COAP_MARKER] else []) ++ payload
      = Rfc7252.encodePayload payload := by
    unfold Rfc7252.encodePayload
    by_cases hpayload : payload = []
    · simp [hpayload]
    · simp [hpayload, COAP_MARKER, Rfc7252.marker]
  show _ = UInt8.ofNat (64 + 16 * 2 + request.token.val.length) :: code ::
    UInt8.ofNat (request.id.toNat / 256) :: UInt8.ofNat request.id.toNat ::
    (request.token.val ++ ([] ++ Rfc7252.encodePayload payload))
  rw [← hheader, ← hhi, ← hlo, ← hbody, List.nil_append, ← List.append_assoc]
  rfl

/-- **Every reply decodes to the token, the id, the code and the payload it was built from.** -/
theorem decode_ackPacket (bufLen : Nat) (request : Request) {code : UInt8} (payload : Bytes)
    (hcode : code ≠ 0) :
    Rfc7252.decode (ackPacket bufLen request code payload).data
      = some (replyMessage request code payload) := by
  rw [data_ackPacket]
  exact Rfc7252.decode_encode ⟨request.token.property, trivial, fun h => absurd h hcode⟩

/-! ### Reading a reply -/

theorem replyHeader_tkl : ∀ n ≤ COAP_TOKEN_MAX_LEN,
    ((COAP_VERSION_1 <<< 6 ||| CoapType.ack.bits <<< 4 ||| UInt8.ofNat n) &&& 0x0f).toNat = n := by
  decide

/-- What stands behind the token is the marker and the payload, or nothing. -/
theorem drop_token_data (bufLen : Nat) (request : Request) (code : UInt8) (payload : Bytes) :
    (ackPacket bufLen request code payload).data.drop (4 + request.token.val.length)
      = if payload = [] then [] else 0xff :: payload := by
  rw [data_ackPacket, ← List.drop_drop]
  show (request.token.val ++ ([] ++ Rfc7252.encodePayload payload)).drop request.token.val.length
    = _
  rw [List.nil_append, List.drop_left]
  rfl

/-- The parser finds what was appended, whatever the token holds. -/
theorem parseResponse_ackPacket (bufLen : Nat) (request : Request) (code : UInt8)
    (payload : Bytes) :
    parseResponse (ackPacket bufLen request code payload).data
      = (codeString code, codeName (codeString code), payload) := by
  have htkl : ((ackPacket bufLen request code payload).data.getD 0 0 &&& 0x0f).toNat
      = request.token.val.length := replyHeader_tkl _ request.token.property
  have hcode : (ackPacket bufLen request code payload).data.getD 1 0 = code := rfl
  have hlen : ¬ (ackPacket bufLen request code payload).data.length < 4 := by
    rw [Packet.length_data, Packet.offset]
    omega
  have hdrop := drop_token_data bufLen request code payload
  unfold parseResponse findMarker
  rw [if_neg hlen, htkl, hcode, hdrop]
  by_cases hpayload : payload = []
  · subst hpayload
    rfl
  · rw [if_neg hpayload] at hdrop ⊢
    have htail : (ackPacket bufLen request code payload).data.drop
        (4 + request.token.val.length + 1) = payload := by
      rw [← List.drop_drop, hdrop]
      rfl
    have hfirst : (0xff :: payload).findIdx? (· == 0xff) = some 0 := rfl
    simp only [hfirst, Option.map_some, Nat.add_zero, htail]

/-- The two bytes of a message id. -/
theorem toNat_id_bytes (id : UInt16) :
    256 * (id >>> 8).toUInt8.toNat + id.toUInt8.toNat = id.toNat := by
  have hlt := id.toNat_lt
  obtain ⟨hhi, hlo⟩ := id_bytes id
  rw [hhi, hlo, UInt8.toNat_ofNat', UInt8.toNat_ofNat']
  omega

/-- Bytes 2 and 3 of a reply are the id of the request, the high byte first. -/
theorem idBytes_ackPacket (bufLen : Nat) (request : Request) (code : UInt8) (payload : Bytes) :
    ∃ hi lo, (ackPacket bufLen request code payload).data[2]? = some hi ∧
      (ackPacket bufLen request code payload).data[3]? = some lo ∧
      256 * hi.toNat + lo.toNat = request.id.toNat :=
  ⟨_, _, rfl, rfl, toNat_id_bytes request.id⟩

theorem matchesMid_ackPacket (bufLen : Nat) (request : Request) (code : UInt8)
    (payload : Bytes) :
    matchesMid request.id.toNat (ackPacket bufLen request code payload).data = true := by
  have hlen : 4 ≤ (ackPacket bufLen request code payload).data.length := by
    rw [Packet.length_data, Packet.offset]
    omega
  have hid := toNat_id_bytes request.id
  unfold matchesMid
  rw [decide_eq_true hlen, Bool.true_and, beq_iff_eq]
  exact hid

/-- What the client prints for each choice of the dispatcher: code, name and payload. -/
def Builder.reply (request : Request) (led : Led) : Builder → String × String × Bytes
  | .hello => ("2.05", "Content", helloText)
  | .ledGet => ("2.05", "Content", [if led.state then 0x31 else 0x30])
  | .ledPut =>
      match wordValue request.payload with
      | none => ("4.00", "Bad Request", [])
      | some _ => ("2.04", "Changed", [])
  | .notFound => ("4.04", "Not Found", [])

/-- Each builder makes one ACK, and that is what the client prints of it. -/
theorem build_reply (gpio : Int) (request : Request) {bufLen : Nat} (led : Led)
    (hbuf : 64 ≤ bufLen) (builder : Builder) :
    ∃ code payload led', builder.build gpio request bufLen led
        = (.ok (ackPacket bufLen request code payload), led') ∧
      PayloadFits bufLen request payload ∧
      builder.reply request led = (codeString code, codeName (codeString code), payload) := by
  cases builder with
  | hello =>
      refine ⟨COAP_RESPONSE_CODE_CONTENT, helloText, led, ?_,
        content_fits hbuf (by decide), by rfl⟩
      rw [Builder.build, buildHello_eq hbuf]
  | ledGet =>
      refine ⟨COAP_RESPONSE_CODE_CONTENT, [ledByte led.state], led, ?_,
        content_fits hbuf (by simp), ?_⟩
      · rw [Builder.build, buildLedGet_eq hbuf]
      · rw [Builder.reply, ledByte_eq]
        rfl
  | ledPut =>
      rw [Builder.build, buildLedPut_eq gpio request led (by omega), Builder.reply, wordValue_eq]
      by_cases hvalue : putValue request.payload < 0
      · rw [if_pos hvalue, if_pos hvalue]
        exact ⟨_, _, _, rfl, .inl rfl, by rfl⟩
      · rw [if_neg hvalue, if_neg hvalue]
        exact ⟨_, _, _, rfl, .inl rfl, by rfl⟩
  | notFound =>
      exact ⟨_, _, _, by rw [Builder.build, coapPacketInit_ack (by omega)], .inl rfl, by rfl⟩

/-- The read loop passes over what has another id and stops at the reply. -/
theorem receive_reply {mid : Nat} {data : Bytes} {before after : List Bytes}
    (hbefore : ∀ d ∈ before, matchesMid mid d = false) (h : matchesMid mid data = true) :
    receive mid (before ++ data :: after) = some data := by
  have hskip : before.find? (matchesMid mid) = none := by
    rw [List.find?_eq_none]
    intro d hd
    simp [hbefore d hd]
  rw [receive, List.find?_append, hskip, Option.none_or, List.find?_cons_of_pos h]

/--
**What the server answers is what the client prints.**  The dispatcher succeeds in
any buffer of 64 bytes; the datagram carries the request's id in bytes 2 and 3, by which
the client's loop accepts it; and `parse_response` gives back the code and exactly the
payload that was appended.
-/
theorem reply_round_trip (gpio : Int) (request : Request) (bufLen : Nat) (led : Led)
    (hbuf : 64 ≤ bufLen) :
    ∃ p led', coapServerDispatchInner gpio request bufLen led = (.ok p, led') ∧
      p.data.length ≤ bufLen ∧
      parseResponse p.data = (codeString p.code, codeName (codeString p.code), p.payload) ∧
      parseResponse p.data = (selectBuilder request).reply request led ∧
      (∃ hi lo, p.data[2]? = some hi ∧ p.data[3]? = some lo ∧
        256 * hi.toNat + lo.toNat = request.id.toNat) ∧
      matchesMid request.id.toNat p.data = true ∧
      ∀ before after, (∀ d ∈ before, matchesMid request.id.toNat d = false) →
        receive request.id.toNat (before ++ p.data :: after) = some p.data := by
  obtain ⟨code, payload, led', hbuild, hfits, hreply⟩ :=
    build_reply gpio request led hbuf (selectBuilder request)
  have hparse := parseResponse_ackPacket bufLen request code payload
  have hmatch := matchesMid_ackPacket bufLen request code payload
  refine ⟨_, led', ?_, ackPacket_fits (by omega) hfits, hparse, hparse.trans hreply.symm,
    idBytes_ackPacket bufLen request code payload, hmatch,
    fun before after hbefore => receive_reply hbefore hmatch⟩
  rw [coapServerDispatchInner_eq, hbuild]

/-- With a marker byte in the token and the smallest buffer. -/
theorem reply_round_trip_at_64 :
    ∃ p led', coapServerDispatchInner 0 (ledGetRequest .con) 64 Led.boot = (.ok p, led') ∧
      parseResponse p.data = ("2.05", "Content", ascii ['0']) := by
  obtain ⟨p, led', hrun, -, -, hparse, -⟩ :=
    reply_round_trip 0 (ledGetRequest .con) 64 Led.boot (by decide)
  exact ⟨p, led', hrun, hparse⟩

end UsbNcmNet
