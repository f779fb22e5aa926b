/-
One command, end to end.

The arguments are encoded by the script, parsed and routed by the CoAP service,
answered by the handlers, and the answer is picked out of whatever else arrives and
decoded by the script.  Every stage has been looked at on its own; here they are put
one behind the other, and the LED, which the requests of all clients share, is what
comes out at the far end.
-/
import UsbNcmNet.Host.Command
import UsbNcmNet.Service
import UsbNcmNet.Proofs.Answers
import UsbNcmNet.Proofs.Request
import UsbNcmNet.Proofs.Led

namespace UsbNcmNet

open Trace

variable {σ : Type}

/-! ### The request -/

/-- The arguments' payload in bytes. -/
def Args.payloadBytes (args : Args) : Option Bytes :=
  args.payload.map fun payload => utf8 payload.toList

/-- The request of a run as the firmware is to see it. -/
def Args.request (args : Args) (answers : CommandAnswers) : Request where
  type := TYPES args.con
  code := METHODS args.method
  id := answers.mid
  token := ⟨answers.token.toList, by simp [COAP_TOKEN_MAX_LEN]⟩
  options := (segments args.path).map fun seg => ⟨COAP_OPTION_URI_PATH, utf8 seg⟩
  findFails := false
  payload := args.payloadBytes

/-- The arguments are within what `build_request` can encode and the service can take. -/
structure Args.Encodable (args : Args) (answers : CommandAnswers) : Prop where
  segments : ∀ seg ∈ segments args.path, (utf8 seg).length ≤ COAP_OPTION_VALUE_LEN
  count : (UsbNcmNet.segments args.path).length ≤ MAX_OPTIONS
  payload : args.payloadBytes ≠ some []
  size : ∀ data, commandRequest args answers = some data →
    data.length ≤ CONFIG_COAP_SERVER_MESSAGE_SIZE

theorem Args.Encodable.fitsSlots {args : Args} {answers : CommandAnswers}
    (h : args.Encodable answers) : FitsSlots (pathOptions (UsbNcmNet.segments args.path)) := by
  refine ⟨by simpa [pathOptions] using h.count, ?_, ?_⟩
  · intro o ho
    obtain ⟨seg, -, rfl⟩ := List.mem_map.mp ho
    show COAP_OPTION_URI_PATH < 65536
    decide
  · intro o ho
    obtain ⟨seg, hseg, rfl⟩ := List.mem_map.mp ho
    exact h.segments seg hseg

theorem ofBits_typeBits (t : CoapType) :
    CoapType.ofBits (Rfc7252.typeBits t.bits.toNat) = t := by
  cases t <;> rfl

/-- What the message of the arguments reads as is their request. -/
theorem parsedRequest_command (args : Args) (answers : CommandAnswers)
    (hpayload : args.payloadBytes ≠ some [])
    (htoken : answers.token.toList.length ≤ COAP_TOKEN_MAX_LEN) :
    parsedRequest (requestMessage (METHODS args.method) args.path (TYPES args.con)
      answers.mid.toNat answers.token.toList args.payloadBytes) htoken = args.request answers := by
  have hread : (if args.payloadBytes.getD [] = [] then none else some (args.payloadBytes.getD []))
      = args.payloadBytes := by
    rcases hp : args.payloadBytes with _ | p
    · rfl
    · have hne : p ≠ [] := fun heq => hpayload (by rw [hp, heq])
      exact if_neg hne
  unfold parsedRequest requestMessage Args.request
  dsimp only
  rw [hread, ofBits_typeBits, UInt16.ofNat_toNat, pathOptions, List.map_map]
  rfl

/-- **The firmware sees the request that was asked for.** -/
theorem parse_command {parse : Bytes → Option Request} (hparse : ParsesWellFormed parse)
    {args : Args} {answers : CommandAnswers} (hargs : args.Encodable answers) :
    ∃ data, commandRequest args answers = some data ∧
      parse data = some (args.request answers) := by
  have hcode : METHODS args.method ≠ 0 := by cases args.method <;> decide
  have hmid := answers.mid.toNat_lt
  have htoken : answers.token.toList.length ≤ 8 := by simp
  have hsegs : ∀ seg ∈ segments args.path, (utf8 seg).length ≤ 255 :=
    fun seg hseg => Nat.le_trans (hargs.segments seg hseg) (by decide)
  obtain ⟨data, hdata, hdecode⟩ :=
    (@invertible_iff_body _ args.path (TYPES args.con) _ _ args.payloadBytes hcode hmid htoken hsegs).mpr
      (by rw [rawOptions_eq 0 hargs.segments, rawPayload_eq hargs.payload])
  refine ⟨data, hdata, ?_⟩
  exact (hparse data _ htoken (hargs.size data hdata) hargs.fitsSlots hdecode).trans
    (congrArg some (parsedRequest_command args answers hargs.payload htoken))

/-! ### The reply -/

/-- Datagrams that are no answer to us are passed over. -/
theorem readReply_skip {mid : Nat} {reply : Bytes} (hreply : matchesMid mid reply = true)
    (noise : List Bytes) :
    ∀ after, (∀ data ∈ noise, matchesMid mid data = false) →
      readReply mid (noise.map .ok ++ .ok reply :: after) = .ok reply := by
  induction noise with
  | nil =>
      intro after _
      exact if_pos hreply
  | cons data noise ih =>
      intro after hnoise
      rw [List.map_cons, List.cons_append, readReply,
        if_neg (by simp [hnoise data List.mem_cons_self])]
      exact ih after fun d hd => hnoise d (List.mem_cons_of_mem _ hd)

/-- What a plaintext handler sends prints as the answer of the builder that was chosen. -/
theorem app_sends (b : Board σ) (request : Request) (gpio send : Int) :
    ∃ reply, b.sends (.app request gpio send) = [reply] ∧
      matchesMid request.id.toNat reply = true ∧
      parseResponse reply = (selectBuilder request).reply request b.dev.led := by
  obtain ⟨code, payload, led', hbuild, -, hprinted⟩ :=
    build_reply gpio request b.dev.led (by decide : 64 ≤ 256) (selectBuilder request)
  rw [← coapServerDispatchInner_eq] at hbuild
  have hexec := appRequest_exec send hbuild
  have hcalls : b.newCalls (.app request gpio send) = _ :=
    newCalls_eq (congrArg (fun r => r.2.log) hexec)
  refine ⟨(ackPacket 256 request code payload).data, ?_,
    matchesMid_ackPacket 256 request code payload, ?_⟩
  · unfold Board.sends
    rw [hcalls]
    rfl
  · rw [parseResponse_ackPacket, hprinted]

/-! ### Both ends -/

/-- What a run prints that connects, sends and finds the given datagram among the others. -/
theorem command_prints {args : Args} {attempts : Nat → Attempt} {answers : CommandAnswers}
    {data reply : Bytes} (hopen : ∃ ops attempt,
      openTransport attempts args.retries.toNat 1 = (ops, .ok attempt))
    (hannounce : answers.announce = none)
    (hdata : commandRequest args answers = some data) (hsend : answers.send = none)
    (hrecv : readReply answers.mid.toNat answers.recv = .ok reply) :
    (command args attempts answers).2
      = .printed (parseResponse reply).1 (parseResponse reply).2.1 (parseResponse reply).2.2 := by
  obtain ⟨ops, attempt, hopen⟩ := hopen
  unfold command exchange
  rw [hopen, hdata, hannounce, ite_self, hsend, hrecv]

/-- The plaintext requests of the two resources. -/
def Args.ForResource (args : Args) : Prop :=
  (args.method = .get ∧ segments args.path = [['h', 'e', 'l', 'l', 'o']]) ∨
  ((args.method = .get ∨ args.method = .put) ∧ segments args.path = [['l', 'e', 'd']])

theorem lookup_forResource {args : Args} (answers : CommandAnswers) (h : args.ForResource) :
    coapServiceLookup (args.request answers) = .ok .appRequest := by
  unfold coapServiceLookup Args.request
  rcases h with ⟨hmethod, hpath⟩ | ⟨hmethod | hmethod, hpath⟩ <;> rw [hmethod, hpath] <;> rfl

/-- What one run of the script finds out about a board that has handled `evs`. -/
structure Answered (parse : Bytes → Option Request) (ctx : σ) (evs : List (Event σ)) (args : Args)
    (answers : CommandAnswers) (gpio send : Int) (printed : String × String × Bytes) : Prop where
  /-- The request gets to the plaintext handlers as it was meant. -/
  event : ∃ data, commandRequest args answers = some data ∧
    clearEvent parse gpio send data = some (.app (σ := σ) (args.request answers) gpio send)
  /-- The reply, among whatever else arrives, is what is printed. -/
  prints : ∃ reply, ((board ctx).run evs).sends (.app (args.request answers) gpio send) = [reply] ∧
    ∀ (attempts : Nat → Attempt) (noise : List Bytes) (after : List (Except Exn Bytes)),
      (∃ ops attempt, openTransport attempts args.retries.toNat 1 = (ops, .ok attempt)) →
      answers.announce = none → answers.send = none →
      (∀ data ∈ noise, matchesMid answers.mid.toNat data = false) →
      answers.recv = noise.map .ok ++ .ok reply :: after →
      (command args attempts answers).2 = .printed printed.1 printed.2.1 printed.2.2

/-- A command prints what the builder for its path and method has to say about the board. -/
theorem command_answered {parse : Bytes → Option Request} (hparse : ParsesWellFormed parse)
    (ctx : σ) (evs : List (Event σ)) {args : Args} {answers : CommandAnswers} (gpio send : Int)
    (hargs : args.Encodable answers) (hres : args.ForResource) :
    Answered parse ctx evs args answers gpio send
      ((selectBuilder (args.request answers)).reply (args.request answers)
        ((board ctx).run evs).dev.led) := by
  obtain ⟨data, hdata, hparsed⟩ := parse_command hparse hargs
  obtain ⟨reply, hsends, hmatch, hprinted⟩ :=
    app_sends ((board ctx).run evs) (args.request answers) gpio send
  refine ⟨⟨data, hdata, ?_⟩, reply, hsends, ?_⟩
  · unfold clearEvent
    rw [hparsed]
    dsimp only
    rw [lookup_forResource answers hres]
  · intro attempts noise after hopen hannounce hsend hnoise hrecv
    rw [← hprinted]
    refine command_prints hopen hannounce hdata hsend ?_
    rw [hrecv]
    exact readReply_skip hmatch noise after hnoise

theorem selectBuilder_led {args : Args} (answers : CommandAnswers)
    (hpath : segments args.path = [['l', 'e', 'd']]) :
    (args.method = .get → selectBuilder (args.request answers) = .ledGet) ∧
      (args.method = .put → selectBuilder (args.request answers) = .ledPut) := by
  unfold Args.request
  rw [hpath]
  constructor
  · intro hmethod
    rw [hmethod]
    rfl
  · intro hmethod
    rw [hmethod]
    rfl

/-- What a PUT to the LED adds to the history of the register. -/
theorem labels_put (ctx : σ) (evs : List (Event σ)) {request : Request} (gpio send : Int)
    (hput : selectBuilder request = .ledPut) :
    (ledSimulation ctx).labels (evs ++ [.app request gpio send])
      = (ledSimulation ctx).labels evs ++ (wordValue request.payload).toList := by
  rw [Machine.Simulation.labels_concat]
  congr 1
  have hbuild : coapServerDispatchInner gpio request 256 ((board ctx).run evs).dev.led
      = buildLedPut gpio request 256 request.token request.id ((board ctx).run evs).dev.led := by
    rw [coapServerDispatchInner_eq, hput]
    rfl
  rw [buildLedPut_eq gpio request _ (by decide)] at hbuild
  show (latest ledWrite (((board ctx).run evs).dispatches (.app request gpio send))).toList = _
  unfold Board.dispatches
  by_cases hvalue : putValue request.payload < 0
  · rw [if_pos hvalue] at hbuild
    rw [newCalls_eq (congrArg (fun r => r.2.log) (appRequest_exec send hbuild)),
      wordValue_eq_none hvalue]
    rfl
  · rw [if_neg hvalue] at hbuild
    rw [newCalls_eq (congrArg (fun r => r.2.log) (appRequest_exec send hbuild))]
    -- the one call to the dispatcher is an acknowledged PUT
    have hwrite : ledWrite (request, .ok (ackPacket 256 request COAP_RESPONSE_CODE_CHANGED []))
        = wordValue request.payload := rfl
    rw [← hwrite, ← Option.none_or (o := ledWrite _), ← latest_nil ledWrite, ← latest_cons]
    rfl

/-- A `get led` prints the digit of the value written last. -/
theorem get_led_answered {parse : Bytes → Option Request} (hparse : ParsesWellFormed parse)
    (ctx : σ) (evs : List (Event σ)) {args : Args} {answers : CommandAnswers} (gpio send : Int)
    (hargs : args.Encodable answers) (hpath : segments args.path = [['l', 'e', 'd']])
    (hmethod : args.method = .get) :
    Answered parse ctx evs args answers gpio send ("2.05", "Content",
      [if ((ledSimulation ctx).labels evs).getLast?.getD false then 0x31 else 0x30]) := by
  have hanswered := command_answered hparse ctx evs gpio send hargs (.inr ⟨.inl hmethod, hpath⟩)
  rw [(selectBuilder_led answers hpath).1 hmethod, Builder.reply, led_state_eq] at hanswered
  exact hanswered

/-- A `put led` prints whether its payload begins with one of the words. -/
theorem put_led_answered {parse : Bytes → Option Request} (hparse : ParsesWellFormed parse)
    (ctx : σ) (evs : List (Event σ)) {args : Args} {answers : CommandAnswers} (gpio send : Int)
    (hargs : args.Encodable answers) (hpath : segments args.path = [['l', 'e', 'd']])
    (hmethod : args.method = .put) :
    Answered parse ctx evs args answers gpio send
      (match wordValue args.payloadBytes with
        | none => ("4.00", "Bad Request", [])
        | some _ => ("2.04", "Changed", [])) := by
  have hanswered := command_answered hparse ctx evs gpio send hargs (.inr ⟨.inr hmethod, hpath⟩)
  rw [(selectBuilder_led answers hpath).2 hmethod, Builder.reply] at hanswered
  exact hanswered

/--
**A command reads what was written last, by whom and how ever.**  Whatever requests the
board has handled, in the clear, protected or EDHOC: `get led` arrives as the request it
stands for and prints `1` or `0` for the value that the last acknowledged PUT has set; and
`put led` sets the value of the word that its payload begins with and prints 2.04, or,
where it begins with none, prints 4.00 and sets nothing.
-/
theorem command_reads_and_writes (parse : Bytes → Option Request) (hparse : ParsesWellFormed parse)
    (ctx : σ) (evs : List (Event σ)) (args : Args) (answers : CommandAnswers) (gpio send : Int)
    (hargs : args.Encodable answers) (hpath : segments args.path = [['l', 'e', 'd']]) :
    (args.method = .get → Answered parse ctx evs args answers gpio send ("2.05", "Content",
      [if ((ledSimulation ctx).labels evs).getLast?.getD false then 0x31 else 0x30])) ∧
    (args.method = .put →
      (∀ v, wordValue args.payloadBytes = some v →
        Answered parse ctx evs args answers gpio send ("2.04", "Changed", []) ∧
        (ledSimulation ctx).labels (evs ++ [.app (args.request answers) gpio send])
          = (ledSimulation ctx).labels evs ++ [v]) ∧
      (wordValue args.payloadBytes = none →
        Answered parse ctx evs args answers gpio send ("4.00", "Bad Request", []) ∧
        (ledSimulation ctx).labels (evs ++ [.app (args.request answers) gpio send])
          = (ledSimulation ctx).labels evs)) := by
  refine ⟨get_led_answered hparse ctx evs gpio send hargs hpath, ?_⟩
  intro hmethod
  have hanswered := put_led_answered hparse ctx evs gpio send hargs hpath hmethod
  have hlabels := labels_put ctx evs gpio send ((selectBuilder_led answers hpath).2 hmethod)
  change _ = _ ++ (wordValue args.payloadBytes).toList at hlabels
  constructor
  · intro v hvalue
    rw [hvalue] at hanswered hlabels
    exact ⟨hanswered, hlabels⟩
  · intro hvalue
    rw [hvalue] at hanswered hlabels
    exact ⟨hanswered, hlabels.trans (List.append_nil _)⟩

/-- A parser that takes every well-formed message and nothing else. -/
def parseDecoded (data : Bytes) : Option Request :=
  (Rfc7252.decode data).bind fun m =>
    if htoken : m.token.length ≤ COAP_TOKEN_MAX_LEN then some (parsedRequest m htoken) else none

theorem parseDecoded_wellFormed : ParsesWellFormed parseDecoded := by
  intro data m htoken _ _ hdecode
  rw [parseDecoded, hdecode, Option.bind_some, dif_pos htoken]

/-- `coap_cli.py put led -e on`. -/
def putLedOn : Args where
  method := .put
  path := "led"
  payload := some "on"
  dtls := false
  con := true
  retries := 3

/-- `coap_cli.py get led`. -/
def getLed : Args where
  method := .get
  path := "led"
  payload := none
  dtls := false
  con := true
  retries := 3

def ledAnswers : CommandAnswers where
  announce := none
  mid := 0x1234
  token := Vector.replicate 4 7
  send := none
  recv := []

theorem putLedOn_encodable : putLedOn.Encodable ledAnswers where
  segments := by decide
  count := by decide
  payload := by decide
  size data h := by
    have hdata : commandRequest putLedOn ledAnswers
        = some [0x44, 3, 0x12, 0x34, 7, 7, 7, 7, 0xb3, 0x6c, 0x65, 0x64, 0xff, 0x6f, 0x6e] := rfl
    obtain rfl := Option.some.inj (hdata.symm.trans h)
    decide

theorem getLed_encodable : getLed.Encodable ledAnswers where
  segments := by decide
  count := by decide
  payload := by decide
  size data h := by
    have hdata : commandRequest getLed ledAnswers
        = some [0x44, 1, 0x12, 0x34, 7, 7, 7, 7, 0xb3, 0x6c, 0x65, 0x64] := rfl
    obtain rfl := Option.some.inj (hdata.symm.trans h)
    decide

/-- `put led -e on`, and then `get led`. -/
theorem command_reads_and_writes_put_get :
    Answered parseDecoded () [] putLedOn ledAnswers 0 0 ("2.04", "Changed", []) ∧
      (ledSimulation ()).labels [.app (putLedOn.request ledAnswers) 0 0] = [true] ∧
      Answered parseDecoded () [.app (putLedOn.request ledAnswers) 0 0] getLed ledAnswers 0 0
        ("2.05", "Content", [0x31]) := by
  have hput := ((command_reads_and_writes parseDecoded parseDecoded_wellFormed () [] putLedOn
    ledAnswers 0 0 putLedOn_encodable (by decide)).2 rfl).1 true (by decide)
  have hget := (command_reads_and_writes parseDecoded parseDecoded_wellFormed ()
    [.app (putLedOn.request ledAnswers) 0 0] getLed ledAnswers 0 0 getLed_encodable (by decide)).1 rfl
  exact ⟨hput.1, hput.2, hget⟩

end UsbNcmNet
