/-
What the dispatcher answers.

`coap_server_dispatch_inner` asks for two Uri-Path options although its paths have
one segment: the second slot is what tells `/led` from `/led/x`.  `Dispatched`
lists its answers against the whole Uri-Path of the request, for any buffer with
room for the longest of them.
-/
import UsbNcmNet.Proofs.Packet

namespace UsbNcmNet

/-! ### Paths -/

/-- The request's options can be read and its Uri-Path is the given one. -/
def Request.names (request : Request) (path : List Bytes) : Prop :=
  request.findFails = false ∧ request.uriPath = path

instance (request : Request) (path : List Bytes) : Decidable (request.names path) :=
  inferInstanceAs (Decidable (_ ∧ _))

/-- A request to a path of one segment. -/
def requestTo (code : UInt8) (path : List Bytes) (payload : Option Bytes) : Request where
  type := .con
  code := code
  id := 7
  token := ⟨[1, 2], by decide⟩
  options := path.map fun seg => ⟨COAP_OPTION_URI_PATH, seg⟩
  findFails := false
  payload := payload

/-- The options the dispatcher looks at. -/
def Request.firstTwo (request : Request) : List CoapOption :=
  match coapFindOptions request COAP_OPTION_URI_PATH 2 with
  | .error _ => []
  | .ok options => options

/-- Two slots are enough to recognise a path of one segment. -/
theorem uriPathMatch_firstTwo (request : Request) (seg : Bytes) :
    coapUriPathMatch [seg] request.firstTwo = true ↔ request.names [seg] := by
  unfold coapUriPathMatch Request.firstTwo Request.names coapFindOptions
  cases request.findFails with
  | true => simp
  | false =>
      -- the options found all have the number asked for, so filtering again keeps them
      have hfilter : ∀ opts : List CoapOption,
          ((opts.filter (·.number == COAP_OPTION_URI_PATH)).take 2).filter
            (·.number == COAP_OPTION_URI_PATH)
          = (opts.filter (·.number == COAP_OPTION_URI_PATH)).take 2 := by
        intro opts
        rw [List.filter_eq_self]
        intro o ho
        exact (List.mem_filter.mp (List.mem_of_mem_take ho)).2
      simp only [Bool.false_eq_true, if_false, hfilter, beq_iff_eq, true_and, Request.uriPath]
      generalize request.options.filter (·.number == COAP_OPTION_URI_PATH) = found
      match found with
      | [] => simp
      | [o] => simp
      | o :: o' :: rest => simp

/-- The builders the dispatcher chooses from; 4.04 is built on the spot. -/
inductive Builder
  | hello | ledGet | ledPut | notFound
  deriving DecidableEq, Repr

def Builder.build (gpio : Int) (request : Request) (bufLen : Nat) (led : Led) :
    Builder → Except Int Packet × Led
  | .hello => (buildHello bufLen request.token request.id, led)
  | .ledGet => (buildLedGet led bufLen request.token request.id, led)
  | .ledPut => buildLedPut gpio request bufLen request.token request.id led
  | .notFound =>
      (coapPacketInit bufLen COAP_VERSION_1 .ack request.token COAP_RESPONSE_CODE_NOT_FOUND
        request.id, led)

/-- The dispatcher's choice, from the two options it has asked for. -/
def selectBuilder (request : Request) : Builder :=
  if request.code = COAP_METHOD_GET ∧ coapUriPathMatch helloPath request.firstTwo then .hello
  else if coapUriPathMatch ledPath request.firstTwo ∧ request.code = COAP_METHOD_GET then .ledGet
  else if coapUriPathMatch ledPath request.firstTwo ∧ request.code = COAP_METHOD_PUT then .ledPut
  else .notFound

theorem coapServerDispatchInner_eq (gpio : Int) (request : Request) (bufLen : Nat) (led : Led) :
    coapServerDispatchInner gpio request bufLen led
      = (selectBuilder request).build gpio request bufLen led := by
  unfold selectBuilder
  rw [apply_ite (Builder.build gpio request bufLen led),
    apply_ite (Builder.build gpio request bufLen led),
    apply_ite (Builder.build gpio request bufLen led)]
  rfl

/-- The choice in terms of the whole Uri-Path. -/
theorem selectBuilder_eq (request : Request) :
    selectBuilder request =
      if request.code = COAP_METHOD_GET ∧ request.names helloPath then .hello
      else if request.names ledPath ∧ request.code = COAP_METHOD_GET then .ledGet
      else if request.names ledPath ∧ request.code = COAP_METHOD_PUT then .ledPut
      else .notFound := by
  have hhello : coapUriPathMatch helloPath request.firstTwo = true ↔ request.names helloPath :=
    uriPathMatch_firstTwo request _
  have hled : coapUriPathMatch ledPath request.firstTwo = true ↔ request.names ledPath :=
    uriPathMatch_firstTwo request _
  unfold selectBuilder
  simp only [hhello, hled]

/-! ### Answers -/

/-- Everything the dispatcher can answer: the response and the LED it leaves. -/
inductive Dispatched (gpio : Int) (request : Request) (bufLen : Nat) (led : Led) :
    Packet → Led → Prop
  | hello (hcode : request.code = COAP_METHOD_GET) (hpath : request.names helloPath) :
      Dispatched gpio request bufLen led
        (ackPacket bufLen request COAP_RESPONSE_CODE_CONTENT helloText) led
  | ledGet (hcode : request.code = COAP_METHOD_GET) (hpath : request.names ledPath) :
      Dispatched gpio request bufLen led
        (ackPacket bufLen request COAP_RESPONSE_CODE_CONTENT [ledByte led.state]) led
  | ledPutBad (hcode : request.code = COAP_METHOD_PUT) (hpath : request.names ledPath)
      (hvalue : putValue request.payload < 0) :
      Dispatched gpio request bufLen led
        (ackPacket bufLen request COAP_RESPONSE_CODE_BAD_REQUEST []) led
  | ledPut (hcode : request.code = COAP_METHOD_PUT) (hpath : request.names ledPath)
      (hvalue : 0 ≤ putValue request.payload) :
      Dispatched gpio request bufLen led
        (ackPacket bufLen request COAP_RESPONSE_CODE_CHANGED [])
        { state := decide (putValue request.payload ≠ 0)
          pin := gpioPinSetDt gpio (decide (putValue request.payload ≠ 0)) led.pin }
  | notFound (hhello : ¬ (request.code = COAP_METHOD_GET ∧ request.names helloPath))
      (hled : ¬ (request.names ledPath ∧
        (request.code = COAP_METHOD_GET ∨ request.code = COAP_METHOD_PUT))) :
      Dispatched gpio request bufLen led
        (ackPacket bufLen request COAP_RESPONSE_CODE_NOT_FOUND []) led

/-- Every fixed payload fits in 64 bytes, whatever the token. -/
theorem content_fits {bufLen : Nat} {request : Request} {payload : Bytes}
    (hbuf : 64 ≤ bufLen) (hlen : payload.length ≤ 30) : PayloadFits bufLen request payload := by
  have htkl := token_length request
  right
  omega

theorem buildHello_eq {bufLen : Nat} {request : Request} (hbuf : 64 ≤ bufLen) :
    buildHello bufLen request.token request.id
      = .ok (ackPacket bufLen request COAP_RESPONSE_CODE_CONTENT helloText) := by
  unfold buildHello
  rw [coapPacketInit_ack (by omega)]
  have happend := coapPacketAppend_ack bufLen request COAP_RESPONSE_CODE_CONTENT
    (by decide : helloText ≠ [])
  rw [if_pos (content_fits hbuf (by decide))] at happend
  exact happend

theorem buildLedGet_eq {bufLen : Nat} {request : Request} {led : Led} (hbuf : 64 ≤ bufLen) :
    buildLedGet led bufLen request.token request.id
      = .ok (ackPacket bufLen request COAP_RESPONSE_CODE_CONTENT [ledByte led.state]) := by
  unfold buildLedGet
  rw [coapPacketInit_ack (by omega)]
  have happend := coapPacketAppend_ack bufLen request COAP_RESPONSE_CODE_CONTENT
    (by simp : [ledByte led.state] ≠ [])
  rw [if_pos (content_fits hbuf (by simp))] at happend
  exact happend

/-- A PUT in any buffer with room for the header and the longest token. -/
theorem buildLedPut_eq (gpio : Int) (request : Request) {bufLen : Nat} (led : Led)
    (hbuf : 12 ≤ bufLen) :
    buildLedPut gpio request bufLen request.token request.id led =
      if putValue request.payload < 0 then
        (.ok (ackPacket bufLen request COAP_RESPONSE_CODE_BAD_REQUEST []), led)
      else
        (.ok (ackPacket bufLen request COAP_RESPONSE_CODE_CHANGED []),
          { state := decide (putValue request.payload ≠ 0)
            pin := gpioPinSetDt gpio (decide (putValue request.payload ≠ 0)) led.pin }) := by
  unfold buildLedPut
  simp only [coapPacketInit_ack hbuf]

/-- **What the dispatcher can answer**: it always builds a response. -/
theorem dispatch_ran (gpio : Int) (request : Request) {bufLen : Nat} (led : Led)
    (hbuf : 64 ≤ bufLen) :
    ∃ p led', coapServerDispatchInner gpio request bufLen led = (.ok p, led') ∧
      Dispatched gpio request bufLen led p led' := by
  rw [coapServerDispatchInner_eq, selectBuilder_eq]
  split
  · rename_i h
    exact ⟨_, _, by rw [Builder.build, buildHello_eq hbuf], .hello h.1 h.2⟩
  · rename_i hnohello
    split
    · rename_i h
      exact ⟨_, _, by rw [Builder.build, buildLedGet_eq hbuf], .ledGet h.2 h.1⟩
    · rename_i hnoget
      split
      · rename_i h
        rw [Builder.build, buildLedPut_eq gpio request led (by omega)]
        split
        · rename_i hvalue
          exact ⟨_, _, rfl, .ledPutBad h.2 h.1 hvalue⟩
        · rename_i hvalue
          exact ⟨_, _, rfl, .ledPut h.2 h.1 (by omega)⟩
      · rename_i hnoput
        refine ⟨_, _, by rw [Builder.build, coapPacketInit_ack (by omega)],
          .notFound hnohello ?_⟩
        rintro ⟨hpath, hcode | hcode⟩
        · exact hnoget ⟨hpath, hcode⟩
        · exact hnoput ⟨hpath, hcode⟩

/-- No response but that to `GET /led` depends on the LED. -/
theorem dispatch_fst_eq {request : Request} (gpio : Int) (bufLen : Nat)
    (hother : ¬ (request.code = COAP_METHOD_GET ∧ request.names ledPath)) (led led' : Led) :
    (coapServerDispatchInner gpio request bufLen led).1
      = (coapServerDispatchInner gpio request bufLen led').1 := by
  rw [coapServerDispatchInner_eq, coapServerDispatchInner_eq, selectBuilder_eq]
  split
  · rfl
  · split
    · rename_i hget
      exact absurd ⟨hget.2, hget.1⟩ hother
    · split
      · show (buildLedPut _ _ _ _ _ led).1 = (buildLedPut _ _ _ _ _ led').1
        unfold buildLedPut
        dsimp only
        split <;> rfl
      · rfl

/--
**Two slots are enough.**  The builder chosen from the first two Uri-Path options
is the one the complete Uri-Path asks for, and 4.04 is built in every other case.
-/
theorem dispatch_by_full_path (request : Request) :
    (∀ gpio bufLen led, coapServerDispatchInner gpio request bufLen led
      = (selectBuilder request).build gpio request bufLen led) ∧
    (selectBuilder request = .hello ↔ request.findFails = false ∧
      request.code = COAP_METHOD_GET ∧ request.uriPath = helloPath) ∧
    (selectBuilder request = .ledGet ↔ request.findFails = false ∧
      request.code = COAP_METHOD_GET ∧ request.uriPath = ledPath) ∧
    (selectBuilder request = .ledPut ↔ request.findFails = false ∧
      request.code = COAP_METHOD_PUT ∧ request.uriPath = ledPath) ∧
    (selectBuilder request = .notFound ↔
      request.findFails = true ∨
      ¬ (request.code = COAP_METHOD_GET ∧ request.uriPath = helloPath) ∧
      ¬ ((request.code = COAP_METHOD_GET ∨ request.code = COAP_METHOD_PUT) ∧
        request.uriPath = ledPath)) := by
  refine ⟨fun gpio bufLen led => coapServerDispatchInner_eq gpio request bufLen led, ?_⟩
  have hpaths : helloPath ≠ ledPath := by decide
  have hcodes : COAP_METHOD_GET ≠ COAP_METHOD_PUT := by decide
  rw [selectBuilder_eq]
  unfold Request.names
  -- what is left is a table: the two methods and the two paths exclude each other
  by_cases hfails : request.findFails = true
  · simp [hfails]
  · simp only [hfails, true_and]
    grind

end UsbNcmNet
