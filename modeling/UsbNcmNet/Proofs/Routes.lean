/-
Where the two routes agree.

Routing is written twice: as the resource table, which the service consults for a
request in the clear, and as the if-chain of the dispatcher, which is all a
decrypted request goes through.  The table knows which methods a resource has and
answers 4.05 for the others; the dispatcher folds method and path into one test
and answers everything it does not handle with 4.04.  That is the only difference.
-/
import UsbNcmNet.Proofs.Dispatch

namespace UsbNcmNet

/-- A method that the resource at the request's path does not have. -/
def Request.NotAllowed (request : Request) : Prop :=
  (request.uriPath = helloPath ∧ request.code ≠ COAP_METHOD_GET) ∨
    (request.uriPath = ledPath ∧ request.code ≠ COAP_METHOD_GET ∧
      request.code ≠ COAP_METHOD_PUT)

instance (request : Request) : Decidable request.NotAllowed :=
  inferInstanceAs (Decidable (_ ∨ _))

/-! ### The table -/

theorem coapUriPathMatch_iff (request : Request) (path : List Bytes) :
    coapUriPathMatch path request.options = true ↔ request.uriPath = path := by
  unfold coapUriPathMatch Request.uriPath
  exact beq_iff_eq

/-- The table searched for a path that is neither of the security resources'. -/
theorem find_resource (request : Request) (hroot : request.uriPath ≠ [])
    (hedhoc : request.uriPath ≠ edhocPath) :
    resources.find? (fun r => coapUriPathMatch r.path request.options) =
      if request.uriPath = helloPath then some hello
      else if request.uriPath = ledPath then some led else none := by
  have hiff : ∀ r : Resource,
      (fun r : Resource => coapUriPathMatch r.path request.options) r = true ↔
        request.uriPath = r.path :=
    fun r => coapUriPathMatch_iff request r.path
  generalize (fun r : Resource => coapUriPathMatch r.path request.options) = m at hiff ⊢
  unfold resources
  rw [List.find?_cons_of_neg (mt (hiff edhoc).mp hedhoc)]
  by_cases hhello : request.uriPath = helloPath
  · rw [if_pos hhello, List.find?_cons_of_pos ((hiff hello).mpr hhello)]
  · rw [if_neg hhello, List.find?_cons_of_neg (mt (hiff hello).mp hhello)]
    by_cases hled : request.uriPath = ledPath
    · rw [if_pos hled, List.find?_cons_of_pos ((hiff led).mpr hled)]
    · rw [if_neg hled, List.find?_cons_of_neg (mt (hiff led).mp hled),
        List.find?_cons_of_neg (mt (hiff oscoreRoot).mp hroot), List.find?_nil]

/-- What the service does with a request that is for neither of the security resources. -/
inductive LookedUp (request : Request) : Except UInt8 Handler → Prop
  | app (h : ¬ request.NotAllowed) : LookedUp request (.ok .appRequest)
  | notAllowed (h : request.NotAllowed) : LookedUp request (.error COAP_RESPONSE_CODE_NOT_ALLOWED)
  | notFound (hhello : request.uriPath ≠ helloPath) (hled : request.uriPath ≠ ledPath) :
      LookedUp request (.error COAP_RESPONSE_CODE_NOT_FOUND)

theorem lookedUp (request : Request) (hroot : request.uriPath ≠ [])
    (hedhoc : request.uriPath ≠ edhocPath) : LookedUp request (coapServiceLookup request) := by
  unfold coapServiceLookup
  rw [find_resource request hroot hedhoc]
  by_cases hhello : request.uriPath = helloPath
  · have hne : helloPath ≠ ledPath := by decide
    rw [if_pos hhello]
    by_cases hget : request.code = COAP_METHOD_GET
    · have : hello.method request.code = some .appRequest := by rw [hget]; decide
      simp only [this]
      exact .app (by simp [Request.NotAllowed, hhello, hget, hne])
    · have : hello.method request.code = none := by
        simp [Resource.method, hello, hget]
      simp only [this]
      exact .notAllowed (.inl ⟨hhello, hget⟩)
  · rw [if_neg hhello]
    by_cases hled : request.uriPath = ledPath
    · rw [if_pos hled]
      by_cases hget : request.code = COAP_METHOD_GET
      · have : led.method request.code = some .appRequest := by rw [hget]; decide
        simp only [this]
        exact .app (by simp [Request.NotAllowed, hhello, hget])
      · by_cases hput : request.code = COAP_METHOD_PUT
        · have : led.method request.code = some .appRequest := by rw [hput]; decide
          simp only [this]
          exact .app (by simp [Request.NotAllowed, hhello, hput])
        · have : led.method request.code = none := by
            simp [Resource.method, led, hget, hput]
          simp only [this]
          exact .notAllowed (.inr ⟨hled, hget, hput⟩)
    · rw [if_neg hled]
      exact .notFound hhello hled

/-! ### The two routes -/

/-- What the dispatcher makes of a request no resource of the application handles. -/
theorem innerRoute_notFound {gpio : Int} {request : Request} {led : Led}
    (hhello : ¬ (request.code = COAP_METHOD_GET ∧ request.uriPath = helloPath))
    (hled : ¬ (request.uriPath = ledPath ∧
      (request.code = COAP_METHOD_GET ∨ request.code = COAP_METHOD_PUT))) :
    innerRoute gpio request led = some ⟨COAP_RESPONSE_CODE_NOT_FOUND, [], led⟩ := by
  obtain ⟨p, led', hdispatch, hran⟩ :=
    dispatch_ran gpio request led (by decide : 64 ≤ EDHOC_MSG_MAX)
  rw [innerRoute, hdispatch]
  cases hran with
  | hello hcode hpath => exact absurd ⟨hcode, hpath.2⟩ hhello
  | ledGet hcode hpath => exact absurd ⟨hpath.2, .inl hcode⟩ hled
  | ledPutBad hcode hpath _ => exact absurd ⟨hpath.2, .inr hcode⟩ hled
  | ledPut hcode hpath _ => exact absurd ⟨hpath.2, .inr hcode⟩ hled
  | notFound _ _ => rfl

/--
**The two routes agree up to 4.05.**  For every request to a path other than the
root and `/.well-known/edhoc`, both routes answer and leave the same LED; where
the resource has the method, or there is no resource, the answers are the same,
and where it lacks the method the clear route says 4.05 and the inner one 4.04.
-/
theorem routes_agree (gpio : Int) (request : Request) (led : Led)
    (hroot : request.uriPath ≠ []) (hedhoc : request.uriPath ≠ edhocPath) :
    ∃ clear inner, clearRoute gpio request led = some clear ∧
      innerRoute gpio request led = some inner ∧
      if request.NotAllowed then
        clear = ⟨COAP_RESPONSE_CODE_NOT_ALLOWED, [], led⟩ ∧
          inner = ⟨COAP_RESPONSE_CODE_NOT_FOUND, [], led⟩
      else clear = inner := by
  have hlook := lookedUp request hroot hedhoc
  unfold clearRoute
  generalize coapServiceLookup request = looked at hlook
  cases hlook with
  | app h =>
      obtain ⟨p, led', hdispatch, -⟩ :=
        dispatch_ran gpio request led (by decide : 64 ≤ EDHOC_MSG_MAX)
      -- both buffers have 256 bytes
      refine ⟨⟨p.code, p.payload, led'⟩, ⟨p.code, p.payload, led'⟩, ?_, ?_, by rw [if_neg h]⟩
      · show answerOf (coapServerDispatchInner gpio request EDHOC_MSG_MAX led) = _
        rw [hdispatch]
        rfl
      · rw [innerRoute, hdispatch]
        rfl
  | notAllowed h =>
      refine ⟨_, _, rfl, innerRoute_notFound ?_ ?_, by rw [if_pos h]; exact ⟨rfl, rfl⟩⟩
      · rintro ⟨hget, hpath⟩
        rcases h with ⟨-, hne⟩ | ⟨-, hne, -⟩ <;> exact hne hget
      · rintro ⟨hpath, hcode⟩
        rcases h with ⟨hpath', -⟩ | ⟨-, hget, hput⟩
        · exact absurd (hpath.symm.trans hpath') (by decide)
        · exact hcode.elim hget hput
  | notFound hhello hled =>
      refine ⟨_, _, rfl, innerRoute_notFound (fun h => hhello h.2) (fun h => hled h.1), ?_⟩
      rw [if_neg (by simp [Request.NotAllowed, hhello, hled])]

theorem routes_agree_on_put_led :
    ∃ clear inner,
      clearRoute 0 (requestTo COAP_METHOD_PUT ledPath (some (ascii ['o', 'n']))) Led.boot
        = some clear ∧
      innerRoute 0 (requestTo COAP_METHOD_PUT ledPath (some (ascii ['o', 'n']))) Led.boot
        = some inner ∧ clear = inner := by
  obtain ⟨clear, inner, hclear, hinner, h⟩ := routes_agree 0
    (requestTo COAP_METHOD_PUT ledPath (some (ascii ['o', 'n']))) Led.boot (by decide) (by decide)
  have hallowed : ¬ (requestTo COAP_METHOD_PUT ledPath (some (ascii ['o', 'n']))).NotAllowed := by
    decide
  rw [if_neg hallowed] at h
  exact ⟨clear, inner, hclear, hinner, h⟩

/-- PUT on `hello`: Method Not Allowed in the clear, Not Found inside. -/
theorem routes_differ_on_put_hello :
    let request := requestTo COAP_METHOD_PUT helloPath (some (ascii ['1']))
    request.uriPath ≠ [] ∧ request.uriPath ≠ edhocPath ∧
      (clearRoute 0 request Led.boot).map Answer.code
        ≠ (innerRoute 0 request Led.boot).map Answer.code := by
  decide

end UsbNcmNet
