/-
What the other two handlers can do, and what no handler does.

`OscoreRan` and `AppRan` are for the OSCORE intercept and the plaintext handler
what `EdhocRan` is for the responder.  Both go through the dispatcher, which
reads and writes nothing but the LED.
-/
import UsbNcmNet.Proofs.Responder

namespace UsbNcmNet

variable {σ : Type}

/-! ### The OSCORE intercept -/

/-- Everything a root-path POST can do: what it returns and the board it leaves. -/
inductive OscoreRan (osc : OscoreEngine σ) (b : Board σ) : Int → Board σ → Prop
  | notReady (hready : b.dev.oscoreReady = false) :
      OscoreRan osc b (-ENOTCONN) { b with log := b.log ++ [.oscorePost] }
  | rejected {r : Int} (hready : b.dev.oscoreReady = true) :
      OscoreRan osc b r
        { dev := { b.dev with oscoreCtx := osc.oscore2coap.2 }
          log := b.log ++ [.oscorePost, .oscore2coap osc.oscore2coap.1 osc.oscore2coap.2] }
  | unbuilt {inner : Request} {led : Led} {r : Int} (hready : b.dev.oscoreReady = true)
      (hinner : osc.inner = .ok inner)
      (hbuild : coapServerDispatchInner osc.gpio inner EDHOC_MSG_MAX b.dev.led = (.error r, led)) :
      OscoreRan osc b r
        { dev := { b.dev with oscoreCtx := osc.oscore2coap.2, led := led }
          log := b.log ++ [.oscorePost, .oscore2coap osc.oscore2coap.1 osc.oscore2coap.2,
            .dispatchInner inner (.error r)] }
  | answered {inner : Request} {p : Packet} {led : Led} {r : Int} {tail : List (Call σ)}
      (hready : b.dev.oscoreReady = true) (hinner : osc.inner = .ok inner)
      (hbuild : coapServerDispatchInner osc.gpio inner EDHOC_MSG_MAX b.dev.led = (.ok p, led))
      (htail : tail = [] ∨ tail = [.coapResourceSend (.verbatim (osc.coap2oscore p.data).out)]) :
      OscoreRan osc b r
        { dev := { b.dev with oscoreCtx := (osc.coap2oscore p.data).ctx, led := led }
          log := b.log ++ ([.oscorePost, .oscore2coap osc.oscore2coap.1 osc.oscore2coap.2,
            .dispatchInner inner (.ok p),
            .coap2oscore p.data (osc.coap2oscore p.data).err (osc.coap2oscore p.data).ctx]
            ++ tail) }

/-- **What an OSCORE POST can do.** -/
theorem oscorePost_ran (osc : OscoreEngine σ) (b : Board σ) :
    OscoreRan osc b (b.ret (.oscore osc)) (b.step (.oscore osc)) := by
  unfold Board.ret Board.step Event.handler oscorePost
  cases hready : b.dev.oscoreReady with
  | false =>
      have : OscoreRan osc b _ _ := .notReady hready
      simpa [hready] using this
  | true =>
      by_cases hpkt : osc.oscore2coap.1 = .notOscorePkt
      · have : OscoreRan osc b (-ENOENT) _ := .rejected hready
        simpa [hready, hpkt] using this
      by_cases herr : osc.oscore2coap.1 ≠ .ok ∧ osc.oscore2coap.1 ≠ .firstRequestAfterReboot
      · have : OscoreRan osc b (-EBADMSG) _ := .rejected hready
        simpa [hready, hpkt, herr] using this
      cases hinner : osc.inner with
      | error r =>
          have : OscoreRan osc b r _ := .rejected hready
          simpa [hready, hpkt, herr, hinner] using this
      | ok inner =>
          cases hbuild : coapServerDispatchInner osc.gpio inner EDHOC_MSG_MAX b.dev.led with
          | mk built led =>
              cases built with
              | error r =>
                  have := OscoreRan.unbuilt hready hinner hbuild
                  simpa [hready, hpkt, herr, hinner, hbuild] using this
              | ok p =>
                  by_cases henc : (osc.coap2oscore p.data).err = .ok
                  · have := OscoreRan.answered (r := osc.send) hready hinner hbuild (.inr rfl)
                    simpa [hready, hpkt, herr, hinner, hbuild, henc] using this
                  · have := OscoreRan.answered (r := -EBADMSG) hready hinner hbuild (.inl rfl)
                    simpa [hready, hpkt, herr, hinner, hbuild, henc] using this

/-! ### The plaintext handler -/

/-- Everything a plaintext request can do: what it returns and the board it leaves. -/
inductive AppRan (gpio : Int) (request : Request) (b : Board σ) : Board σ → Prop
  | mk {built : Except Int Packet} {led : Led} {tail : List (Call σ)}
      (hbuild : coapServerDispatchInner gpio request CONFIG_COAP_SERVER_MESSAGE_SIZE b.dev.led
        = (built, led))
      (htail : tail = [] ∨ ∃ p, tail = [.coapResourceSend (.packet p)]) :
      AppRan gpio request b
        { dev := { b.dev with led := led }, log := b.log ++ (.dispatchInner request built :: tail) }

/-- **What a plaintext request can do.** -/
theorem appRequest_ran (gpio send : Int) (request : Request) (b : Board σ) :
    AppRan gpio request b (b.step (.app request gpio send)) := by
  unfold Board.step Event.handler appRequest
  cases hbuild : coapServerDispatchInner gpio request CONFIG_COAP_SERVER_MESSAGE_SIZE b.dev.led with
  | mk built led =>
      cases built with
      | error r =>
          have := AppRan.mk (b := b) hbuild (.inl rfl)
          simpa [hbuild] using this
      | ok p =>
          have := AppRan.mk (b := b) hbuild (.inr ⟨p, rfl⟩)
          simpa [hbuild] using this

/-! ### Requests that are no business of the responder -/

/-- The entries of serving a request: decrypting, dispatching, encrypting, sending. -/
def Call.serves : Call σ → Bool
  | .oscorePost | .oscore2coap _ _ | .coap2oscore _ _ _ | .dispatchInner _ _
  | .coapResourceSend _ => true
  | _ => false

/-- What goes to `coap_resource_send`, if that is what the entry is. -/
def Call.outgoing : Call σ → Option Outgoing
  | .coapResourceSend out => some out
  | _ => none

/-- What holds of each of these five holds of everything that serving a request does. -/
theorem serves_rule {P : Call σ → Prop} {cs : List (Call σ)} (h : ∀ c ∈ cs, c.serves = true)
    (hpost : P .oscorePost) (hopen : ∀ err ctx, P (.oscore2coap err ctx))
    (hprotect : ∀ data err ctx, P (.coap2oscore data err ctx))
    (hdispatch : ∀ request built, P (.dispatchInner request built))
    (hsend : ∀ out, P (.coapResourceSend out)) : ∀ c ∈ cs, P c := by
  intro c hc
  have hserves := h c hc
  cases c with
  | oscorePost => exact hpost
  | oscore2coap err ctx => exact hopen err ctx
  | coap2oscore data err ctx => exact hprotect data err ctx
  | dispatchInner request built => exact hdispatch request built
  | coapResourceSend out => exact hsend out
  | _ => exact Bool.noConfusion hserves

theorem settles_of_serves {cs : List (Call σ)} (h : ∀ c ∈ cs, c.serves = true) :
    ∀ c ∈ cs, c.settles = false :=
  serves_rule h rfl (fun _ _ => rfl) (fun _ _ _ => rfl) (fun _ _ => rfl) fun _ => rfl

theorem Replied.serves {eng : Engine σ} {request : Request} {rc ret : Int} {out : Bytes}
    {tail : List (Call σ)} (h : Replied eng request rc out ret tail) :
    ∀ c ∈ tail, c.serves = true := by
  cases h <;> simp [Call.serves]

theorem Event.edhoc_or_not (e : Event σ) :
    (∃ request eng, e = .edhoc request eng) ∨ ∀ request eng, e ≠ .edhoc request eng := by
  cases e with
  | edhoc request eng => exact .inl ⟨request, eng, rfl⟩
  | oscore osc => exact .inr (by simp)
  | app request gpio send => exact .inr (by simp)

/-- What a request that is no EDHOC POST leaves alone: both flags and the buffers. -/
structure Served (b b' : Board σ) : Prop where
  log : ∃ new, b'.log = b.log ++ new ∧ ∀ c ∈ new, c.serves = true
  ready : b'.dev.oscoreReady = b.dev.oscoreReady
  active : b'.dev.edhocCtxActive = b.dev.edhocCtxActive
  keys : b'.dev.keys = b.dev.keys

theorem served_of_not_edhoc {b : Board σ} {e : Event σ}
    (he : ∀ request eng, e ≠ .edhoc request eng) : Served b (b.step e) := by
  cases e with
  | edhoc request eng => exact absurd rfl (he request eng)
  | oscore osc =>
      have hran := oscorePost_ran osc b
      generalize b.ret (.oscore osc) = r, b.step (.oscore osc) = b' at hran
      cases hran with
      | notReady _ => exact ⟨⟨_, rfl, by simp [Call.serves]⟩, rfl, rfl, rfl⟩
      | rejected _ => exact ⟨⟨_, rfl, by simp [Call.serves]⟩, rfl, rfl, rfl⟩
      | unbuilt _ _ _ => exact ⟨⟨_, rfl, by simp [Call.serves]⟩, rfl, rfl, rfl⟩
      | answered _ _ _ htail =>
          refine ⟨⟨_, rfl, ?_⟩, rfl, rfl, rfl⟩
          rcases htail with rfl | rfl <;> simp [Call.serves]
  | app request gpio send =>
      have hran := appRequest_ran gpio send request b
      generalize b.step (.app request gpio send) = b' at hran
      cases hran with
      | mk _ htail =>
          refine ⟨⟨_, rfl, ?_⟩, rfl, rfl, rfl⟩
          rcases htail with rfl | ⟨p, rfl⟩ <;> simp [Call.serves]

/-- Such a request leaves every other kind of entry as it found it. -/
theorem mem_log_of_not_edhoc {b : Board σ} {e : Event σ} {c : Call σ}
    (he : ∀ request eng, e ≠ .edhoc request eng) (hc : c ∈ (b.step e).log)
    (hserves : c.serves = false) : c ∈ b.log := by
  obtain ⟨new, hlog, hnew⟩ := (served_of_not_edhoc (b := b) he).log
  rw [hlog, List.mem_append] at hc
  rcases hc with hc | hc
  · exact hc
  · rw [hnew c hc] at hserves
    exact Bool.noConfusion hserves

/-! ### What the responder leaves alone -/

/-- The entries of an EDHOC POST: the handshake's own, and the reply. -/
def Call.responds : Call σ → Bool
  | .oscorePost | .oscore2coap _ _ | .coap2oscore _ _ _ | .dispatchInner _ _ => false
  | _ => true

theorem responds_setup (eng : Engine σ) (d : Device σ) :
    (∀ c ∈ resetLog d, c.responds = true) ∧ ∀ c ∈ setupLog eng, c.responds = true := by
  constructor
  · unfold resetLog
    split <;> simp [Call.responds]
  · intro c hc
    rcases List.mem_cons.mp hc with rfl | hc
    · rfl
    · obtain ⟨s, r, rfl⟩ := mem_configureLog hc
      rfl

/-- An EDHOC POST neither dispatches nor touches the LED. -/
theorem responds_edhoc (b : Board σ) (request : Request) (eng : Engine σ) :
    (∃ new, (b.step (.edhoc request eng)).log = b.log ++ new ∧ ∀ c ∈ new, c.responds = true) ∧
      (b.step (.edhoc request eng)).dev.led = b.dev.led := by
  have hran := edhocPost_ran eng request b
  generalize b.ret (.edhoc request eng) = r, b.step (.edhoc request eng) = b' at hran
  have htail : ∀ {rc ret out tail}, Replied eng request rc out ret tail →
      ∀ c ∈ tail, c.responds = true := by
    intro rc ret out tail h
    cases h <;> simp [Call.responds]
  cases hran with
  | rejected _ => exact ⟨⟨_, rfl, by simp [Call.responds]⟩, rfl⟩
  | message1 _ hran hreply =>
      obtain ⟨hreset, hsetup⟩ := responds_setup eng b.dev
      have htail := htail hreply
      cases hran <;> refine ⟨⟨_, rfl, ?_⟩, rfl⟩ <;>
        simp only [List.mem_append, List.mem_cons, List.not_mem_nil, or_false] <;>
        grind [Call.responds]
  | message3 _ hran hreply =>
      have htail := htail hreply
      cases hran <;> refine ⟨⟨_, rfl, ?_⟩, rfl⟩ <;>
        simp only [List.mem_append, List.mem_cons, List.not_mem_nil, or_false] <;>
        grind [Call.responds]

/-- The log only grows. -/
theorem log_grows (b : Board σ) (e : Event σ) : ∃ new, (b.step e).log = b.log ++ new := by
  rcases e.edhoc_or_not with ⟨request, eng, rfl⟩ | he
  · obtain ⟨⟨new, hlog, -⟩, -⟩ := responds_edhoc b request eng
    exact ⟨new, hlog⟩
  · obtain ⟨new, hlog, -⟩ := (served_of_not_edhoc (b := b) he).log
    exact ⟨new, hlog⟩

theorem newCalls_eq {b : Board σ} {e : Event σ} {new : List (Call σ)}
    (h : (b.step e).log = b.log ++ new) : b.newCalls e = new := by
  simp [Board.newCalls, h]

/-! ### A handshake that goes through

Concrete requests and answers, for the places where a statement is shown at work
on one run.
-/

/-- A confirmable POST to `/.well-known/edhoc`. -/
def edhocRequest (payload : Bytes) : Request where
  type := .con
  code := COAP_METHOD_POST
  id := 1
  token := ⟨[], by decide⟩
  options := edhocPath.map fun seg => ⟨COAP_OPTION_URI_PATH, seg⟩
  findFails := false
  payload := some payload

/-- Key material for a session with the given identifiers, one byte each. -/
def sampleKeys (sender recipient : UInt8) : KeyBuffers where
  masterSecret := Vector.replicate 16 0x11
  masterSalt := Vector.replicate 8 0x22
  senderId := (Vector.replicate 8 0).set 0 sender
  recipientId := (Vector.replicate 8 0).set 0 recipient

/-- Libraries that accept everything: short messages, and the identifiers of the deployment. -/
def willing : Engine Unit where
  contextInit := 0
  configure := fun _ => 0
  message1Process := 0
  message2Compose := ⟨0, [2]⟩
  message3Process := 0
  message4Compose := ⟨0, [4]⟩
  exportOscoreSession := ⟨0, sampleKeys (cidToCbor edCIInt.val) (cidToCbor edCRInt.val), 1, 1⟩
  oscoreContextInit := (.ok, ())
  send := 0

/-- message_1, then message_3 behind the encoded C_R. -/
def wholeHandshake : List (Event Unit) :=
  [.edhoc (edhocRequest [0xf5, 1]) willing,
    .edhoc (edhocRequest [cidToCbor edCRInt.val, 3]) willing]

example : ((board ()).run wholeHandshake).dev.oscoreReady = true := rfl

/-- A library that opens the given request and protects whatever response it is handed. -/
def opening (request : Request) : OscoreEngine Unit where
  oscore2coap := (.ok, ())
  inner := .ok request
  gpio := 0
  coap2oscore := fun data => ⟨.ok, 0x5a :: data, ()⟩
  send := 0

end UsbNcmNet
