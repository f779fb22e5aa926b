/-
Nothing is asked for before the device is known.

The handshake is a row of calls, each of which has to succeed for the next one to be
made; every failure ends the program there.  Only behind the last of them is a request
protected, and then every request of the command line is, whatever becomes of those
before it.
-/
import UsbNcmNet.Host.Program

namespace UsbNcmNet

open Initiator Calls Trace

/-! ### The handshake as a row of calls -/

/-- What `edhoc_post` calls. -/
def postCalls (m : Posted) : List ClientCall :=
  [.postSend m, .postRecv m, .postValidate m, .postPayloadLength m]

def handshakeCalls : List ClientCall :=
  [.psaCryptoInit, .sockInit, .setRcvTimeo 5] ++ contextSetup ++ [.message1Compose]
    ++ postCalls .message1 ++ [.message2Process, .message3Compose] ++ postCalls .message3
    ++ [.message4Process, .exportOscoreSession, .contextDeinit, .oscoreContextInit]

/-- What the program takes for success. -/
def succeeds : ClientCall → Int → Bool
  | .sockInit, r | .postSend _, r | .postRecv _, r => !decide (r < 0)
  | .postValidate _, r => !decide (r = 0)
  | .postPayloadLength _, r => !decide ((MSG_MAX : Int) < r)
  | .setRcvTimeo _, _ | .contextDeinit, _ => true
  | _, r => r = 0

/-- `edhoc_post`, where the program goes on only if it returns 0. -/
theorem edhocPost_then {α : Type} (m : Posted) (failed rest : Calls ClientCall α) :
    (Initiator.edhocPost m >>= fun r => if r ≠ 0 then failed else rest)
      = require succeeds failed rest (postCalls m) := by
  simp only [Initiator.edhocPost, postCalls, succeeds, require_cons, require_nil, ite_then,
    bind_assoc, pure_bind, gt_iff_lt, ne_eq, ite_not, Int.reduceNeg, Int.neg_eq_zero,
    Int.reduceEq, ↓reduceIte, Bool.not_eq_eq_eq_not, Bool.not_true, decide_eq_false_iff_not]

/-- The handshake, and the program with it, is a row of calls. -/
theorem main_eq (reboot : Int) (argv : List (List Char)) :
    main reboot argv = require succeeds (return some 1)
      (serve reboot (Options.default.parse argv)) handshakeCalls := by
  generalize ho : Options.default.parse argv = o
  have hsetup : ∀ rest, require (fun _ r => r = EDHOC_SUCCESS) (return some 1) rest contextSetup
      = require succeeds (return (some 1 : Option Int)) rest contextSetup := fun rest => rfl
  have hhandshake : handshake reboot o = require succeeds (return some 1) (serve reboot o)
      ([.message1Compose] ++ postCalls .message1 ++ [.message2Process, .message3Compose]
        ++ postCalls .message3
        ++ [.message4Process, .exportOscoreSession, .contextDeinit, .oscoreContextInit]) := by
    simp only [handshake, edhocPost_then, require_append]
    simp only [succeeds, EDHOC_SUCCESS, require_cons, require_nil, ne_eq, ite_not,
      decide_eq_true_eq, ↓reduceIte]
  unfold main
  dsimp only
  rw [ho, hsetup, hhandshake, ← require_append]
  simp only [handshakeCalls, succeeds, require_cons, List.cons_append, List.nil_append,
    List.append_assoc, ne_eq, ite_not, decide_eq_true_eq, ↓reduceIte, Bool.not_eq_eq_eq_not,
    Bool.not_true, decide_eq_false_iff_not]

/-! ### What comes before what -/

/-- The handshake has been made from end to end. -/
def Authenticated (h : List (ClientCall × Int)) : Prop :=
  ∃ new rest, h = new ++ rest ∧ Passed succeeds handshakeCalls new

theorem Authenticated.append {h : List (ClientCall × Int)} (ha : Authenticated h)
    (h' : List (ClientCall × Int)) : Authenticated (h ++ h') := by
  obtain ⟨new, rest, rfl, hnew⟩ := ha
  exact ⟨new, rest ++ h', by rw [List.append_assoc], hnew⟩

/-- The calls behind the handshake. -/
def Initiator.ClientCall.behind : ClientCall → Bool
  | .setRcvTimeo seconds => seconds = 2
  | .coap2oscore _ | .send _ | .recv _ | .oscore2coap _ | .validate _ | .close => true
  | _ => false

/-- The next call of the handshake, or any call behind it as long as the socket is open. -/
def Allowed (h : List (ClientCall × Int)) (c : ClientCall) : Prop :=
  (∃ past todo, handshakeCalls = past ++ c :: todo ∧ Passed succeeds past h) ∨
    (c.behind = true ∧ Authenticated h ∧ ∀ r, (.close, r) ∉ h)

/-- The request that a call begins. -/
def begun : ClientCall × Int → Option AppRequest
  | (.coap2oscore r, _) => some r
  | _ => none

/-- The handshake and then the given requests have been made. -/
structure Serving (h : List (ClientCall × Int)) (rs : List AppRequest) : Prop where
  authenticated : Authenticated h
  requests : h.filterMap begun = rs
  isOpen : ∀ r, (.close, r) ∉ h

/-- What the command line asks for. -/
def Initiator.Options.requests (o : Options) : List AppRequest :=
  if o.bench then
    let each := fun r => List.replicate (o.count + o.warmup).toNat r
    each getHello ++ each getLed ++ each (putLed '1')
  else demo

/-- The ways the program ends, with the calls it has made. -/
inductive Ended (o : Options) : List (ClientCall × Int) → Option Int → Prop
  /-- At the first call of the handshake that failed. -/
  | failed {past todo : List ClientCall} {c : ClientCall} {h : List (ClientCall × Int)} {r : Int}
      (hcs : handshakeCalls = past ++ c :: todo) (hpast : Passed succeeds past h)
      (hr : succeeds c r = false) : Ended o (h ++ [(c, r)]) (some 1)
  | terminated {h : List (ClientCall × Int)} (hbench : o.bench = true)
      (hcount : o.count < 0 ∨ INT_MAX < o.count + o.warmup) (hserving : Serving h []) :
      Ended o h none
  | finished {h : List (ClientCall × Int)} (hserving : Serving h o.requests) (r : Int) :
      Ended o (h ++ [(.close, r)]) (some 0)

/-! ### Requests -/

section

variable {h : List (ClientCall × Int)} {rs : List AppRequest} {c : ClientCall}

theorem Serving.allowed (hs : Serving h rs) (hc : c.behind = true) : Allowed h c :=
  .inr ⟨hc, hs.authenticated, hs.isOpen⟩

/-- A call that does not close the socket. -/
theorem Serving.called (hs : Serving h rs) (hc : c ≠ .close) (r : Int) :
    Serving (h ++ [(c, r)]) (rs ++ (begun (c, r)).toList) := by
  refine ⟨hs.authenticated.append _, ?_, ?_⟩
  · rw [List.filterMap_append, hs.requests]
    cases hb : begun (c, r) <;> simp [hb]
  · intro r' hr'
    rcases List.mem_append.mp hr' with hr' | hr'
    · exact hs.isOpen r' hr'
    · exact hc (Prod.mk.inj (List.mem_singleton.mp hr')).1.symm

/-- And begins no request. -/
theorem Serving.goes (hs : Serving h rs) (hc : c ≠ .close) (r : Int)
    (hnone : begun (c, r) = none) : Serving (h ++ [(c, r)]) rs := by
  have := hs.called hc r
  rwa [hnone, Option.toList_none, List.append_nil] at this

/-- `oscore_request` makes its request and no other. -/
theorem oscoreRequest_runs (reboot : Int) (r : AppRequest) (hs : Serving h rs) :
    Runs Allowed (fun h _ => Serving h (rs ++ [r])) h (Initiator.oscoreRequest reboot r) := by
  refine Runs.perform (hs.allowed rfl) fun x => ?_
  replace hs : Serving (h ++ [(.coap2oscore r, x)]) (rs ++ [r]) :=
    hs.called (c := .coap2oscore r) nofun x
  split
  · exact hs
  refine Runs.perform (hs.allowed rfl) fun x => ?_
  replace hs := hs.goes (c := .send r) nofun x rfl
  split
  · exact hs
  refine Runs.perform (hs.allowed rfl) fun x => ?_
  replace hs := hs.goes (c := .recv r) nofun x rfl
  split
  · exact hs
  refine Runs.perform (hs.allowed rfl) fun x => ?_
  replace hs := hs.goes (c := .oscore2coap r) nofun x rfl
  split
  · exact hs
  refine Runs.perform (hs.allowed rfl) fun x => ?_
  replace hs := hs.goes (c := .validate r) nofun x rfl
  split
  · exact hs
  · exact hs

theorem requestAll_runs (reboot : Int) (next : List AppRequest) :
    ∀ {h rs}, Serving h rs →
      Runs Allowed (fun h _ => Serving h (rs ++ next)) h (requestAll reboot next) := by
  induction next with
  | nil =>
      intro h rs hs
      show Serving h (rs ++ [])
      rw [List.append_nil]
      exact hs
  | cons r next ih =>
      intro h rs hs
      refine (oscoreRequest_runs reboot r hs).bind fun h' _ hs' => ?_
      have := ih hs'
      rwa [List.append_assoc] at this

/-- The handshake requests nothing and leaves the socket open. -/
theorem serving_handshake {new : List (ClientCall × Int)}
    (hnew : Passed succeeds handshakeCalls new) : Serving new [] := by
  have hnone : ∀ c ∈ handshakeCalls, ∀ r, begun (c, r) = none ∧ c ≠ .close := by
    simp [handshakeCalls, contextSetup, clientSetupCalls, postCalls, begun]
  have hmem : ∀ e ∈ new, e.1 ∈ handshakeCalls := by
    intro e he
    rw [← hnew.calls]
    exact List.mem_map_of_mem he
  refine ⟨⟨new, [], (List.append_nil new).symm, hnew⟩, ?_, ?_⟩
  · exact List.filterMap_eq_nil_iff.mpr fun e he => (hnone e.1 (hmem e he) e.2).1
  · exact fun r hr => (hnone _ (hmem _ hr) r).2 rfl

/-- The loop of one endpoint, where the counts allow one. -/
theorem benchEndpoint_runs (reboot : Int) (r : AppRequest) {count warmup : Int}
    (hs : Serving h rs) :
    Runs Allowed (fun h ok => (ok = false ↔ count < 0 ∨ INT_MAX < count + warmup) ∧
        Serving h (if ok then rs ++ List.replicate (count + warmup).toNat r else rs)) h
      (Initiator.benchEndpoint reboot r count warmup) := by
  unfold Initiator.benchEndpoint
  split
  · rename_i hcount
    exact ⟨by simp [hcount], hs⟩
  · rename_i hcount
    exact (requestAll_runs reboot _ hs).bind fun h' _ hs' => ⟨by simp [hcount], hs'⟩

/-- The socket is closed, and that is all. -/
theorem close_runs {o : Options} (hs : Serving h o.requests) :
    Runs Allowed (Ended o) h (perform .close >>= fun _ => return some 0) :=
  Runs.perform (hs.allowed rfl) fun r => .finished hs r

/-- Behind the handshake, everything the command line asks for is requested. -/
theorem Initiator.serve_runs (reboot : Int) (o : Options) (hs : Serving h []) :
    Runs Allowed (Ended o) h (Initiator.serve reboot o) := by
  unfold Initiator.serve
  by_cases hbench : o.bench = true
  · rw [if_pos hbench]
    refine Runs.perform (hs.allowed rfl) fun r => ?_
    replace hs := hs.goes (c := .setRcvTimeo 2) nofun r rfl
    refine (benchEndpoint_runs reboot getHello hs).bind fun h₁ ok hs₁ => ?_
    cases ok with
    | false => exact .terminated hbench (hs₁.1.mp rfl) hs₁.2
    | true =>
        -- the counts are the same for all three
        have hcount : ¬ (o.count < 0 ∨ INT_MAX < o.count + o.warmup) := by simp [← hs₁.1]
        refine (benchEndpoint_runs reboot getLed hs₁.2).bind fun h₂ ok hs₂ => ?_
        cases ok with
        | false => exact absurd (hs₂.1.mp rfl) hcount
        | true =>
            refine (benchEndpoint_runs reboot (putLed '1') hs₂.2).bind fun h₃ ok hs₃ => ?_
            cases ok with
            | false => exact absurd (hs₃.1.mp rfl) hcount
            | true =>
                refine close_runs ?_
                rw [Options.requests, if_pos hbench]
                exact hs₃.2
  · rw [if_neg hbench]
    refine (requestAll_runs reboot demo hs).bind fun h' _ hs' => close_runs ?_
    rwa [Options.requests, if_neg hbench]

end

/--
**Nothing is asked for before the device is known.**  For every command line, whatever is
answered and however far the program has got: each call is the next of the handshake, with
all those before it made and successful, or comes behind the whole handshake and before
the socket is closed.  A program that returns 1 has ended with the first failure of the
handshake; one that returns 0 has made every request of its command line, in order, and
closed the socket; and it is terminated only by the counts of a benchmark.
-/
theorem client_in_order (reboot : Int) (argv : List (List Char)) (answers : List Int) :
    AtEach (fun h e => Allowed h e.1) (Initiator.run reboot argv answers).history ∧
      ∀ ret, (Initiator.run reboot argv answers).rest = .ret ret →
        Ended (Options.default.parse argv) (Initiator.run reboot argv answers).history ret := by
  have hruns : Runs Allowed (Ended (Options.default.parse argv)) [] (main reboot argv) := by
    rw [main_eq]
    refine Runs.require ?_ ?_ ?_
    · intro past c todo new hcs hnew
      exact .inl ⟨past, todo, hcs, hnew⟩
    · intro past c todo new r hcs hnew hr
      exact .failed hcs hnew hr
    · intro new hnew
      exact Initiator.serve_runs reboot _ (serving_handshake hnew)
  have hok := Thread.Ok.run (t := ⟨main reboot argv, []⟩) ⟨atEach_nil _, hruns⟩ answers
  exact ⟨hok.made, fun ret hret => hok.returned hret⟩

/-! ### The handshake in stretches -/

/-- A payload received, or a timeout. -/
def recvAnswer (recv : Option Bytes) : Int := if recv.isSome then 0 else -1

/-- What the stretches of a run are answered, call by call. -/
def stretchAnswers (a₁ : StartAnswers) (a₂ : Message2Answers) (a₃ : Message4Answers) :
    ClientCall → Int
  | .psaCryptoInit => a₁.psaCryptoInit
  | .sockInit => a₁.sockInit
  | .contextInit => a₁.contextInit
  | .configure c => a₁.configure c
  | .message1Compose => a₁.message1Compose.ret
  | .postSend .message1 => a₁.send
  | .postRecv .message1 => recvAnswer a₂.recv
  | .postPayloadLength .message1 => (a₂.recv.getD []).length
  | .message2Process => a₂.message2Process
  | .message3Compose => a₂.message3Compose.ret
  | .postSend .message3 => a₂.send
  | .postRecv .message3 => recvAnswer a₃.recv
  | .postPayloadLength .message3 => (a₃.recv.getD []).length
  | .message4Process => a₃.message4Process
  | .exportOscoreSession => a₃.exportOscoreSession.ret
  | .oscoreContextInit => if a₃.oscoreContextInit = .ok then 0 else 1
  | .postValidate _ => 1
  | _ => 0

theorem serve_result_ne (reboot : Int) (o : Options) (answers : ClientCall → Int) :
    (Initiator.serve reboot o).result answers ≠ some 1 := by
  have hpure : ∀ ret : Option Int, (return ret : Calls ClientCall _).result answers = ret :=
    fun _ => rfl
  unfold Initiator.serve
  simp only [result_ite, result_bind, hpure]
  repeat' split
  all_goals simp

theorem clientStart_awaiting2 (a : StartAnswers) :
    (clientStart a).1 = .awaiting2 ↔ a.psaCryptoInit = 0 ∧ ¬ a.sockInit < 0 ∧
      a.contextInit = 0 ∧ (∀ c ∈ clientSetupCalls, a.configure c = 0) ∧
      a.message1Compose.ret = 0 ∧ ¬ a.send < 0 := by
  have hany : (clientSetupCalls.any fun c => a.configure c != EDHOC_SUCCESS) = true ↔
      ¬ ∀ c ∈ clientSetupCalls, a.configure c = 0 := by
    simp [EDHOC_SUCCESS]
  unfold clientStart
  grind [EDHOC_SUCCESS]

theorem clientRecv_isSome (recv : Option Bytes) : (clientRecv recv).isSome = true ↔
    ¬ recvAnswer recv < 0 ∧ ¬ (MSG_MAX : Int) < (recv.getD []).length := by
  cases recv with
  | none => simp [clientRecv, recvAnswer]
  | some resp => simp [clientRecv, recvAnswer]

theorem clientMessage2_awaiting4 (a : Message2Answers) :
    (clientMessage2 a).1 = .awaiting4 ↔ (clientRecv a.recv).isSome = true ∧
      a.message2Process = 0 ∧ a.message3Compose.ret = 0 ∧ ¬ a.send < 0 := by
  unfold clientMessage2
  grind [EDHOC_SUCCESS]

theorem clientMessage4_complete (a : Message4Answers) :
    (∃ session, clientMessage4 a = .complete (some session)) ↔
      (clientRecv a.recv).isSome = true ∧ a.message4Process = 0 ∧
        a.exportOscoreSession.ret = 0 ∧ a.oscoreContextInit = .ok := by
  constructor
  · rintro ⟨session, h⟩
    unfold clientMessage4 at h
    grind [EDHOC_SUCCESS]
  · rintro ⟨hrecv, hprocess, hexport, hinit⟩
    obtain ⟨resp, hresp⟩ := Option.isSome_iff_exists.mp hrecv
    refine ⟨a.exportOscoreSession.params, ?_⟩
    simp [clientMessage4, hresp, hprocess, hexport, hinit, EDHOC_SUCCESS]

/-- The program gets behind the handshake exactly when the three stretches do. -/
theorem main_result_iff (reboot : Int) (argv : List (List Char)) (a₁ : StartAnswers)
    (a₂ : Message2Answers) (a₃ : Message4Answers) :
    (main reboot argv).result (stretchAnswers a₁ a₂ a₃) ≠ some 1 ↔
      (clientStart a₁).1 = .awaiting2 ∧ (clientMessage2 a₂).1 = .awaiting4 ∧
        ∃ session, clientMessage4 a₃ = .complete (some session) := by
  have hresult : (main reboot argv).result (stretchAnswers a₁ a₂ a₃) ≠ some 1 ↔
      (handshakeCalls.all fun c => succeeds c (stretchAnswers a₁ a₂ a₃ c)) = true := by
    rw [main_eq, result_require]
    split
    · rename_i hall
      simp only [hall, iff_true]
      exact serve_result_ne reboot _ _
    · rename_i hall
      exact iff_of_false (fun h => h rfl) hall
  rw [hresult, clientStart_awaiting2, clientMessage2_awaiting4, clientMessage4_complete,
    clientRecv_isSome, clientRecv_isSome]
  simp [handshakeCalls, contextSetup, clientSetupCalls, postCalls, succeeds, stretchAnswers, and_assoc]

/-- Call by call, `oscore_request` comes out as it does in one step of the benchmark. -/
theorem oscoreRequest_result (reboot : Int) (r : AppRequest) (x : Exchange) (rtt : Int)
    (c : OscoreClient) (answers : ClientCall → Int)
    (hprotect : answers (.coap2oscore r) = 0 ↔ x.coap2oscore = .ok)
    (hsend : answers (.send r) = x.send)
    (hrecv : answers (.recv r) < 0 ↔ c.queue ++ x.arrivals = [])
    (hopen : answers (.oscore2coap r) = 0 ∨ answers (.oscore2coap r) = reboot ↔
      x.oscore2coap = .ok ∨ x.oscore2coap = .firstRequestAfterReboot)
    (hvalidate : answers (.validate r) = 0 ↔ x.validate = false) :
    (Initiator.oscoreRequest reboot r).result answers
      = (UsbNcmNet.oscoreRequest x rtt c).1.ret := by
  have hpure : ∀ ret : Int, (return ret : Calls ClientCall Int).result answers = ret :=
    fun _ => rfl
  have hrefused : answers (.oscore2coap r) ≠ 0 ∧ answers (.oscore2coap r) ≠ reboot ↔
      x.oscore2coap ≠ .ok ∧ x.oscore2coap ≠ .firstRequestAfterReboot := by
    rw [← not_or, ← not_or, hopen]
  unfold Initiator.oscoreRequest UsbNcmNet.oscoreRequest
  simp only [result_perform_bind, result_ite, hpure, hrefused, hrecv, hvalidate, hsend, ne_eq,
    hprotect]
  by_cases hcoap : x.coap2oscore = .ok
  · by_cases hsent : x.send < 0
    · simp [hcoap, hsent]
    · cases hqueue : c.queue ++ x.arrivals with
      | nil => simp [hcoap, hsent]
      | cons reply queue =>
          simp [hcoap, hsent]
          split
          · rfl
          · split <;> rfl
  · simp [hcoap]

/-! ### The command line -/

/-- What can be said on the command line. -/
inductive Argument
  | bench
  | count (value : List Char)
  | warmup (value : List Char)
  | host (name : List Char) (hname : name.head? ≠ some '-')

/-- How it is said. -/
def Argument.words : Argument → List (List Char)
  | .bench => ["--bench".toList]
  | .count value => ["--count".toList, value]
  | .warmup value => ["--warmup".toList, value]
  | .host name _ => [name]

def Argument.apply (o : Options) : Argument → Options
  | .bench => { o with bench := true }
  | .count value => { o with count := atoi value }
  | .warmup value => { o with warmup := atoi value }
  | .host name _ => { o with host := name }

/-- In any order and number; the last one holds, and a value is a value whatever it looks like. -/
theorem parse_words (args : List Argument) (o : Options) :
    o.parse (args.flatMap Argument.words) = args.foldl Argument.apply o := by
  induction args generalizing o with
  | nil => rfl
  | cons arg args ih =>
      rw [List.flatMap_cons, List.foldl_cons, ← ih]
      generalize args.flatMap Argument.words = rest
      cases arg with
      | bench => cases rest <;> rfl
      | count value => rfl
      | warmup value => rfl
      | host name hname =>
          have hbench : name ≠ "--bench".toList := fun h => hname (h ▸ rfl)
          have hcount : name ≠ "--count".toList := fun h => hname (h ▸ rfl)
          have hwarmup : name ≠ "--warmup".toList := fun h => hname (h ▸ rfl)
          show o.parse (name :: rest) = Options.parse { o with host := name } rest
          cases rest with
          | nil => exact (if_neg hbench).trans (if_pos hname)
          | cons value rest =>
              rw [Options.parse, if_neg hbench, if_neg hcount, if_neg hwarmup, if_pos hname]

end UsbNcmNet
