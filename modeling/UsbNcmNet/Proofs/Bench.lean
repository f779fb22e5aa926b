/-
Whose round trips the OSCORE latency loop records.

A call takes the datagram at the front of the socket's queue.  If nothing is left
there from earlier calls and the first to arrive is the reply to the request, the
value is that request's.  If a reply came too late for its own call, or twice, it
waits at the front and is taken for the reply to the next request, and so is
everything behind it.  The counts come out right either way.
-/
import UsbNcmNet.Host.Bench

namespace UsbNcmNet

/-! ### One call -/

/-- The reply to the request that the next call sends. -/
def OscoreClient.own (c : OscoreClient) : Reply := ⟨c.calls + 1, c.token + 1⟩

/-- The request is encrypted and sent. -/
def Exchange.GoesOut (x : Exchange) : Prop := x.coap2oscore = .ok ∧ 0 ≤ x.send

/-- The datagram that is taken is accepted, and the clock does not run backwards. -/
def Exchange.Accepts (x : Exchange) : Prop :=
  (x.oscore2coap = .ok ∨ x.oscore2coap = .firstRequestAfterReboot) ∧ x.validate = true ∧
    0 ≤ x.elapsed

/-- When the request goes out nothing is waiting, and the first to arrive is the reply to it. -/
def Clean (c : OscoreClient) (x : Exchange) : Prop :=
  x.GoesOut → c.queue = [] ∧ ∀ d, x.arrivals.head? = some d → d = c.own

/-- Everything a call can do: its outcome and the queue it leaves. -/
inductive Requested (x : Exchange) (c : OscoreClient) : Outcome → List Reply → Prop
  | notSent (h : ¬ x.GoesOut) : Requested x c ⟨-1, -1, none⟩ (c.queue ++ x.arrivals)
  | timeout (h : x.GoesOut) (hqueue : c.queue ++ x.arrivals = []) : Requested x c ⟨-1, -1, none⟩ []
  | rejected {d : Reply} {queue : List Reply} (h : x.GoesOut)
      (hqueue : c.queue ++ x.arrivals = d :: queue) (hreject : ¬ x.Accepts) :
      Requested x c ⟨-1, x.elapsed, some d⟩ queue
  | answered {d : Reply} {queue : List Reply} (h : x.GoesOut)
      (hqueue : c.queue ++ x.arrivals = d :: queue) :
      Requested x c ⟨0, x.elapsed, some d⟩ queue

/-- **What a call can do.** -/
theorem oscoreRequest_ran (x : Exchange) (c : OscoreClient) :
    ∃ outcome queue, Requested x c outcome queue ∧
      oscoreRequest x (-1) c = (outcome, { c with
        token := c.token + 1, mid := c.mid + 1, calls := c.calls + 1, queue }) := by
  unfold oscoreRequest
  by_cases henc : x.coap2oscore = .ok
  · by_cases hsend : x.send < 0
    · exact ⟨_, _, .notSent fun h => absurd h.2 (by omega), by simp [henc, hsend]⟩
    · have hout : x.GoesOut := ⟨henc, by omega⟩
      cases hqueue : c.queue ++ x.arrivals with
      | nil => exact ⟨_, _, .timeout hout hqueue, by simp [henc, hsend, hqueue]⟩
      | cons d queue =>
          by_cases herr : x.oscore2coap ≠ .ok ∧ x.oscore2coap ≠ .firstRequestAfterReboot
          · refine ⟨_, _, .rejected hout hqueue fun h => ?_, by simp [henc, hsend, hqueue, herr]⟩
            exact h.1.elim herr.1 herr.2
          · cases hvalid : x.validate with
            | false =>
                refine ⟨_, _, .rejected hout hqueue fun h => ?_,
                  by simp [henc, hsend, hqueue, herr]⟩
                rw [h.2.1] at hvalid
                exact Bool.noConfusion hvalid
            | true => exact ⟨_, _, .answered hout hqueue, by simp [henc, hsend, hqueue, herr]⟩
  · exact ⟨_, _, .notSent fun h => henc h.1, by simp [henc]⟩

/-- Nothing gets into the queue that was not there and did not arrive. -/
theorem Requested.queue_subset {x : Exchange} {c : OscoreClient} {outcome : Outcome}
    {queue : List Reply} (h : Requested x c outcome queue) :
    ∀ d ∈ queue, d ∈ c.queue ∨ d ∈ x.arrivals := by
  intro d hd
  rw [← List.mem_append]
  cases h with
  | notSent _ => exact hd
  | timeout _ _ => simp at hd
  | rejected _ hqueue _ => rw [hqueue]; exact List.mem_cons_of_mem _ hd
  | answered _ hqueue => rw [hqueue]; exact List.mem_cons_of_mem _ hd

/-- The value is recorded: the call returned 0 and the clock did not run backwards. -/
def Outcome.Records (o : Outcome) : Prop := o.ret = 0 ∧ 0 ≤ o.rtt

/-- On a clean exchange, what is recorded is the reply to the request. -/
theorem Requested.own_of_clean {x : Exchange} {c : OscoreClient} {outcome : Outcome}
    {queue : List Reply} (h : Requested x c outcome queue) (hclean : Clean c x)
    (hrec : outcome.Records) : outcome.reply = some c.own := by
  cases h with
  | notSent _ => exact absurd hrec.1 (by simp)
  | timeout _ _ => exact absurd hrec.1 (by simp)
  | rejected _ _ _ => exact absurd hrec.1 (by simp)
  | @answered d _ hout hqueue =>
      obtain ⟨hempty, hhead⟩ := hclean hout
      rw [hempty, List.nil_append] at hqueue
      have hd : d = c.own := hhead d (by rw [hqueue]; rfl)
      rw [hd]

/-- And the other way round, for replies to requests that have been sent. -/
theorem Requested.clean_of_own {x : Exchange} {c : OscoreClient} {outcome : Outcome}
    {queue : List Reply} (h : Requested x c outcome queue) (haccepts : x.Accepts)
    (hqueue : ∀ d ∈ c.queue, d.request ≤ c.calls)
    (hown : outcome.Records → outcome.reply = some c.own) : Clean c x := by
  intro hout
  cases h with
  | notSent hnot => exact absurd hout hnot
  | timeout _ hnone =>
      obtain ⟨hempty, harrivals⟩ := List.append_eq_nil_iff.mp hnone
      exact ⟨hempty, by simp [harrivals]⟩
  | rejected _ _ hreject => exact absurd haccepts hreject
  | @answered d _ _ hcons =>
      have hd : d = c.own := Option.some.inj (hown ⟨rfl, haccepts.2.2⟩)
      have hempty : c.queue = [] := by
        -- a reply that waited answers an earlier request
        cases hc : c.queue with
        | nil => rfl
        | cons e rest =>
            rw [hc, List.cons_append] at hcons
            have hle := hqueue e (by rw [hc]; exact List.mem_cons_self)
            rw [(List.cons.inj hcons).1, hd] at hle
            exact absurd hle (Nat.not_succ_le_self c.calls)
      refine ⟨hempty, ?_⟩
      intro e he
      rw [hempty, List.nil_append] at hcons
      rw [hcons, List.head?_cons, Option.some.injEq] at he
      rw [← he, hd]

/-! ### The loop -/

/-- The client before iteration `i`; warming up makes no difference to it. -/
def clientAt (schedule : Nat → Exchange) (c : OscoreClient) (i : Nat) : OscoreClient :=
  (List.range i).foldl (fun c i => (oscoreRequest (schedule i) (-1) c).2) c

/-- The outcome of iteration `i`. -/
def outcomeAt (schedule : Nat → Exchange) (c : OscoreClient) (i : Nat) : Outcome :=
  (oscoreRequest (schedule i) (-1) (clientAt schedule c i)).1

/-- What iteration `i` records, if it is timed. -/
def sampleAt (schedule : Nat → Exchange) (c : OscoreClient) (i : Nat) : Option Sample :=
  if (outcomeAt schedule c i).ret ≠ 0 ∨ (outcomeAt schedule c i).rtt < 0 then none
  else some ⟨i, (outcomeAt schedule c i).rtt, (outcomeAt schedule c i).reply⟩

/-- The timed ones among the first `n` iterations. -/
def timed (warmup : Int) (n : Nat) : List Nat :=
  (List.range n).filter fun i => warmup ≤ (i : Int)

variable {schedule : Nat → Exchange} {c : OscoreClient}

theorem clientAt_succ (schedule : Nat → Exchange) (c : OscoreClient) (i : Nat) :
    clientAt schedule c (i + 1) = (oscoreRequest (schedule i) (-1) (clientAt schedule c i)).2 := by
  simp [clientAt, List.range_succ]

/-- What is known of a call at every iteration. -/
theorem requested_at (schedule : Nat → Exchange) (c : OscoreClient) (i : Nat) :
    Requested (schedule i) (clientAt schedule c i) (outcomeAt schedule c i)
        (clientAt schedule c (i + 1)).queue ∧
      (clientAt schedule c (i + 1)).calls = (clientAt schedule c i).calls + 1 ∧
      (clientAt schedule c (i + 1)).token = (clientAt schedule c i).token + 1 := by
  obtain ⟨outcome, queue, hran, hrun⟩ := oscoreRequest_ran (schedule i) (clientAt schedule c i)
  rw [outcomeAt, clientAt_succ, hrun]
  exact ⟨hran, rfl, rfl⟩

/-- Requests are numbered, and their tokens counted, iteration by iteration. -/
theorem counts_at (schedule : Nat → Exchange) (c : OscoreClient) (i : Nat) :
    (clientAt schedule c i).calls = c.calls + i ∧
      (clientAt schedule c i).token = c.token + UInt32.ofNat i := by
  induction i with
  | zero => simp [clientAt]
  | succ i ih =>
      obtain ⟨-, hcalls, htoken⟩ := requested_at schedule c i
      rw [hcalls, htoken, ih.1, ih.2, UInt32.add_assoc, UInt32.ofNat_add]
      exact ⟨by omega, rfl⟩

theorem own_at (schedule : Nat → Exchange) (c : OscoreClient) (i : Nat) :
    (clientAt schedule c i).own = ⟨c.calls + i + 1, c.token + UInt32.ofNat (i + 1)⟩ := by
  obtain ⟨hcalls, htoken⟩ := counts_at schedule c i
  rw [OscoreClient.own, hcalls, htoken, UInt32.add_assoc, UInt32.ofNat_add]
  rfl

/-- **The loop, iteration by iteration**: the timed ones record a value or count as lost. -/
theorem bench_fold (warmup : Int) (schedule : Nat → Exchange) (c : OscoreClient) (n : Nat) :
    (List.range n).foldl (benchIteration warmup schedule) { client := c, rtts := [], losses := 0 }
      = { client := clientAt schedule c n
          rtts := (timed warmup n).filterMap (sampleAt schedule c)
          losses := (timed warmup n).countP fun i => (sampleAt schedule c i).isNone } := by
  induction n with
  | zero => rfl
  | succ n ih =>
      have htimed : timed warmup (n + 1) =
          timed warmup n ++ if warmup ≤ (n : Int) then [n] else [] := by
        rw [timed, List.range_succ, List.filter_append]
        simp [timed, List.filter_cons]
      rw [List.range_succ, List.foldl_append, ih, List.foldl_cons, List.foldl_nil, htimed,
        clientAt_succ]
      unfold benchIteration
      by_cases hwarm : (n : Int) < warmup
      · have hnot : ¬ warmup ≤ (n : Int) := by omega
        simp [hwarm, hnot]
      · have htime : warmup ≤ (n : Int) := by omega
        rw [if_pos htime, List.filterMap_append, List.countP_append]
        by_cases hlost : (outcomeAt schedule c n).ret ≠ 0 ∨ (outcomeAt schedule c n).rtt < 0
        · have hnone : sampleAt schedule c n = none := if_pos hlost
          unfold outcomeAt at hlost
          simp only [hwarm, hlost, if_true, if_false, List.filterMap_cons, List.filterMap_nil,
            hnone, List.append_nil, List.countP_cons, List.countP_nil, Option.isNone_none]
        · have hsome : sampleAt schedule c n = some _ := if_neg hlost
          unfold outcomeAt at hlost hsome
          simp only [hwarm, hlost, if_false, List.filterMap_cons, List.filterMap_nil, hsome,
            List.countP_cons, List.countP_nil, Option.isNone_some]
          rfl

/-- A value or a loss for every timed iteration. -/
theorem length_add_losses (ts : List Nat) (f : Nat → Option Sample) :
    (ts.filterMap f).length + ts.countP (fun i => (f i).isNone) = ts.length := by
  induction ts with
  | nil => rfl
  | cons t ts ih =>
      cases h : f t <;> simp [h] <;> omega

theorem length_timed (warmup count : Nat) :
    (timed warmup (count + warmup)).length = count := by
  have hwarm : (List.range warmup).filter (fun i : Nat => (warmup : Int) ≤ (i : Int)) = [] := by
    simp
  have hrest : ((List.range count).map (warmup + ·)).filter
      (fun i : Nat => (warmup : Int) ≤ (i : Int)) = (List.range count).map (warmup + ·) := by
    simp
  rw [timed, Nat.add_comm, List.range_add, List.filter_append, hwarm, hrest]
  simp

/-! ### Attribution -/

/-- The value is the round trip of the request of its iteration. -/
def Attributed (c : OscoreClient) (s : Sample) : Prop :=
  s.reply = some ⟨c.calls + s.iteration + 1, c.token + UInt32.ofNat (s.iteration + 1)⟩

/-- Replies follow their requests: nothing answers what has not been sent. -/
structure Causal (schedule : Nat → Exchange) (c : OscoreClient) : Prop where
  queue : ∀ d ∈ c.queue, d.request ≤ c.calls
  arrivals : ∀ i, ∀ d ∈ (schedule i).arrivals, d.request ≤ c.calls + i + 1

/-- What waits in the queue before an iteration answers an earlier one. -/
theorem Causal.queue_at (h : Causal schedule c) (i : Nat) :
    ∀ d ∈ (clientAt schedule c i).queue, d.request ≤ c.calls + i := by
  induction i with
  | zero => exact h.queue
  | succ i ih =>
      intro d hd
      obtain ⟨hran, -, -⟩ := requested_at schedule c i
      rcases hran.queue_subset d hd with hd | hd
      · exact Nat.le_succ_of_le (ih d hd)
      · exact h.arrivals i d hd

/-- The values recorded, iteration by iteration. -/
theorem mem_rtts_iff {warmup : Int} {n : Nat} {s : Sample} :
    s ∈ (timed warmup n).filterMap (sampleAt schedule c) ↔
      ∃ i : Nat, i < n ∧ warmup ≤ i ∧ (outcomeAt schedule c i).Records ∧
        s = ⟨i, (outcomeAt schedule c i).rtt, (outcomeAt schedule c i).reply⟩ := by
  have hsample : ∀ i, sampleAt schedule c i = some s ↔ (outcomeAt schedule c i).Records ∧
      s = ⟨i, (outcomeAt schedule c i).rtt, (outcomeAt schedule c i).reply⟩ := by
    intro i
    unfold sampleAt Outcome.Records
    split
    · rename_i hlost
      simp only [reduceCtorEq, false_iff]
      rintro ⟨⟨hret, hrtt⟩, -⟩
      rcases hlost with h | h
      · exact h hret
      · omega
    · rename_i hkept
      rw [not_or, not_not] at hkept
      rw [Option.some.injEq, eq_comm]
      exact ⟨fun h => ⟨⟨hkept.1, by omega⟩, h⟩, fun h => h.2⟩
  rw [List.mem_filterMap]
  constructor
  · rintro ⟨i, hi, hs⟩
    obtain ⟨hlt, hwarm⟩ := List.mem_filter.mp hi
    exact ⟨i, List.mem_range.mp hlt, by simpa using hwarm, (hsample i).mp hs⟩
  · rintro ⟨i, hlt, hwarm, hs⟩
    exact ⟨i, List.mem_filter.mpr ⟨List.mem_range.mpr hlt, by simpa using hwarm⟩,
      (hsample i).mpr hs⟩

/-- The loop runs to its end. -/
theorem benchEndpoint_eq (schedule : Nat → Exchange) (c : OscoreClient) {count warmup : Nat}
    (hsum : (count : Int) + warmup ≤ INT_MAX) :
    benchEndpoint count warmup schedule c = some
      { client := clientAt schedule c (count + warmup)
        rtts := (timed warmup (count + warmup)).filterMap (sampleAt schedule c)
        losses := (timed warmup (count + warmup)).countP
          fun i => (sampleAt schedule c i).isNone } := by
  have hn : ((count : Int) + (warmup : Int)).toNat = count + warmup := by omega
  rw [benchEndpoint, if_neg (by omega), hn, bench_fold]

/--
**Whose round trips are recorded.**  Every timed iteration records a value or counts
as lost, whatever the network does.  If each timed exchange is clean, every value is
the round trip of its own request; and for replies that follow their requests and are
accepted, only then.
-/
theorem bench_attributes (count warmup : Int) (schedule : Nat → Exchange) (c : OscoreClient)
    (hcount : 0 ≤ count) (hwarmup : 0 ≤ warmup) (hsum : count + warmup ≤ INT_MAX) :
    ∃ b, benchEndpoint count warmup schedule c = some b ∧
      (b.rtts.length : Int) + b.losses = count ∧
      ((∀ i : Nat, warmup ≤ i → (i : Int) < count + warmup →
          Clean (clientAt schedule c i) (schedule i)) →
        ∀ s ∈ b.rtts, Attributed c s) ∧
      (Causal schedule c → (∀ i, (schedule i).Accepts) → (∀ s ∈ b.rtts, Attributed c s) →
        ∀ i : Nat, warmup ≤ i → (i : Int) < count + warmup →
          Clean (clientAt schedule c i) (schedule i)) := by
  obtain ⟨warmup, rfl⟩ := Int.eq_ofNat_of_zero_le hwarmup
  obtain ⟨count, rfl⟩ := Int.eq_ofNat_of_zero_le hcount
  refine ⟨_, benchEndpoint_eq schedule c hsum, ?_, ?_, ?_⟩
  · have hlen := length_add_losses (timed warmup (count + warmup)) (sampleAt schedule c)
    rw [length_timed] at hlen
    exact_mod_cast hlen
  · intro hclean s hs
    obtain ⟨i, hlt, htime, hrec, rfl⟩ := mem_rtts_iff.mp hs
    obtain ⟨hran, -, -⟩ := requested_at schedule c i
    have hown := hran.own_of_clean (hclean i htime (by omega)) hrec
    rw [Attributed, hown, own_at]
  · intro hcausal haccepts hattr i htime hlt
    obtain ⟨hran, -, -⟩ := requested_at schedule c i
    refine hran.clean_of_own (haccepts i) ?_ ?_
    · rw [(counts_at schedule c i).1]
      exact hcausal.queue_at i
    · intro hrec
      have hs := hattr _ (mem_rtts_iff.mpr ⟨i, by omega, htime, hrec, rfl⟩)
      rw [own_at]
      exact hs

/-! ### Two schedules -/

/-- Everything goes well, and the given replies arrive. -/
def quietExchange (arrivals : List Reply) : Exchange where
  coap2oscore := .ok
  send := 0
  arrivals := arrivals
  oscore2coap := .ok
  validate := true
  elapsed := 1

/-- Every reply arrives in time. -/
def promptSchedule (i : Nat) : Exchange :=
  quietExchange [⟨i + 1, 0x1000 + UInt32.ofNat (i + 1)⟩]

/-- The reply to the first request is late, the second comes behind it. -/
def lateSchedule (i : Nat) : Exchange :=
  if i = 1 then quietExchange [⟨1, 0x1001⟩, ⟨2, 0x1002⟩] else quietExchange []

theorem bench_attributes_prompt :
    ∃ b, benchEndpoint 1 1 promptSchedule OscoreClient.start = some b ∧
      (b.rtts.length : Int) + b.losses = 1 ∧ ∀ s ∈ b.rtts, Attributed OscoreClient.start s := by
  obtain ⟨b, hrun, hlen, hattr, -⟩ :=
    bench_attributes 1 1 promptSchedule OscoreClient.start (by decide) (by decide) (by decide)
  refine ⟨b, hrun, hlen, hattr ?_⟩
  intro i hlo hhi
  obtain rfl : i = 1 := by omega
  intro _
  exact ⟨rfl, fun d hd => (Option.some.inj hd).symm⟩

theorem quietExchange_accepts (arrivals : List Reply) : (quietExchange arrivals).Accepts :=
  ⟨.inl rfl, rfl, Int.one_nonneg⟩

theorem lateSchedule_causal : Causal lateSchedule OscoreClient.start := by
  refine ⟨by decide, ?_⟩
  intro i d hd
  unfold lateSchedule at hd
  split at hd
  · rename_i h
    subst h
    revert d
    decide
  · simp [quietExchange] at hd

/-- The late reply is recorded as the round trip of the second request. -/
theorem late_reply_misattributed :
    Causal lateSchedule OscoreClient.start ∧ (∀ i, (lateSchedule i).Accepts) ∧
    ∃ b, benchEndpoint 2 0 lateSchedule OscoreClient.start = some b ∧
      b.rtts = [⟨1, 1, some ⟨1, 0x1001⟩⟩] ∧
      ¬ ∀ s ∈ b.rtts, Attributed OscoreClient.start s := by
  refine ⟨lateSchedule_causal, ?_, _, rfl, by decide, ?_⟩
  · intro i
    unfold lateSchedule
    split <;> exact quietExchange_accepts _
  · intro h
    have hs := h ⟨1, 1, some ⟨1, 0x1001⟩⟩ (by decide)
    revert hs
    unfold Attributed
    decide

end UsbNcmNet
