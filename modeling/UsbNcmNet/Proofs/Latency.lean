/-
Whose round trips the plain and DTLS latency loop records.

Every request of a `measure` has the id after that of the one before, modulo 2^16, so
no two of the first 65536 share one.  A reply echoes the id of its request, and the
loop skips what does not carry the id of its own; a reply that was late for its
iteration, or comes twice, is read and dropped by a later one.  That is an invariant
of the loop, whatever `recv` gives it and wherever it times out.
-/
import UsbNcmNet.Lib.Loop
import UsbNcmNet.Proofs.Datagram
import UsbNcmNet.Proofs.Request

namespace UsbNcmNet

/-! ### Message ids -/

/-- The message id of the request of iteration `i`. -/
def idAt (mid : UInt16) (i : Nat) : Nat := (mid.toNat + i + 1) % 65536

/-- A message id on the wire. -/
def idBytes (mid : Nat) : Bytes := [UInt8.ofNat (mid / 256), UInt8.ofNat mid]

/-- The two bytes behind type and code. -/
def wireId (message : Bytes) : Bytes := (message.drop 2).take 2

theorem idAt_lt (mid : UInt16) (i : Nat) : idAt mid i < 65536 := Nat.mod_lt _ (by decide)

/-- The counter does not come round within 65536 iterations. -/
theorem idAt_inj {mid : UInt16} {i j : Nat} (hi : i < 65536) (hj : j < 65536)
    (h : idAt mid i = idAt mid j) : i = j := by
  unfold idAt at h
  omega

theorem idAt_next {mid : UInt16} {n i : Nat} (h : n = (mid.toNat + i) % 65536) :
    (n + 1) &&& 0xffff = idAt mid i := by
  have hand := Nat.and_two_pow_sub_one_eq_mod (n + 1) 16
  unfold idAt
  rw [hand]
  omega

theorem appendByte_eq {out out' : Bytes} {value : Nat} (h : appendByte out value = some out') :
    out' = out ++ [UInt8.ofNat value] := by
  unfold appendByte at h
  split at h
  · exact (Option.some.inj h).symm
  · simp at h

/-- Segments are written behind what is there. -/
theorem appendSegments_append {segs : List (List Char)} {last : Nat} {out out' : Bytes}
    (h : appendSegments segs last out = some out') : ∃ tail, out' = out ++ tail := by
  induction segs generalizing last out with
  | nil => exact ⟨[], by simpa [appendSegments] using h.symm⟩
  | cons seg segs ih =>
      rw [appendSegments] at h
      split at h
      · exact ih h
      · obtain ⟨next, hnext, h⟩ := Option.bind_eq_some_iff.mp h
        obtain ⟨tail, htail⟩ := ih h
        rw [appendByte_eq hnext, List.append_assoc, List.append_assoc] at htail
        exact ⟨_, htail⟩

/-- **Where `build_request` puts the message id.** -/
theorem wireId_buildRequest {code : UInt8} {path : String} {mtype : CoapType} {mid : Nat}
    {token : Bytes} {payload : Option Bytes} {req : Bytes}
    (h : buildRequest code path mtype mid token payload = some req) : wireId req = idBytes mid := by
  obtain ⟨out, hout, h⟩ := Option.bind_eq_some_iff.mp h
  obtain ⟨id, hid, h⟩ := Option.bind_eq_some_iff.mp h
  obtain ⟨written, hwritten, h⟩ := Option.bind_eq_some_iff.mp h
  obtain ⟨tail, hwritten⟩ := appendSegments_append hwritten
  obtain ⟨rest, hreq⟩ : ∃ rest, req = written ++ rest := by
    cases payload with
    | none => exact ⟨[], by simpa using h.symm⟩
    | some p => exact ⟨_, by rw [← Option.some.inj h, List.append_assoc]⟩
  have hid : id = idBytes mid := by
    unfold packU16 at hid
    split at hid
    · exact (Option.some.inj hid).symm
    · simp at hid
  rw [hreq, hwritten, appendByte_eq hout, hid]
  rfl

theorem le_of_matchesMid {mid : Nat} {data : Bytes} (h : matchesMid mid data = true) :
    4 ≤ data.length := by
  unfold matchesMid at h
  simpa using (Bool.and_eq_true_iff.mp h).1

/-- A datagram with a given id matches that one only. -/
theorem eq_of_matchesMid {mid mid' : Nat} {data : Bytes} (hlt : mid' < 65536)
    (h : matchesMid mid data = true) (hid : wireId data = idBytes mid') : mid = mid' := by
  have hlen := le_of_matchesMid h
  unfold matchesMid at h
  have hmid := (Bool.and_eq_true_iff.mp h).2
  match data with
  | b0 :: b1 :: b2 :: b3 :: rest =>
      obtain ⟨hb2, hb3⟩ : b2 = UInt8.ofNat (mid' / 256) ∧ b3 = UInt8.ofNat mid' := by
        simpa [wireId, idBytes] using hid
      have hsum : 256 * b2.toNat + b3.toNat = mid := by simpa using hmid
      rw [hb2, hb3, UInt8.toNat_ofNat', UInt8.toNat_ofNat'] at hsum
      omega
  | [] | [_] | [_, _] | [_, _, _] => simp at hlen

/-! ### One iteration -/

/-- What the inner loop comes back with: a datagram it received with the right id, or nothing. -/
inductive Received (mid : Nat) (t0 : Int) (network : List Recv) : Option (Int × Datagram) → Prop
  | nothing : Received mid t0 network none
  | reply {d : Datagram} {now : Int} (hmem : .datagram d now ∈ network)
      (hmid : matchesMid mid d.data = true) :
      Received mid t0 network (some ((now - t0) * 1000, d))

theorem Received.cons {mid : Nat} {t0 : Int} {network : List Recv} {out : Option (Int × Datagram)}
    (recv : Recv) (h : Received mid t0 network out) : Received mid t0 (recv :: network) out := by
  cases h with
  | nothing => exact .nothing
  | reply hmem hmid => exact .reply (List.mem_cons_of_mem _ hmem) hmid

theorem recvUntil_ran (mid : Nat) (t0 : Int) (network : List Recv) :
    Received mid t0 network (recvUntil mid t0 network).1 ∧
      (recvUntil mid t0 network).2 <:+ network := by
  induction network with
  | nil => exact ⟨.nothing, List.nil_suffix⟩
  | cons recv network ih =>
      cases recv with
      | timeout => exact ⟨.nothing, List.suffix_cons _ _⟩
      | datagram d now =>
          rw [recvUntil]
          split
          · rename_i hmid
            exact ⟨.reply List.mem_cons_self hmid, List.suffix_cons _ _⟩
          · exact ⟨ih.1.cons _, ih.2.trans (List.suffix_cons _ _)⟩

theorem sendAndRecv_ran (mid : Nat) (round : Round) (network : List Recv) :
    Received mid round.t0 network (sendAndRecv mid round network).1 ∧
      (sendAndRecv mid round network).2 <:+ network := by
  unfold sendAndRecv
  split
  · exact recvUntil_ran mid round.t0 network
  · exact ⟨.nothing, List.suffix_rfl⟩

/-- Everything an iteration can do once its request is built. -/
inductive Iterated (warmup : Int) (rounds : Nat → Round) (m : Measurement) (i : Nat) (req : Bytes)
    (network : List Recv) : Measurement → Prop
  | warmed (h : (i : Int) < warmup) :
      Iterated warmup rounds m i req network
        { m with mid := (m.mid + 1) &&& 0xffff, network, requests := m.requests ++ [req] }
  | lost (h : warmup ≤ i) :
      Iterated warmup rounds m i req network
        { m with mid := (m.mid + 1) &&& 0xffff, network, requests := m.requests ++ [req]
                 losses := m.losses + 1 }
  | recorded {rtt : Int} {d : Datagram} (h : warmup ≤ i)
      (hreply : Received ((m.mid + 1) &&& 0xffff) (rounds i).t0 m.network (some (rtt, d))) :
      Iterated warmup rounds m i req network
        { m with mid := (m.mid + 1) &&& 0xffff, network, requests := m.requests ++ [req]
                 rtts := m.rtts ++ [⟨i, rtt, d⟩] }

section

variable {code : UInt8} {path : String} {mtype : CoapType} {payload : Option Bytes} {warmup : Int}
  {rounds : Nat → Round}

/-- **What an iteration can do.** -/
theorem measureIteration_ran {m m' : Measurement} {i : Nat}
    (h : measureIteration code path mtype payload warmup rounds m i = some m') :
    ∃ req network,
      buildRequest code path mtype ((m.mid + 1) &&& 0xffff) (rounds i).token.toList payload
        = some req ∧
      network <:+ m.network ∧ Iterated warmup rounds m i req network m' := by
  obtain ⟨req, hreq, h⟩ := Option.bind_eq_some_iff.mp h
  obtain ⟨hreceived, hnetwork⟩ := sendAndRecv_ran ((m.mid + 1) &&& 0xffff) (rounds i) m.network
  dsimp only at h
  generalize sendAndRecv ((m.mid + 1) &&& 0xffff) (rounds i) m.network = out at h hreceived hnetwork
  obtain ⟨rtt, network⟩ := out
  refine ⟨req, network, hreq, hnetwork, ?_⟩
  split at h
  · rename_i hwarm
    rw [← Option.some.inj h]
    exact .warmed hwarm
  · rename_i htimed
    cases rtt with
    | none =>
        rw [← Option.some.inj h]
        exact .lost (by omega)
    | some reply =>
        rw [← Option.some.inj h]
        exact .recorded (by omega) hreceived

/-! ### The loop -/

/-- An entry of a timed iteration, for a datagram received with the id of its request. -/
structure RoundTrip.Matched (warmup : Int) (rounds : Nat → Round) (start : UInt16)
    (network : List Recv) (r : RoundTrip) : Prop where
  timed : warmup ≤ r.iteration
  matched : matchesMid (idAt start r.iteration) r.datagram.data = true
  received : ∃ now, .datagram r.datagram now ∈ network ∧
    r.rtt = (now - (rounds r.iteration).t0) * 1000

/-- The invariant: what holds after `n` iterations. -/
structure Measuring (warmup : Int) (rounds : Nat → Round) (start : UInt16) (network : List Recv)
    (n : Nat) (m : Measurement) : Prop where
  mid : m.mid = (start.toNat + n) % 65536
  left : m.network <:+ network
  length : m.requests.length = n
  ids : ∀ j req, m.requests[j]? = some req → wireId req = idBytes (idAt start j)
  matched : ∀ r ∈ m.rtts, r.Matched warmup rounds start network
  below : ∀ r ∈ m.rtts, r.iteration < n
  once : m.rtts.Pairwise fun r r' => r.iteration < r'.iteration
  total : (m.rtts.length : Int) + m.losses = max 0 (n - max 0 warmup)

variable {start : UInt16} {network : List Recv}

theorem measuring_start : Measuring warmup rounds start network 0
    { mid := start.toNat, rtts := [], losses := 0, requests := [], network } where
  mid := (Nat.mod_eq_of_lt start.toNat_lt).symm
  left := List.suffix_rfl
  length := rfl
  ids := by simp
  matched := by simp
  below := by simp
  once := List.Pairwise.nil
  total := by
    show (0 : Int) + 0 = max 0 ((0 : Nat) - max 0 warmup)
    omega

/-- The request of the next iteration carries the next id. -/
theorem Measuring.ids_concat {n : Nat} {m : Measurement} {req : Bytes}
    (h : Measuring warmup rounds start network n m) (hreq : wireId req = idBytes (idAt start n)) :
    ∀ j req', (m.requests ++ [req])[j]? = some req' → wireId req' = idBytes (idAt start j) := by
  intro j req' hj
  rcases Nat.lt_or_ge j m.requests.length with hlt | hge
  · rw [List.getElem?_append_left hlt] at hj
    exact h.ids j req' hj
  · rw [List.getElem?_append_right hge, List.getElem?_singleton] at hj
    split at hj
    · rename_i hzero
      obtain rfl : j = n := by have := h.length; omega
      rw [← Option.some.inj hj]
      exact hreq
    · simp at hj

/-- **An iteration keeps the invariant.** -/
theorem Measuring.iteration {n : Nat} {m m' : Measurement}
    (h : Measuring warmup rounds start network n m)
    (hrun : measureIteration code path mtype payload warmup rounds m n = some m') :
    Measuring warmup rounds start network (n + 1) m' := by
  obtain ⟨req, rest, hreq, hrest, hran⟩ := measureIteration_ran hrun
  have hnext : (m.mid + 1) &&& 0xffff = idAt start n := idAt_next h.mid
  have hmid : (m.mid + 1) &&& 0xffff = (start.toNat + (n + 1)) % 65536 := hnext
  have hids := h.ids_concat (hnext ▸ wireId_buildRequest hreq)
  have hlength : (m.requests ++ [req]).length = n + 1 := by simp [h.length]
  have hbelow : ∀ r ∈ m.rtts, r.iteration < n + 1 := fun r hr => Nat.lt_succ_of_lt (h.below r hr)
  have htotal := h.total
  cases hran with
  | warmed hwarm =>
      refine ⟨hmid, hrest.trans h.left, hlength, hids, h.matched, hbelow, h.once, ?_⟩
      show (m.rtts.length : Int) + m.losses = _
      omega
  | lost htime =>
      refine ⟨hmid, hrest.trans h.left, hlength, hids, h.matched, hbelow, h.once, ?_⟩
      show (m.rtts.length : Int) + (m.losses + 1 : Nat) = _
      omega
  | @recorded rtt d htime hreply =>
      have hentry : (⟨n, rtt, d⟩ : RoundTrip).Matched warmup rounds start network := by
        rw [hnext] at hreply
        cases hreply with
        | reply hmem hmatch => exact ⟨htime, hmatch, _, h.left.subset hmem, rfl⟩
      refine ⟨hmid, hrest.trans h.left, hlength, hids, ?_, ?_, ?_, ?_⟩
      · intro r hr
        rcases List.mem_append.mp hr with hr | hr
        · exact h.matched r hr
        · rw [List.mem_singleton.mp hr]
          exact hentry
      · intro r hr
        rcases List.mem_append.mp hr with hr | hr
        · exact hbelow r hr
        · rw [List.mem_singleton.mp hr]
          exact Nat.lt_succ_self n
      · refine List.pairwise_append.mpr ⟨h.once, List.pairwise_singleton _ _, ?_⟩
        intro r hr r' hr'
        rw [List.mem_singleton.mp hr']
        exact h.below r hr
      · show ((m.rtts ++ [(⟨n, rtt, d⟩ : RoundTrip)]).length : Int) + m.losses = _
        rw [List.length_append, List.length_singleton]
        omega

/-- An iteration raises nothing if no segment of the path is longer than a byte can say. -/
theorem measureIteration_returns (hsegs : ∀ seg ∈ segments path, (utf8 seg).length ≤ 255)
    (m : Measurement) (i : Nat) :
    ∃ m', measureIteration code path mtype payload warmup rounds m i = some m' := by
  have hmid : (m.mid + 1) &&& 0xffff < 65536 :=
    Nat.lt_of_le_of_lt Nat.and_le_right (by decide)
  have hreq := @buildRequest_eq code path mtype _ (rounds i).token.toList payload hmid
    (by rw [Vector.length_toList]; decide) hsegs
  unfold measureIteration
  dsimp only
  rw [hreq, Option.bind_eq_bind, Option.bind_some]
  split
  · exact ⟨_, rfl⟩
  · cases (sendAndRecv ((m.mid + 1) &&& 0xffff) (rounds i) m.network).1 with
    | none => exact ⟨_, rfl⟩
    | some reply => exact ⟨_, rfl⟩

end

/-! ### Attribution -/

/--
Nothing is received but replies to requests of the call, each with the id of its
request, in any order and any number, and datagrams too short to have an id.
-/
def RepliesTo (requests : List Bytes) (network : List Recv) : Prop :=
  ∀ d now, .datagram d now ∈ network → d.data.length < 4 ∨
    ∃ j req, d.answers = some j ∧ requests[j]? = some req ∧ wireId d.data = wireId req

/-- A message has its id on the wire. -/
theorem wireId_encode (message : Rfc7252.Message) :
    wireId (Rfc7252.encode message) = idBytes message.id.toNat := rfl

/-- What the board answers to a request is such a reply. -/
theorem board_echoes {gpio : Int} {request : Request} {bufLen : Nat} {led led' : Led} {p : Packet}
    {req : Bytes} {message : Rfc7252.Message} (hbuf : 64 ≤ bufLen)
    (hparse : Rfc7252.decode req = some message) (hid : request.id = message.id)
    (hrun : coapServerDispatchInner gpio request bufLen led = (.ok p, led')) :
    wireId p.data = wireId req := by
  obtain ⟨code, payload, led'', hbuild, -, -⟩ :=
    build_reply gpio request led hbuf (selectBuilder request)
  rw [coapServerDispatchInner_eq, hbuild] at hrun
  obtain ⟨hp, -⟩ := Prod.mk.inj hrun
  rw [← Except.ok.inj hp, data_ackPacket, wireId_encode, Rfc7252.encode_of_decode hparse,
    wireId_encode, ← hid]
  rfl

/-- The value is the round trip of the request of its iteration. -/
structure RoundTrip.Own (rounds : Nat → Round) (network : List Recv) (r : RoundTrip) : Prop where
  answers : r.datagram.answers = some r.iteration
  received : ∃ now, .datagram r.datagram now ∈ network ∧
    r.rtt = (now - (rounds r.iteration).t0) * 1000

/-- Among replies to the call, a datagram with the id of an iteration answers that one. -/
theorem Measuring.own {warmup : Int} {rounds : Nat → Round} {start : UInt16} {network : List Recv}
    {n : Nat} {m : Measurement} (h : Measuring warmup rounds start network n m) (hn : n ≤ 65536)
    (hreplies : RepliesTo m.requests network) : ∀ r ∈ m.rtts, r.Own rounds network := by
  intro r hr
  obtain ⟨-, hmatch, now, hmem, hrtt⟩ := h.matched r hr
  refine ⟨?_, now, hmem, hrtt⟩
  rcases hreplies r.datagram now hmem with hshort | ⟨j, req, hanswers, hreq, hecho⟩
  · have := le_of_matchesMid hmatch
    omega
  · have hj : j < n := by
      rw [← h.length]
      exact (List.getElem?_eq_some_iff.mp hreq).1
    have hi := h.below r hr
    have hid : idAt start r.iteration = idAt start j :=
      eq_of_matchesMid (idAt_lt start j) hmatch (hecho.trans (h.ids j req hreq))
    rw [hanswers, idAt_inj (by omega) (by omega) hid]

/--
**Whose round trips `measure` records.**  It returns whenever its requests can be
built.  With no more iterations than there are ids, every value is the round trip of
its own iteration's request, so never of a reply that was meant for an earlier one;
no iteration contributes twice and none that warms up at all; and each of the others
is recorded or lost.
-/
theorem measure_attributes (code : UInt8) (path : String) (mtype : CoapType)
    (payload : Option Bytes) (count warmup : Int) (mid : UInt16) (rounds : Nat → Round)
    (network : List Recv) (hsum : count + warmup ≤ 65536) :
    ((∀ seg ∈ segments path, (utf8 seg).length ≤ 255) →
      ∃ m, measure code path mtype payload count warmup mid rounds network = some m) ∧
    ∀ m, measure code path mtype payload count warmup mid rounds network = some m →
      (RepliesTo m.requests network → ∀ r ∈ m.rtts, r.Own rounds network) ∧
      m.rtts.Pairwise (fun r r' => r.iteration < r'.iteration) ∧
      (∀ r ∈ m.rtts, warmup ≤ r.iteration ∧ r.iteration < count + warmup) ∧
      (0 ≤ count → 0 ≤ warmup → (m.rtts.length : Int) + m.losses = count) := by
  constructor
  · intro hsegs
    exact Loop.returns (measureIteration_returns hsegs) _ _
  · intro m hrun
    have h : Measuring warmup rounds mid network (count + warmup).toNat m :=
      Loop.invariant measuring_start (fun n s s' hs hrun => hs.iteration hrun) hrun
    refine ⟨h.own (by omega), h.once, ?_, ?_⟩
    · intro r hr
      have hbelow := h.below r hr
      exact ⟨(h.matched r hr).timed, by omega⟩
    · intro hcount hwarmup
      have htotal := h.total
      omega

/-- Three requests across the end of the ids: 0xffff, 0 and 1. -/
def crossingRounds (i : Nat) : Round := ⟨Vector.replicate 4 0, 10 * i, true⟩

/--
The reply to the first is late, something short comes, then the reply to the second,
twice, and the reply to the third.
-/
def crossingNetwork : List Recv :=
  [.timeout, .datagram ⟨some 0, [0x64, 0x45, 0xff, 0xff]⟩ 11, .datagram ⟨none, [0]⟩ 12,
    .datagram ⟨some 1, [0x64, 0x45, 0, 0]⟩ 13, .datagram ⟨some 1, [0x64, 0x45, 0, 0]⟩ 21,
    .datagram ⟨some 2, [0x64, 0x45, 0, 1]⟩ 22]

def crossingRequests : List Bytes :=
  [[0xff, 0xff], [0, 0], [0, 1]].map fun id =>
    [0x44, 1] ++ id ++ [0, 0, 0, 0, 0xb3, 0x6c, 0x65, 0x64]

theorem crossing_replies : RepliesTo crossingRequests crossingNetwork := by
  intro d now hmem
  simp only [crossingNetwork, List.mem_cons, List.not_mem_nil, reduceCtorEq, Recv.datagram.injEq,
    false_or, or_false] at hmem
  rcases hmem with ⟨rfl, -⟩ | ⟨rfl, -⟩ | ⟨rfl, -⟩ | ⟨rfl, -⟩ | ⟨rfl, -⟩
  · exact .inr ⟨0, _, rfl, rfl, rfl⟩
  · exact .inl (by decide)
  · exact .inr ⟨1, _, rfl, rfl, rfl⟩
  · exact .inr ⟨1, _, rfl, rfl, rfl⟩
  · exact .inr ⟨2, _, rfl, rfl, rfl⟩

/-- The second and the third are recorded, 3 and 2 ticks after they went out. -/
theorem measure_attributes_crossing :
    ∃ m, measure 1 "led" .con none 2 1 0xfffe crossingRounds crossingNetwork = some m ∧
      m.rtts.map (·.rtt) = [3000, 2000] ∧ (∀ r ∈ m.rtts, r.Own crossingRounds crossingNetwork) ∧
      (m.rtts.length : Int) + m.losses = 2 := by
  obtain ⟨-, hall⟩ :=
    measure_attributes 1 "led" .con none 2 1 0xfffe crossingRounds crossingNetwork (by decide)
  obtain ⟨m, hrun, hrequests, hrtts⟩ :
      ∃ m, measure 1 "led" .con none 2 1 0xfffe crossingRounds crossingNetwork = some m ∧
        m.requests = crossingRequests ∧ m.rtts.map (·.rtt) = [3000, 2000] :=
    ⟨_, rfl, by decide, by decide⟩
  obtain ⟨hown, -, -, htotal⟩ := hall m hrun
  exact ⟨m, hrun, hrtts, hown (hrequests ▸ crossing_replies), htotal (by decide) (by decide)⟩

end UsbNcmNet
