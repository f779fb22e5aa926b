/-
The OSCORE latency loop of `host_client/src/client.cpp`.

`oscore_request` sends one protected request and takes the next datagram from the
socket for the answer.  It gives every request a fresh token and message id, and
looks at neither when the answer is there.  Whatever reached the socket and was not
read by an earlier call is still in its queue, in order of arrival.

A reply is known by the request it answers.  Requests are counted for that, from the
start of the program; the code has no such count.  The libraries and the network
are inputs, one `Exchange` for each call.
-/
import UsbNcmNet.Edhoc.Responder

namespace UsbNcmNet

/-- A reply of the device: the number of the request it answers, and the token it echoes. -/
structure Reply where
  request : Nat
  token : UInt32
  deriving DecidableEq, Repr

/-- The statics of `oscore_request`, the calls so far, and the queue of the socket. -/
structure OscoreClient where
  mid : UInt16
  token : UInt32
  calls : Nat
  queue : List Reply
  deriving DecidableEq, Repr

def OscoreClient.start : OscoreClient where
  mid := 256
  token := 0x1000
  calls := 0
  queue := []

/-- What is answered during one call; `arrivals` is what reaches the socket meanwhile. -/
structure Exchange where
  coap2oscore : Err
  send : Int
  arrivals : List Reply
  oscore2coap : Err
  validate : Bool
  /-- `now_ms() - t0`. -/
  elapsed : Int
  deriving DecidableEq, Repr

/-- What a call returns, what it leaves in `*rtt_ms`, and the datagram it took. -/
structure Outcome where
  ret : Int
  rtt : Int
  reply : Option Reply
  deriving DecidableEq, Repr

def oscoreRequest (x : Exchange) (rtt : Int) (c : OscoreClient) : Outcome × OscoreClient :=
  let c := { c with token := c.token + 1, mid := c.mid + 1, calls := c.calls + 1 }
  let queue := c.queue ++ x.arrivals
  if x.coap2oscore ≠ .ok then (⟨-1, rtt, none⟩, { c with queue })
  else if x.send < 0 then (⟨-1, rtt, none⟩, { c with queue })
  else
    match queue with
    | [] => (⟨-1, rtt, none⟩, { c with queue := [] })
    | reply :: queue =>
        if x.oscore2coap ≠ .ok ∧ x.oscore2coap ≠ .firstRequestAfterReboot then
          (⟨-1, x.elapsed, some reply⟩, { c with queue })
        else if !x.validate then (⟨-1, x.elapsed, some reply⟩, { c with queue })
        else (⟨0, x.elapsed, some reply⟩, { c with queue })

/-- A recorded round trip, with the iteration it was recorded in and the datagram behind it. -/
structure Sample where
  iteration : Nat
  rtt : Int
  reply : Option Reply
  deriving DecidableEq, Repr

/-- The variables of `bench_endpoint`. -/
structure Bench where
  client : OscoreClient
  rtts : List Sample
  losses : Nat
  deriving DecidableEq, Repr

def benchIteration (warmup : Int) (schedule : Nat → Exchange) (b : Bench) (i : Nat) : Bench :=
  let (outcome, client) := oscoreRequest (schedule i) (-1) b.client
  if (i : Int) < warmup then { b with client }
  else if outcome.ret ≠ 0 ∨ outcome.rtt < 0 then { b with client, losses := b.losses + 1 }
  else { b with client, rtts := b.rtts ++ [⟨i, outcome.rtt, outcome.reply⟩] }

def INT_MAX : Int := 2147483647

/--
The loop, up to the statistics.  `reserve` throws when `count` is negative, and a sum
beyond `INT_MAX` has no meaning in C++; there is no result then.
-/
def benchEndpoint (count warmup : Int) (schedule : Nat → Exchange) (client : OscoreClient) :
    Option Bench :=
  if count < 0 ∨ INT_MAX < count + warmup then none
  else
    some ((List.range (count + warmup).toNat).foldl (benchIteration warmup schedule)
      { client, rtts := [], losses := 0 })

end UsbNcmNet
