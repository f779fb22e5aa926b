/-
`scripts/coap_latency.py`: the request encoder, which `scripts/coap_cli.py` shares,
and the loop that times requests over UDP or DTLS.

A request is put together byte by byte: the header, the token, one option for
each segment of the path, then the marker and the payload if there is one.  An
option is one byte, with the delta in its upper half and the length in its lower,
and the segment.  Python raises an exception where a value is no byte, or no 16-bit
number; the encoder has no result then.

The loop counts the message id up for each request and reads datagrams until one
carries it, or until `recv` gives up.  What `recv` does is an input, one entry for
each call, over the whole of a `measure`; so are the random bytes and the clock.
-/
import UsbNcmNet.Coap.Message

namespace UsbNcmNet

def COAP_VER : Nat := 1

/-- `bytearray.append`; a value that is no byte is a `ValueError`. -/
def appendByte (out : Bytes) (value : Nat) : Option Bytes :=
  if value < 256 then some (out ++ [UInt8.ofNat value]) else none

/-- `struct.pack("!H", n)`; a value that is no 16-bit number is a `struct.error`. -/
def packU16 (n : Nat) : Option Bytes :=
  if n < 65536 then some [UInt8.ofNat (n / 256), UInt8.ofNat n] else none

/-- `str.encode()`. -/
def utf8 (s : List Char) : Bytes := s.flatMap String.utf8EncodeChar

/-- `uri_path.split("/")`. -/
def splitPath (uriPath : String) : List (List Char) := uriPath.toList.splitOn '/'

/-- One Uri-Path option for each segment that is not empty; `last` is the number of the last. -/
def appendSegments : List (List Char) → Nat → Bytes → Option Bytes
  | [], _, out => some out
  | seg :: segs, last, out =>
      if seg = [] then appendSegments segs last out
      else do
        let b := utf8 seg
        let out ← appendByte out ((11 - last) <<< 4 ||| b.length)
        appendSegments segs 11 (out ++ b)

def buildRequest (code : UInt8) (uriPath : String) (mtype : CoapType) (mid : Nat) (token : Bytes)
    (payload : Option Bytes) : Option Bytes := do
  let tkl := token.length
  let out ← appendByte [] (COAP_VER <<< 6 ||| mtype.bits.toNat <<< 4 ||| tkl)
  let id ← packU16 mid
  let out ← appendSegments (splitPath uriPath) 0 (out ++ [code] ++ id ++ token)
  match payload with
  | none => return out
  | some payload => return out ++ [0xff] ++ payload

/-- `len(data) >= 4 and struct.unpack("!H", data[2:4])[0] == mid`. -/
def matchesMid (mid : Nat) (data : Bytes) : Bool :=
  4 ≤ data.length && 256 * (data.getD 2 0).toNat + (data.getD 3 0).toNat == mid

/-! ### The loop -/

/--
A datagram as it is received.  The code sees only `data`; `answers` is the iteration
of the call whose request the datagram is a reply to, if it is one.
-/
structure Datagram where
  answers : Option Nat
  data : Bytes
  deriving DecidableEq, Repr

/-- What a `recv` does; `now` is the clock behind it. -/
inductive Recv
  | datagram (d : Datagram) (now : Int)
  /-- `socket.timeout`, or any other `OSError`. -/
  | timeout
  deriving DecidableEq, Repr

/-- The inputs of one iteration besides what is received. -/
structure Round where
  /-- `os.urandom(4)`. -/
  token : Vector UInt8 4
  t0 : Int
  /-- False when `send` raises an `OSError`. -/
  sends : Bool
  deriving DecidableEq, Repr

/-- An entry of `rtts`, with the iteration it is made in and the datagram behind it. -/
structure RoundTrip where
  iteration : Nat
  rtt : Int
  datagram : Datagram
  deriving DecidableEq, Repr

/--
The inner `while`: the first datagram with our message id and its round trip, or
nothing once `recv` raises, and what is left to receive.  Where nothing is left,
every `recv` times out.
-/
def recvUntil (mid : Nat) (t0 : Int) : List Recv → Option (Int × Datagram) × List Recv
  | [] => (none, [])
  | .timeout :: network => (none, network)
  | .datagram d now :: network =>
      if matchesMid mid d.data then (some ((now - t0) * 1000, d), network)
      else recvUntil mid t0 network

/-- The `try` block: a request that cannot be sent is given up like one that is not answered. -/
def sendAndRecv (mid : Nat) (round : Round) (network : List Recv) :
    Option (Int × Datagram) × List Recv :=
  if round.sends then recvUntil mid round.t0 network else (none, network)

/-- The variables of `measure`, with the requests built so far and what is left to receive. -/
structure Measurement where
  mid : Nat
  rtts : List RoundTrip
  losses : Nat
  requests : List Bytes
  network : List Recv
  deriving DecidableEq, Repr

def measureIteration (code : UInt8) (path : String) (mtype : CoapType) (payload : Option Bytes)
    (warmup : Int) (rounds : Nat → Round) (m : Measurement) (i : Nat) : Option Measurement := do
  let mid := (m.mid + 1) &&& 0xffff
  let req ← buildRequest code path mtype mid (rounds i).token.toList payload
  let (rtt, network) := sendAndRecv mid (rounds i) m.network
  let m := { m with mid, network, requests := m.requests ++ [req] }
  if (i : Int) < warmup then return m
  match rtt with
  | none => return { m with losses := m.losses + 1 }
  | some (rtt, datagram) => return { m with rtts := m.rtts ++ [⟨i, rtt, datagram⟩] }

/-- `mid` is the random number the message ids start behind. -/
def measure (code : UInt8) (path : String) (mtype : CoapType) (payload : Option Bytes)
    (count warmup : Int) (mid : UInt16) (rounds : Nat → Round) (network : List Recv) :
    Option Measurement :=
  (List.range (count + warmup).toNat).foldlM
    (measureIteration code path mtype payload warmup rounds)
    { mid := mid.toNat, rtts := [], losses := 0, requests := [], network }

end UsbNcmNet
