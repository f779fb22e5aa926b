/-
`scripts/coap_cli.py` from the arguments to what is printed.

`open_transport` makes a transport and connects it, over and over, until one connects
or the attempts run out.  `main` then sends one request, reads until the reply to it
comes in, and closes the transport on every way out of its `try`.  What the transports do
is an input; what the script does with them is recorded, transport by transport.

A transport has its socket from somewhere in the middle of its constructor on, so a
constructor can raise with a socket or without one.  Python's exceptions come in two kinds
here: `OSError`, which the script catches around `connect` and `recv`, and the rest, which
it catches nowhere but in `close_quietly`.  Whether the transport is plain or DTLS shows
only in what its calls do, and in the line that is printed between the connection and the
`try`.
-/
import UsbNcmNet.Host.Cli

namespace UsbNcmNet

inductive Exn
  | osError
  | other
  deriving DecidableEq, Repr

/-- What a constructor does: return, or raise before or behind `socket.socket`. -/
inductive Construction
  | made
  | raised (e : Exn) (socket : Bool)
  deriving DecidableEq, Repr

/-- A transport being made, connected and closed: what is raised, if anything. -/
structure Attempt where
  construct : Construction
  connect : Option Exn
  close : Option Exn
  deriving DecidableEq, Repr

/-- What is done with the transport of the given attempt; `closed` is a call, whatever it raised. -/
inductive Operation
  | opened (attempt : Nat)
  | closed (attempt : Nat) (raised : Option Exn)
  | sent (attempt : Nat) (data : Bytes)
  deriving DecidableEq, Repr

/-- How a run of the script ends. -/
inductive Ending
  | printed (code name : String) (payload : Bytes)
  | systemExit
  | raised (e : Exn)
  deriving DecidableEq, Repr

/-! ### `open_transport` -/

/-- `close_quietly`: `close` is called, and what it raises is swallowed. -/
def closeQuietly (attempts : Nat → Attempt) (attempt : Nat) : List Operation :=
  [.closed attempt (attempts attempt).close]

/-- The loop over the attempts, from `attempt` on with `left` of them left. -/
def openTransport (attempts : Nat → Attempt) : (left attempt : Nat) → List Operation × Except Ending Nat
  | 0, _ => ([], .error .systemExit)
  | left + 1, attempt =>
      match (attempts attempt).construct with
      -- the constructor is called in front of the `try`
      | .raised e socket => (if socket then [.opened attempt] else [], .error (.raised e))
      | .made =>
          match (attempts attempt).connect with
          | none => ([.opened attempt], .ok attempt)
          | some .other => ([.opened attempt], .error (.raised .other))
          | some .osError =>
              let rest := openTransport attempts left (attempt + 1)
              (.opened attempt :: closeQuietly attempts attempt ++ rest.1, rest.2)

/-! ### `main` -/

inductive Method
  | get | post | put | delete
  deriving DecidableEq, Repr

def METHODS : Method → UInt8
  | .get => 0x01
  | .post => 0x02
  | .put => 0x03
  | .delete => 0x04

/-- The arguments that matter behind the transport; `con` is `--type con`. -/
structure Args where
  method : Method
  path : String
  payload : Option String
  dtls : Bool
  con : Bool
  retries : Int
  deriving DecidableEq, Repr

def TYPES (con : Bool) : CoapType := if con then .con else .nonCon

/-- What the rest of a run is answered. -/
structure CommandAnswers where
  /-- What printing the time of the handshake raises; only a DTLS run prints it. -/
  announce : Option Exn
  /-- `os.urandom(2)` and `os.urandom(4)`. -/
  mid : UInt16
  token : Vector UInt8 4
  send : Option Exn
  /-- What each `recv` gives; one too many is a timeout. -/
  recv : List (Except Exn Bytes)

/-- The read loop: the first datagram with our message id, unless `recv` raises before it. -/
def readReply (mid : Nat) : List (Except Exn Bytes) → Except Ending Bytes
  | [] => .error .systemExit
  | .error .osError :: _ => .error .systemExit
  | .error .other :: _ => .error (.raised .other)
  | .ok data :: rest => if matchesMid mid data then .ok data else readReply mid rest

/-- The request as the script builds it. -/
def commandRequest (args : Args) (answers : CommandAnswers) : Option Bytes :=
  buildRequest (METHODS args.method) args.path (TYPES args.con) answers.mid.toNat
    answers.token.toList (args.payload.map fun payload => utf8 payload.toList)

/-- The `try` block on the transport of the given attempt. -/
def exchange (args : Args) (answers : CommandAnswers) (attempt : Nat) : List Operation × Ending :=
  match commandRequest args answers with
  | none => ([], .raised .other)
  | some data =>
      match answers.send with
      | some e => ([], .raised e)
      | none =>
          match readReply answers.mid.toNat answers.recv with
          | .error ending => ([.sent attempt data], ending)
          | .ok reply =>
              let (codeStr, name, payload) := parseResponse reply
              ([.sent attempt data], .printed codeStr name payload)

/-- A run of the script. -/
def command (args : Args) (attempts : Nat → Attempt) (answers : CommandAnswers) :
    List Operation × Ending :=
  match openTransport attempts args.retries.toNat 1 with
  | (ops, .error ending) => (ops, ending)
  | (ops, .ok attempt) =>
      match (if args.dtls then answers.announce else none) with
      -- in front of the `try`, so without its `finally`
      | some e => (ops, .raised e)
      | none =>
          let (ops', ending) := exchange args answers attempt
          (ops ++ ops' ++ closeQuietly attempts attempt, ending)

end UsbNcmNet
