/-
What `edhoc_post` touches before the engine is called.

`edhocDeframe` says what the head of the handler computes; here it is written once
more with the machine in view.  The payload is a pointer and a `uint16_t`, every
byte is loaded by index, the sums and differences are those of `uint32_t`, and the
message is an offset and a length.  Each load and each sum goes on a trace, so
that whether it stays inside the payload can be asked of all of them at once.

`LOG_INF` prints the first byte of the message, so a build with logging loads it.
-/
import Mathlib.Algebra.Group.Nat.Defs
import UsbNcmNet.Edhoc.Framing

namespace UsbNcmNet

/-- A load from the payload, or a sum or difference of `uint32_t`. -/
inductive Access
  | load (i : Nat)
  | add (x y : UInt32)
  | sub (x y : UInt32)
  deriving DecidableEq, Repr

/-- The load is inside a payload of `n` bytes; the result does not wrap. -/
def Access.Fine (n : Nat) : Access → Prop
  | .load i => i < n
  | .add x y => x.toNat + y.toNat < 2 ^ 32
  | .sub x y => y ≤ x

abbrev Traced := StateM (List Access)

def load (p : Bytes) (i : Nat) : Traced UInt8 := do
  modify (· ++ [.load i])
  return p.getD i 0

def add32 (x y : UInt32) : Traced UInt32 := do
  modify (· ++ [.add x y])
  return x + y

def sub32 (x y : UInt32) : Traced UInt32 := do
  modify (· ++ [.sub x y])
  return x - y

/-- `cbor_item_len`, load by load. -/
def cborItemLenTraced (p : Bytes) (len : UInt32) : Traced UInt32 := do
  if len = 0 then
    return 0
  let major := (← load p 0) >>> 5
  let ai := (← load p 0) &&& 0x1f
  let hdr : UInt32 :=
    if ai = 24 then 2
    else if ai = 25 then 3
    else if ai = 26 then 5
    else if ai = 27 then 9
    else 1
  let mut payload : UInt32 := 0
  if major = 2 ∨ major = 3 then
    if ai < 24 then
      payload := ai.toUInt32
    else if ai = 24 ∧ 2 ≤ len then
      payload := (← load p 1).toUInt32
    else if ai = 25 ∧ 3 ≤ len then
      payload := (← load p 1).toUInt32 <<< 8 ||| (← load p 2).toUInt32
  add32 hdr payload

/-- Where the message is: `is_msg_1`, `msg - payload` and `msg_len`. -/
structure Located where
  isMsg1 : Bool
  off : UInt32
  len : UInt32
  deriving DecidableEq, Repr

/-- From the test of `payload_len` to the log line. -/
def edhocLocate (logEnabled : Bool) (p : Bytes) (payloadLen : UInt32) :
    Traced (Except Int Located) := do
  if payloadLen = 0 then
    return .error (-EINVAL)
  let mut msg : Located := ⟨false, 0, 0⟩
  if (← load p 0) = 0xf5 then
    msg := ⟨true, 1, ← sub32 payloadLen 1⟩
  else
    let skip ← cborItemLenTraced p payloadLen
    if skip = 0 ∨ payloadLen ≤ skip then
      return .error (-EINVAL)
    msg := ⟨false, skip, ← sub32 payloadLen skip⟩
  if logEnabled then
    let _ ← load p msg.off.toNat
  return .ok msg

/-- `edhoc_post` up to the log line, on what `coap_packet_get_payload` returned. -/
def edhocPostHead (logEnabled : Bool) (payload : Option Bytes) : Traced (Except Int Located) :=
  match payload with
  | none => return .error (-EINVAL)
  | some p => edhocLocate logEnabled p (UInt16.ofNat p.length).toUInt32

/-- The message a located one is. -/
def Located.framed (p : Bytes) (msg : Located) : Framed :=
  if msg.isMsg1 then .message1 (p.drop msg.off.toNat) else .message3 (p.drop msg.off.toNat)

/-- What a stretch of the handler returns, and the trace it leaves behind `t`. -/
def Traced.exec {α : Type} (m : Traced α) (t : List Access) : α × List Access :=
  Id.run (StateT.run m t)

end UsbNcmNet
