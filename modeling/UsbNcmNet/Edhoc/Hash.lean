/-
The transcript hash on the SHA-256 accelerator, `edhoc_hash_hw` of `src/edhoc_oscore.c`.

The block is driven through a session of the crypto API: begin, one computation over
the whole input, free.  What the calls answer is up to the driver.  The digest itself
goes from the driver to the caller's buffer and is not looked at.
-/
import UsbNcmNet.Coap.Message
import UsbNcmNet.Lib.Calls

namespace UsbNcmNet

inductive HashCall
  | deviceIsReady
  | hashBeginSession
  | hashCompute (input : Bytes)
  | hashFreeSession
  deriving DecidableEq, Repr

inductive HashResult
  | success | invalidArgument | cryptoFailure
  deriving DecidableEq, Repr

/-- The arguments; a pointer only matters as NULL or not, but for what `input` points to. -/
structure HashArgs where
  input : Option Bytes
  /-- `hash != NULL`. -/
  hash : Bool
  hashSize : Nat
  /-- `hash_len != NULL`. -/
  hashLen : Bool
  deriving DecidableEq, Repr

open Calls in
/-- What is returned, and what is left in `*hash_len`, if anything. -/
def edhocHashHw (args : HashArgs) : Calls HashCall (HashResult × Option Nat) := do
  match args.input with
  | none => return (.invalidArgument, none)
  | some input =>
      if input.length = 0 ∨ args.hash = false ∨ args.hashSize < 32 ∨ args.hashLen = false then
        return (.invalidArgument, none)
      if (← perform .deviceIsReady) = 0 then return (.cryptoFailure, none)
      if (← perform .hashBeginSession) ≠ 0 then return (.cryptoFailure, none)
      let ret ← perform (.hashCompute input)
      let _ ← perform .hashFreeSession
      if ret ≠ 0 then return (.cryptoFailure, none)
      return (.success, some 32)

/-- The hashes of a run, one after another. -/
def hashAll : List HashArgs → Calls HashCall (List (HashResult × Option Nat))
  | [] => return []
  | args :: rest => do
      let result ← edhocHashHw args
      let results ← hashAll rest
      return result :: results

end UsbNcmNet
