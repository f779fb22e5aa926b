/-
What the service thread does while `main()` is still at work.

A schedule interleaves the steps of `main()`, the requests and the single calls of the
handlers.  Its requests are those of a run of the board, and the calls made so far are
the first of that run, so what holds of the calls of every run of the board holds at
every moment of every schedule.  Of the globals that can be said only between two
requests: in the middle of one they are whatever its handler has got to.
-/
import UsbNcmNet.Boot
import UsbNcmNet.Lib.Machine
import UsbNcmNet.Proofs.Handshake

namespace UsbNcmNet

open Trace

variable {σ : Type}

/-- The request that is handed to a handler, if the action does that. -/
def System.delivered (s : System σ) : Action σ → Option (Event σ)
  | .deliver e => if s.accepts then some e else none
  | _ => none

/-- The request that comes in with an action, whether it is taken or not. -/
def Action.event : Action σ → Option (Event σ)
  | .deliver e => some e
  | _ => none

end UsbNcmNet
