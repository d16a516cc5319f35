import Lnetlib.Server.Model
import Lnetlib.Lib.Run

/-!
# The accept chain of a server

The completion handlers of the sessions, in any order and with any errors, while user code starts and
stops the server and changes its settings. A handler that has made a connection runs the slots of
`connected` before it goes on; `slotReturn` is the rest of it.
-/

namespace Lnetlib

open Transition

/-- A server and its accept handlers that run the slots of `connected`. -/
structure Accepting (κ : Type) where
  server : Server κ
  slots : Nat

/-- Calls of user code, and completions. -/
inductive AcceptAct where
  | setThreadPolicy (policy : ServerThreadPolicy) (count : Int)
  | setEnabled (enabled : Bool)
  | setLastError (lastError : String)
  | start (bound : Option ErrorCode) (hardware : Int)
  | stop
  /-- The `i`-th operation completes and its handler runs. -/
  | complete (i : Nat) (err : ErrorCode)
  /-- The slots of `connected` return. -/
  | slotReturn
  deriving DecidableEq

namespace Accepting

variable {κ : Type}

/-- A server just constructed. -/
def init (κ : Type) : Accepting κ := { server := Server.construct κ, slots := 0 }

/-- One step. -/
def step (s : Accepting κ) : AcceptAct → Option (Accepting κ)
  | .setThreadPolicy policy count => some { s with server := s.server.setThreadPolicy policy count }
  | .setEnabled enabled => some { s with server := s.server.setEnabled enabled }
  | .setLastError lastError => some { s with server := s.server.setLastError lastError }
  | .start bound hardware => some { s with server := s.server.start bound hardware }
  | .stop => some { s with server := s.server.stop }
  | .complete i err =>
    if s.server.stopped then none
    else
      match s.server.ops[i]? with
      | some op =>
        let (server, goesOn) := { s.server with ops := s.server.ops.eraseIdx i }.sessionHandler op err
        some { server := server, slots := if goesOn then s.slots + 1 else s.slots }
      | none => none
  | .slotReturn =>
    if 0 < s.slots then some { server := s.server.waitNextConnection, slots := s.slots - 1 } else none

/-- Once a server was started, and unless it was stopped, exactly one session is in progress when no
    handler is running. -/
def OneInProgress (s : Accepting κ) : Prop :=
  s.server.running = true → s.server.stopped = false → s.slots = 0 → ∃ op, s.server.ops = [op]

/-- The completion is a success. -/
def Succeeds (_ : Accepting κ) : AcceptAct → Prop
  | .complete _ err => err.isError = false
  | _ => True

end Accepting

end Lnetlib
