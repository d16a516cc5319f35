import Lnetlib.Server.Accept

/-!
# A server that is started again

The accept chain of a server over any history of `start` and `stop`, with the number of the first session
of the latest `start` that went past its guards. An io_service that was stopped is never reset, so what is
started on it afterwards is not run.
-/

namespace Lnetlib

open Transition

/-- The session of an operation. -/
def SessionOp.session : SessionOp → Nat
  | accept session | handshake session => session

/-- A server with its accept handlers and the first session of its latest start. -/
structure Serving (κ : Type) where
  accepting : Accepting κ
  first : Nat

namespace Serving

variable {κ : Type}

/-- A server just constructed. -/
def init (κ : Type) : Serving κ := { accepting := Accepting.init κ, first := 0 }

def server (s : Serving κ) : Server κ := s.accepting.server

/-- One step. The server starts when `_running` becomes true. -/
def step (s : Serving κ) (a : AcceptAct) : Option (Serving κ) :=
  (s.accepting.step a).map fun accepting =>
    { accepting := accepting
      first := if s.server.running = false ∧ accepting.server.running = true
        then s.server.nextSession else s.first }

/-- The service runs, and a session of the latest start waits for its client or for the handshake with it,
    except while an accept handler is in the slots of `connected`. -/
def Up (s : Serving κ) : Prop :=
  s.server.stopped = false ∧
    (s.accepting.slots = 0 → ∃ op ∈ s.server.ops, s.first ≤ op.session)

/-- A running server serves, and a server that is not running serves after a `start` with no pending
    encryption error that can bind its address. -/
structure ReallyServes (s : Serving κ) : Prop where
  running : s.server.running = true → s.Up
  start : s.server.running = false → s.server.encryption.lastError = "" → ∀ hardware s',
    s.step (.start none hardware) = some s' → s'.server.running = true ∧ s'.Up

/-- No accept and no handshake fails, and a running server is not stopped, unless an encryption error is
    pending that is never cleared. -/
def NeverStopped (s : Serving κ) : AcceptAct → Prop
  | .complete _ err => err.isError = false
  | .stop => s.server.running = true → s.server.encryption.lastError ≠ ""
  | .setLastError lastError => lastError = "" → s.server.stopped = false
  | _ => True

instance (s : Serving κ) : ∀ a, Decidable (s.NeverStopped a)
  | .complete _ err => inferInstanceAs (Decidable (err.isError = false))
  | .stop => inferInstanceAs (Decidable (_ → s.server.encryption.lastError ≠ ""))
  | .setLastError lastError => inferInstanceAs (Decidable (lastError = "" → _))
  | .setThreadPolicy _ _ | .setEnabled _ | .start _ _ | .slotReturn => isTrue trivial

end Serving

end Lnetlib
