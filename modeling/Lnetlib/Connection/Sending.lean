import Lnetlib.Connection.Model
import Lnetlib.Lib.Run

/-!
# The threads that send on a connection

Any number of threads run the dispatch slots of streams, and threads of the io_service run the write
handlers, in any interleaving. A section that holds `_mutex` is one step, taken when the mutex is
acquired; releasing it is a later step. User code that a signal runs inside a handler holds no lock of
the connection, so what it dispatches is the step of a thread of its own.

`accepted` and `completed` are histories: the packages in the order in which the dispatch slots held
the mutex, and the packages whose handler was invoked, with the result it was given.
-/

namespace Lnetlib

open Bytes Transition

/-- Where a thread stands. -/
inductive Thread where
  | idle
  /-- In the dispatch slot, before it locks `_mutex`. -/
  | dispatch (pkg : Package)
  /-- In the write handler, after `check_error` and before it locks `_mutex`. -/
  | writeHandler
  /-- Holding `_mutex`, at the end of the guarded section. -/
  | unlock
  deriving DecidableEq, Repr

/-- A connection and the threads that send on it. -/
structure Sending (κ : Type) where
  conn : Connection κ
  mutex : Option Nat
  threads : Nat → Thread
  /-- The identity of the next package that is made. -/
  next : Nat
  accepted : List Package
  completed : List (Package × ErrorCode)
  emitted : List (Emission κ)

/-- The steps of the threads and of the socket. -/
inductive SendAct where
  /-- Thread `t` enters the dispatch slot of a stream with the characters `buffer`. -/
  | createPackage (t : Nat) (buffer : List UInt8)
  /-- Thread `t` locks `_mutex` and runs the section it guards. -/
  | enter (t : Nat)
  /-- Thread `t` unlocks `_mutex`. -/
  | leave (t : Nat)
  /-- The `i`-th write on the socket completes. -/
  | result (i : Nat) (err : ErrorCode)
  /-- Thread `t` invokes the handler of the `i`-th write, which has completed. -/
  | complete (t i : Nat)
  /-- Some thread calls `close()`; `shutdown` is the result of the shutdown of an open socket. -/
  | close (shutdown : ErrorCode)
  deriving DecidableEq, Repr

namespace Sending

variable {κ : Type} (o : ByteOrder)

/-- A connection just constructed, on which nobody sends. -/
def init (κ : Type) : Sending κ :=
  { conn := Connection.construct κ
    mutex := none
    threads := fun _ => .idle
    next := 0
    accepted := []
    completed := []
    emitted := [] }

/-- The writes on the socket whose handler has not been invoked. -/
abbrev writes (s : Sending κ) : List WriteOp := s.conn.socket.writes

/-- The packages being written. -/
def writing (s : Sending κ) : List Package := s.writes.map WriteOp.pkg

/-- Replace the writes on the socket. -/
def setWrites (ws : List WriteOp) (s : Sending κ) : Sending κ :=
  { s with conn := { s.conn with socket := { s.conn.socket with writes := ws } } }

/-- One step. -/
def step (s : Sending κ) : SendAct → Option (Sending κ)
  | .createPackage t buffer =>
    if s.threads t = .idle then
      some { s with
        threads := Function.update s.threads t (.dispatch (Connection.createPackage o s.next buffer))
        next := s.next + 1 }
    else none
  | .enter t =>
    if s.mutex = none then
      match s.threads t with
      | .dispatch pkg => some { s with
          conn := s.conn.dispatchLocked pkg
          mutex := some t
          threads := Function.update s.threads t .unlock
          accepted := s.accepted ++ [pkg] }
      | .writeHandler => some { s with
          conn := s.conn.writeHandlerLocked
          mutex := some t
          threads := Function.update s.threads t .unlock }
      | _ => none
    else none
  | .leave t =>
    if s.threads t = .unlock then
      some { s with mutex := none, threads := Function.update s.threads t .idle }
    else none
  | .result i err =>
    match s.writes[i]? with
    | some { pkg := pkg, result := none } =>
      some (s.setWrites (s.writes.set i { pkg := pkg, result := some err }))
    | _ => none
  | .complete t i =>
    match s.threads t, s.writes[i]? with
    | .idle, some { pkg := pkg, result := some err } =>
      let (ok, emitted) := Connection.checkError err
      some { s.setWrites (s.writes.eraseIdx i) with
        threads := Function.update s.threads t (if ok then .writeHandler else .idle)
        completed := s.completed ++ [(pkg, err)]
        emitted := s.emitted ++ emitted }
    | _, _ => none
  | .close shutdown =>
    match s.conn.close shutdown with
    | .ok (conn, emitted) => some { s with conn := conn, emitted := s.emitted ++ emitted }
    | .error _ => some s

/-- No write is outstanding, and no dispatch slot and no write handler is running. -/
def Quiescent (s : Sending κ) : Prop := s.writes = [] ∧ ∀ t, s.threads t = .idle

/-- No write handler has been invoked with an error. -/
def NoFailure (s : Sending κ) : Prop := ∀ e ∈ s.completed, e.2.isError = false

/-- The steps of thread `t` through the dispatch slot. -/
def dispatchSlot (t : Nat) (buffer : List UInt8) : List SendAct :=
  [.createPackage t buffer, .enter t, .leave t]

end Sending

end Lnetlib
