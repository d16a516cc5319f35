import Lnetlib.Connection.Handlers
import Lnetlib.Lib.Run

/-!
# The signals of a connection over its life

All that can happen on one connection, by any number of threads: operations complete with any results,
their handlers are invoked in any order, packages are dispatched, and `close()` is called from anywhere,
also while a slot or a callback of the connection runs. `close()` is two steps, since other threads can
run between the socket's close and the emission of `closed`. A slot or callback ends by returning, after
which the read handler goes on, or by an exception that leaves the handler.
-/

namespace Lnetlib

open Bytes Transition

/-- Whether this is an emission of the `closed` signal. -/
def Emission.isClosed {κ : Type} : Emission κ → Bool
  | .closed => true
  | .error .. | .received .. | .callback .. => false

/-- A connection over its life. -/
structure Lifecycle (κ : Type) where
  conn : Connection κ
  /-- The read handlers that run a slot or a callback. -/
  slots : Nat
  /-- The calls of `close()` that have closed the socket and not emitted `closed` yet. -/
  closing : Nat
  /-- The identity of the next package. -/
  next : Nat
  emitted : List (Emission κ)

/-- What happens on the connection. -/
inductive LifecycleAct (κ : Type) where
  /-- The `i`-th read completes, having read `buffer`. -/
  | readResult (i : Nat) (buffer : List UInt8) (err : ErrorCode)
  /-- The handler of the `i`-th read is invoked. -/
  | readHandler (i : Nat) (junk : Nat → UInt8)
  /-- A slot or callback of a read handler returns. -/
  | slotReturn
  /-- A slot or callback of a read handler throws. -/
  | slotThrow
  | writeResult (i : Nat) (err : ErrorCode)
  | writeHandler (i : Nat)
  /-- The dispatch slot of a stream with the characters `buffer`. -/
  | dispatch (buffer : List UInt8)
  | createStream (cmd : CommandType) (command : cmd.Value) (cb : Option κ)
  /-- `close()` is called; `shutdown` is the result of the shutdown of an open socket. -/
  | close (shutdown : ErrorCode)
  /-- A call of `close()` that has closed the socket emits `closed`. -/
  | closed

namespace Lifecycle

variable {κ : Type} (o : ByteOrder)

/-- A connection just constructed. -/
def init (κ : Type) : Lifecycle κ :=
  { conn := Connection.construct κ, slots := 0, closing := 0, next := 0, emitted := [] }

/-- One step. -/
def step (s : Lifecycle κ) : LifecycleAct κ → Option (Lifecycle κ)
  | .readResult i buffer err =>
    (s.conn.completeRead i buffer err).map fun conn => { s with conn := conn }
  | .readHandler i junk =>
    (s.conn.invokeRead o junk i).map fun (conn, emitted, goesOn) =>
      { s with
        conn := conn
        slots := if goesOn then s.slots + 1 else s.slots
        emitted := s.emitted ++ emitted }
  | .slotReturn =>
    if 0 < s.slots then some { s with conn := s.conn.waitPackage, slots := s.slots - 1 } else none
  | .slotThrow => if 0 < s.slots then some { s with slots := s.slots - 1 } else none
  | .writeResult i err => (s.conn.completeWrite i err).map fun conn => { s with conn := conn }
  | .writeHandler i =>
    (s.conn.invokeWrite i).map fun (conn, emitted) =>
      { s with conn := conn, emitted := s.emitted ++ emitted }
  | .dispatch buffer =>
    some { s with
      conn := s.conn.dispatchLocked (Connection.createPackage o s.next buffer)
      next := s.next + 1 }
  | .createStream cmd command cb =>
    match cb with
    | some cb => some { s with conn := (s.conn.createStreamWith o cmd command cb).2 }
    | none => some { s with conn := (s.conn.createStream o cmd command).2 }
  | .close shutdown =>
    match s.conn.socket.close shutdown with
    | .ok sckt => some { s with conn := { s.conn with socket := sckt }, closing := s.closing + 1 }
    | .error _ => some s
  | .closed =>
    if 0 < s.closing then
      some { s with closing := s.closing - 1, emitted := s.emitted ++ [.closed] }
    else none

/-- `closed` was emitted. -/
def HasClosed (s : Lifecycle κ) : Prop := ∃ e ∈ s.emitted, e.isClosed = true

/-- Nothing was emitted after `closed`, so it was emitted once at most and it is the last emission. -/
def ClosedIsFinal (s : Lifecycle κ) : Prop :=
  ∀ pre e post, s.emitted = pre ++ e :: post → e.isClosed = true → post = []

instance (s : Lifecycle κ) : Decidable s.HasClosed := inferInstanceAs (Decidable (∃ e ∈ s.emitted, _))

/-- A read that has completed and whose handler only returns: it was aborted, or has read nothing. -/
def Ends (op : ReadOp) : Prop :=
  ∃ err ∈ op.result, err.value = ErrorCode.operationAborted.value ∨ err.isError = false ∧ op.buffer = []

instance (op : ReadOp) : Decidable (Ends op) := inferInstanceAs (Decidable (∃ err ∈ op.result, _))

/-- The writes that have completed were aborted or have succeeded. -/
def SilentWrites (ops : List WriteOp) : Prop := ∀ op ∈ ops, ∀ err ∈ op.result, Connection.Silent err

instance (ops : List WriteOp) : Decidable (SilentWrites ops) :=
  inferInstanceAs (Decidable (∀ op ∈ ops, ∀ err ∈ op.result, _))

/-- No write has succeeded, so none of their handlers sends another package. -/
def NoneSucceeded (ops : List WriteOp) : Prop := ∀ op ∈ ops, ∀ err ∈ op.result, err.isError = true

instance (ops : List WriteOp) : Decidable (NoneSucceeded ops) :=
  inferInstanceAs (Decidable (∀ op ∈ ops, ∀ err ∈ op.result, _))

/-- The end of the stream, as either kind of socket reports it. -/
def EndOfStream (err : ErrorCode) : Prop :=
  err.value = ErrorCode.eof.value ∨ err.value = ErrorCode.sslShortRead.value

instance (err : ErrorCode) : Decidable (EndOfStream err) := inferInstanceAs (Decidable (_ ∨ _))

/-- The connection is closed cleanly.

- `close()` finds the socket open when the end of the stream was not handled, the read that waits for
  its handler only ends, the write that does has not failed, and has not succeeded while packages are
  queued.
- The end of the stream is handled when no failed write waits for its handler, and, where a write
  reports it, when the read only ends.
- After either, no slot or callback returns to the read handler, nothing is dispatched on a closed
  socket but behind the write that `close()` has aborted, and no write fails. -/
def ClosesCleanly (s : Lifecycle κ) : LifecycleAct κ → Prop
  | .close shutdown => s.conn.socket.isOpen = true → shutdown.isError = false →
      ¬ s.HasClosed ∧ (∀ op ∈ s.conn.socket.reads, op.result.isSome = true → Ends op) ∧
        SilentWrites s.conn.socket.writes ∧
        (s.conn.packages = [] ∨ NoneSucceeded s.conn.socket.writes)
  | .readHandler i _ => ∀ op ∈ s.conn.socket.reads[i]?, ∀ err ∈ op.result, EndOfStream err →
      SilentWrites s.conn.socket.writes
  | .writeHandler i => ∀ op ∈ s.conn.socket.writes[i]?, ∀ err ∈ op.result, EndOfStream err →
      (∀ op ∈ s.conn.socket.reads, Ends op) ∧ SilentWrites (s.conn.socket.writes.eraseIdx i)
  | .slotReturn => s.conn.socket.isOpen = true ∧ ¬ s.HasClosed
  | .dispatch _ => s.conn.socket.isOpen = true ∨
      (s.conn.socketLocked = true ∧ NoneSucceeded s.conn.socket.writes)
  | .writeResult _ err => s.HasClosed → Connection.Silent err
  | .readResult .. | .slotThrow | .createStream .. | .closed => True

instance (s : Lifecycle κ) : ∀ a, Decidable (ClosesCleanly s a)
  | .close _ => inferInstanceAs (Decidable (_ → _ → _ ∧ _ ∧ _ ∧ (_ ∨ _)))
  | .readHandler i _ =>
    inferInstanceAs (Decidable (∀ op ∈ s.conn.socket.reads[i]?, ∀ err ∈ op.result, _ → _))
  | .writeHandler i =>
    inferInstanceAs (Decidable (∀ op ∈ s.conn.socket.writes[i]?, ∀ err ∈ op.result, _ → _ ∧ _))
  | .slotReturn => inferInstanceAs (Decidable (_ ∧ _))
  | .dispatch _ => inferInstanceAs (Decidable (_ ∨ (_ ∧ _)))
  | .writeResult _ _ => inferInstanceAs (Decidable (_ → _))
  | .readResult .. | .slotThrow | .createStream .. | .closed => inferInstanceAs (Decidable True)

end Lifecycle

end Lnetlib
