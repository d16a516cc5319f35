import Lnetlib.Connection.Handlers
import Lnetlib.Lib.Framing
import Lnetlib.Lib.Run

/-!
# The read loop of a connection

A connection, the bytes its peer sends, and the read handlers that run, each on a thread of its own: there
is no bound on the threads that run the io_service, nor a strand. The peer may send any bytes, and they may
arrive in any pieces; a read fails with any error except `operation_aborted`, which an operation has only
when the socket was closed. A read of no bytes is complete when it is started, so it does not fail.

A slot or callback may do anything in the meantime, since user code and the other handlers of the connection
are steps of their own. It ends by returning or by an exception that leaves the handler.
-/

namespace Lnetlib

open Bytes Transition

/-- A read handler that is running. -/
inductive ReadFrame where
  /-- It was invoked for a read that has completed. -/
  | entered (op : ReadOp) (err : ErrorCode)
  /-- It runs the slots of `closed` or `error`, after which it returns. -/
  | failing
  /-- It runs the slots of `received` or a callback, with the stream on a body. -/
  | inSlot (body : List UInt8)
  /-- The slot has returned, and `wait_package` is called next. -/
  | waitPackage
  deriving DecidableEq, Repr

/-- The handler is about to get a package of size zero. -/
def ReadFrame.isEmptyPackage : ReadFrame → Bool
  | entered op _ => op.handler == .readPackageBodyHandler && op.exactly == 0
  | failing | inSlot _ | waitPackage => false

/-- The handler runs a received slot or a callback. -/
def ReadFrame.isInSlot : ReadFrame → Bool
  | inSlot _ => true
  | entered _ _ | failing | waitPackage => false

/-- The start and the end of a call of received slots or of a callback. -/
inductive SlotEvent where
  | started (body : List UInt8)
  | ended (body : List UInt8)
  deriving DecidableEq, Repr

/-- A connection that reads. -/
structure Reading (κ : Type) where
  conn : Connection κ
  /-- The read handlers that run. -/
  handlers : List ReadFrame
  /-- The bytes the peer has sent, and those of them that have not been read. -/
  sent : List UInt8
  pipe : List UInt8
  calls : List SlotEvent
  /-- What read handlers have emitted for reads that failed. -/
  reported : List (Emission κ)
  /-- The identity of the next package. -/
  next : Nat

/-- What happens. -/
inductive ReadingAct (κ : Type) where
  | peerSend (bs : List UInt8)
  /-- The `i`-th read has all its bytes. -/
  | readResult (i : Nat)
  /-- The `i`-th read fails after `n` bytes. -/
  | readFail (i n : Nat) (err : ErrorCode)
  /-- A thread invokes the handler of the `i`-th read. -/
  | invoke (i : Nat)
  /-- The `k`-th handler goes on, to the slots or callback it runs or to its end. -/
  | advance (k : Nat) (junk : Nat → UInt8)
  /-- The slots or the callback of the `k`-th handler return. -/
  | slotReturn (k : Nat)
  | slotThrow (k : Nat)
  | writeResult (i : Nat) (err : ErrorCode)
  | writeHandler (i : Nat)
  /-- The dispatch slot of a stream with the characters `buffer`. -/
  | dispatch (buffer : List UInt8)
  | createStream (cmd : CommandType) (command : cmd.Value) (cb : Option κ)
  /-- `close()` is called; `shutdown` is the result of the shutdown of an open socket. -/
  | close (shutdown : ErrorCode)

namespace Reading

variable {κ : Type} (o : ByteOrder)

/-- A connection just constructed. -/
def init (κ : Type) : Reading κ :=
  { conn := Connection.construct κ, handlers := [], sent := [], pipe := [], calls := [], reported := []
    next := 0 }

/-- The `k`-th handler has returned. -/
def leave (k : Nat) (s : Reading κ) : Reading κ := { s with handlers := s.handlers.eraseIdx k }

/-- The bytes of the `i`-th read, in progress on an open socket, are the next `n` in the pipe. -/
def takeBytes (i n : Nat) (err : ErrorCode) (s : Reading κ) : Option (Reading κ) :=
  if s.conn.socket.isOpen ∧ n ≤ s.pipe.length then
    (s.conn.completeRead i (s.pipe.take n) err).map fun conn =>
      { s with conn := conn, pipe := s.pipe.drop n }
  else none

/-- The handler of a completed read, up to the slots or the callback it runs. -/
def handle (junk : Nat → UInt8) (k : Nat) (op : ReadOp) (err : ErrorCode) (s : Reading κ) : Reading κ :=
  match s.conn.readHandler o junk op err with
  | (conn, _, true) =>
    { s with
      conn := conn
      handlers := s.handlers.set k (.inSlot op.buffer)
      calls := s.calls ++ [.started op.buffer] }
  | (conn, [], false) => leave k { s with conn := conn }
  | (conn, emitted, false) =>
    { s with
      conn := conn
      handlers := s.handlers.set k .failing
      reported := s.reported ++ emitted }

/-- One step. -/
def step (s : Reading κ) : ReadingAct κ → Option (Reading κ)
  | .peerSend bs => some { s with sent := s.sent ++ bs, pipe := s.pipe ++ bs }
  | .readResult i => s.conn.socket.reads[i]?.bind fun op => s.takeBytes i op.exactly .success
  | .readFail i n err =>
    s.conn.socket.reads[i]?.bind fun op =>
      if n < op.exactly ∧ err.isError ∧ err.value ≠ ErrorCode.operationAborted.value then
        s.takeBytes i n err
      else none
  | .invoke i =>
    match s.conn.socket.reads[i]? with
    | some { handler := handler, exactly := exactly, buffer := buffer, result := some err } =>
      some { s with
        conn := s.conn.setReads (s.conn.socket.reads.eraseIdx i)
        handlers := s.handlers ++ [.entered
          { handler := handler, exactly := exactly, buffer := buffer, result := some err } err] }
    | _ => none
  | .advance k junk =>
    match s.handlers[k]? with
    | some (.entered op err) => some (s.handle o junk k op err)
    | some .waitPackage => some (leave k { s with conn := s.conn.waitPackage })
    | _ => none
  | .slotReturn k =>
    match s.handlers[k]? with
    | some (.inSlot body) =>
      some { s with handlers := s.handlers.set k .waitPackage, calls := s.calls ++ [.ended body] }
    | some .failing => some (s.leave k)
    | _ => none
  | .slotThrow k =>
    match s.handlers[k]? with
    | some (.inSlot body) => some (leave k { s with calls := s.calls ++ [.ended body] })
    | some .failing => some (s.leave k)
    | _ => none
  | .writeResult i err => (s.conn.completeWrite i err).map fun conn => { s with conn := conn }
  | .writeHandler i => (s.conn.invokeWrite i).map fun (conn, _) => { s with conn := conn }
  | .dispatch buffer =>
    some { s with
      conn := s.conn.dispatchLocked (Connection.createPackage o s.next buffer)
      next := s.next + 1 }
  | .createStream cmd command cb =>
    match cb with
    | some cb => some { s with conn := (s.conn.createStreamWith o cmd command cb).2 }
    | none => some { s with conn := (s.conn.createStream o cmd command).2 }
  | .close shutdown =>
    match s.conn.close shutdown with
    | .ok (conn, _) => some { s with conn := conn }
    | .error _ => some s

/-! ## The properties of the loop -/

/-- The bodies of the packages that are complete in what the peer has sent. -/
def packages (bs : List UInt8) : List (List UInt8) :=
  Framing.bodies (fun buffer => (Connection.packageSize o buffer).toNat) (sizeof UInt64) bs

/-- The calls of slots and callbacks that have ended, then the one that has not, if there is one. -/
def callsOf (ended : List (List UInt8)) (open? : Option (List UInt8)) : List SlotEvent :=
  ended.flatMap (fun body => [.started body, .ended body]) ++ open?.toList.map .started

/-- Unless user code has closed the connection: when no read handler runs, a read is outstanding, or `closed`
    or `error` was emitted for the read that failed. -/
def Hears (s : Reading κ) : Prop :=
  s.conn.socket.isOpen = true → s.handlers = [] →
    s.conn.socket.reads ≠ [] ∨
    ∃ e ∈ s.reported, e = .closed ∨ ∃ code message, e = .error code message

/-- On an open connection, no handler is given a package of size zero, and no exception leaves a received
    slot or a callback. -/
def Nourished (s : Reading κ) : ReadingAct κ → Prop
  | .advance k _ => s.conn.socket.isOpen = true → ∀ f ∈ s.handlers[k]?, f.isEmptyPackage = false
  | .slotThrow k => s.conn.socket.isOpen = true → ∀ f ∈ s.handlers[k]?, f.isInSlot = false
  | _ => True

instance (s : Reading κ) : ∀ a, Decidable (s.Nourished a)
  | .advance k _ =>
    inferInstanceAs (Decidable (_ → ∀ f ∈ s.handlers[k]?, f.isEmptyPackage = false))
  | .slotThrow k => inferInstanceAs (Decidable (_ → ∀ f ∈ s.handlers[k]?, f.isInSlot = false))
  | .peerSend _ | .readResult _ | .readFail _ _ _ | .invoke _ | .slotReturn _ | .writeResult _ _
  | .writeHandler _ | .dispatch _ | .createStream _ _ _ | .close _ => isTrue trivial

end Reading

end Lnetlib
