import Lnetlib.Server.Ownership

/-!
# Slots that call back into the server

A server that was started and one thread that runs its handlers, with the calls of the thread. The slots of
user code are programs of calls into the server and into the connection they are given. Each slot of a
signal is called with the argument of the emission, which moves it: only the first one gets the connection,
and a later one has none to call.

A mutex is held by a call of the stack: `server::_mutex` by `add_connection` while it emits `connected`, and
the mutex of a signal by `operator()`. A thread that locks a mutex it holds stays where it is.
-/

namespace Lnetlib

open Bytes Transition

/-- A call that user code makes in a slot. -/
inductive SlotCall where
  /-- `server.connections()` -/
  | connections
  /-- `conn->create_stream(command)->send()` -/
  | send (cmd : CommandType) (command : cmd.Value)
  /-- `conn->close()` -/
  | close

/-- The slots that user code has connected to the signals of a server. -/
abbrev UserSlots := ServerSignal → List (List SlotCall)

/-- What `add_connection` does next, with its slots connected to the connection. -/
inductive RegisterPc where
  /-- Lock `server::_mutex`, register the connection and emit `connected`. -/
  | lock
  | unlock
  deriving DecidableEq, Repr

/-- A call of the thread. -/
inductive ThreadFrame where
  /-- `connected_handler` for a connection. -/
  | accept (conn session : Nat) (pc : RegisterPc)
  /-- `read_package_body_handler`, which goes on with `wait_package()`. -/
  | reading (conn : Nat)
  /-- `operator()` of a signal of a connection, before it has locked the mutex. -/
  | call (sig : ConnectionSignal) (conn : Nat)
  /-- `operator()` of a signal of a connection, which holds the mutex. -/
  | emission (sig : ConnectionSignal) (conn : Nat)
  /-- The slot of the server. -/
  | slot (sig : ConnectionSignal) (conn : Nat) (pc : SlotPc)
  /-- `operator()` of a signal of the server, with the slots that it calls next. -/
  | serverEmission (sig : ServerSignal) (arg : Option Nat) (slots : List (List SlotCall))
  /-- A slot of user code, with the connection it was given. -/
  | userSlot (conn : Option Nat) (calls : List SlotCall)
  /-- An exception, which leaves the frames below. -/
  | exception

/-- A server, the calls of the thread and the identity of the next package. -/
structure Reentrancy (κ : Type) where
  server : Server κ
  stack : List ThreadFrame
  next : Nat

/-- What happens. -/
inductive ReentrancyAct where
  /-- The `i`-th operation of the sessions completes and its handler is invoked. -/
  | sessionHandler (i : Nat) (err : ErrorCode)
  /-- The `i`-th read of a connection completes, having read `buffer`. -/
  | readResult (conn i : Nat) (buffer : List UInt8) (err : ErrorCode)
  | readHandler (conn i : Nat) (junk : Nat → UInt8)
  | writeResult (conn i : Nat) (err : ErrorCode)
  | writeHandler (conn i : Nat)
  /-- The next step of the innermost call; `shutdown` is the result of the shutdown, if it closes an open
      socket. -/
  | advance (shutdown : ErrorCode)

namespace Reentrancy

variable {κ : Type} (o : ByteOrder) (slots : UserSlots)

/-- A server that was started with one thread, with encryption or without. -/
def init (κ : Type) (enabled : Bool) : Reentrancy κ :=
  { server := (((Server.construct κ).setThreadPolicy .fixedCount 1).setEnabled enabled).start none 1
    stack := []
    next := 0 }

/-- Replace a connection. -/
def setConn (conn : Nat) (c : Connection κ) (s : Reentrancy κ) : Reentrancy κ :=
  { s with server := { s.server with conns := Function.update s.server.conns conn (some c) } }

def setStack (stack : List ThreadFrame) (s : Reentrancy κ) : Reentrancy κ := { s with stack := stack }

/-- The call holds `server::_mutex`. -/
def holdsMutex : ThreadFrame → Bool
  | .accept _ _ .unlock => true
  | _ => false

/-- `server::_mutex` is held by the thread. -/
def held (stack : List ThreadFrame) : Bool := stack.any holdsMutex

/-- The mutex of a signal of a connection is held. -/
def emits (sig : ConnectionSignal) (conn : Nat) (stack : List ThreadFrame) : Bool :=
  stack.any fun
    | .emission sig' conn' => sig' = sig ∧ conn' = conn
    | _ => false

/-- The mutex of a signal of the server is held. -/
def serverEmits (sig : ServerSignal) (stack : List ThreadFrame) : Bool :=
  stack.any fun
    | .serverEmission sig' _ _ => sig' = sig
    | _ => false

/-- The next step locks `server::_mutex`: in `add_connection`, in `remove_connection` or in
    `connections`. -/
def locks : List ThreadFrame → Bool
  | .accept _ _ .lock :: _ | .slot _ _ .removeConnection :: _ | .userSlot _ (.connections :: _) :: _ =>
    true
  | _ => false

/-- `operator()` of a signal of the server is called. -/
def emit (sig : ServerSignal) (arg : Option Nat) (stack : List ThreadFrame) (s : Reentrancy κ) :
    Option (Reentrancy κ) :=
  if serverEmits sig stack then none
  else some (s.setStack (.serverEmission sig arg (slots sig) :: stack))

/-- `create_stream(command)` and `send()` of the stream. -/
def send (conn : Nat) (cmd : CommandType) (command : cmd.Value) (c : Connection κ)
    (s : Reentrancy κ) : Reentrancy κ :=
  let (stream, c) := c.createStream o cmd command
  match stream.send.2 with
  | some buffer =>
    { s.setConn conn (c.dispatchLocked (Connection.createPackage o s.next buffer)) with
      next := s.next + 1 }
  | none => s.setConn conn c

/-- The next call of a slot. -/
def slotCall (conn : Option Nat) (call : SlotCall) (calls : List SlotCall) (rest : List ThreadFrame)
    (shutdown : ErrorCode) (s : Reentrancy κ) : Option (Reentrancy κ) :=
  match call, conn with
  | .connections, _ => some (s.setStack (.userSlot conn calls :: rest))
  | .send cmd command, some conn =>
    (s.server.conns conn).map fun c =>
      (s.send o conn cmd command c).setStack (.userSlot (some conn) calls :: rest)
  | .close, some conn =>
    (s.server.conns conn).map fun c =>
      match c.close shutdown with
      | .ok (c, _) =>
        (s.setConn conn c).setStack (.call .closed conn :: .userSlot (some conn) calls :: rest)
      | .error _ => s.setStack (.exception :: .userSlot (some conn) calls :: rest)
  | .send _ _, none | .close, none => some (s.setStack (.userSlot none calls :: rest))

/-- The next step of the innermost call, which does not lock `server::_mutex` while it is held. -/
def advance (shutdown : ErrorCode) (s : Reentrancy κ) : List ThreadFrame → Option (Reentrancy κ)
  | [] => none
  | .accept conn session .lock :: rest =>
    { s with server := s.server.addConnection conn session }.emit slots .connected (some conn)
      (.accept conn session .unlock :: rest)
  | .accept _ _ .unlock :: rest => some { s with server := s.server.waitNextConnection, stack := rest }
  | .reading conn :: rest =>
    (s.server.conns conn).map fun c => (s.setConn conn c.waitPackage).setStack rest
  | .call sig conn :: rest =>
    if emits sig conn rest then none
    else some (s.setStack (.slot sig conn .emit :: .emission sig conn :: rest))
  | .emission _ _ :: rest => some (s.setStack rest)
  | .slot sig conn .emit :: rest =>
    s.emit slots sig.forwarded (some conn)
      (.slot sig conn (if sig = .closed then .removeConnection else .returns) :: rest)
  | .slot sig conn .removeConnection :: rest =>
    some { s with server := s.server.removeConnection conn, stack := .slot sig conn .returns :: rest }
  | .slot _ _ .returns :: rest => some (s.setStack rest)
  | .serverEmission sig arg (calls :: more) :: rest =>
    some (s.setStack (.userSlot arg calls :: .serverEmission sig none more :: rest))
  | .serverEmission _ _ [] :: rest => some (s.setStack rest)
  | .userSlot conn (call :: calls) :: rest => s.slotCall o conn call calls rest shutdown
  | .userSlot _ [] :: rest => some (s.setStack rest)
  | .exception :: _ :: rest => some (s.setStack (.exception :: rest))
  | [.exception] => none

/-- The call that an emission of a connection makes; there are no response callbacks. -/
def called (conn : Nat) : Emission κ → List ThreadFrame
  | .closed => [.call .closed conn]
  | .error _ _ => [.call .error conn]
  | .received _ => [.call .received conn]
  | .callback _ _ => []

/-- `server_session_non_ssl::accept_handler` and `server_session_ssl::handshake_handler`. -/
def sessionReady (session : Nat) (err : ErrorCode) (s : Reentrancy κ) : Option (Reentrancy κ) :=
  match s.server.makeConnection err with
  | (some conn, server) => some { s with server := server, stack := [.accept conn session .lock] }
  | (none, server) => { s with server := server }.emit slots .error none []

/-- The handler of an operation of the sessions. -/
def sessionHandler (op : SessionOp) (err : ErrorCode) (s : Reentrancy κ) : Option (Reentrancy κ) :=
  match op with
  | .accept session =>
    match s.server.kind session with
    | .nonSsl => s.sessionReady slots session err
    | .ssl =>
      if err.isError then s.emit slots .error none []
      else some { s with server := { s.server with ops := s.server.ops ++ [.handshake session] } }
  | .handshake session => s.sessionReady slots session err

/-- One step. -/
def step (s : Reentrancy κ) : ReentrancyAct → Option (Reentrancy κ)
  | .sessionHandler i err =>
    if s.stack.isEmpty then
      (s.server.ops[i]?).bind fun op =>
        { s with server := { s.server with ops := s.server.ops.eraseIdx i } }.sessionHandler slots op
          err
    else none
  | .readResult conn i buffer err =>
    (s.server.conns conn).bind fun c => (c.completeRead i buffer err).map fun c => s.setConn conn c
  | .readHandler conn i junk =>
    if s.stack.isEmpty then
      (s.server.conns conn).bind fun c => (c.invokeRead o junk i).map fun (c, emitted, goesOn) =>
        (s.setConn conn c).setStack
          (emitted.flatMap (called conn) ++ if goesOn then [.reading conn] else [])
    else none
  | .writeResult conn i err =>
    (s.server.conns conn).bind fun c => (c.completeWrite i err).map fun c => s.setConn conn c
  | .writeHandler conn i =>
    if s.stack.isEmpty then
      (s.server.conns conn).bind fun c => (c.invokeWrite i).map fun (c, emitted) =>
        (s.setConn conn c).setStack (emitted.flatMap (called conn))
    else none
  | .advance shutdown =>
    if locks s.stack ∧ held s.stack then none else s.advance o slots shutdown s.stack

/-- The thread does not lock `server::_mutex` while it holds it. -/
def NoRelock (s : Reentrancy κ) : Prop := locks s.stack = true → held s.stack = false

/-! ## When the slots of user code relock the mutex -/

/-- The program calls `connections()` before it calls `close()`. -/
def asksFirst : List SlotCall → Bool
  | [] => false
  | .send _ _ :: calls => asksFirst calls
  | .connections :: _ => true
  | .close :: _ => false

/-- The program calls `close()` before it calls `connections()`. -/
def closesFirst : List SlotCall → Bool
  | [] => false
  | .send _ _ :: calls => closesFirst calls
  | .connections :: _ => false
  | .close :: _ => true

/-- The program calls `connections()`. -/
def asks (calls : List SlotCall) : Bool :=
  calls.any fun
    | .connections => true
    | .send _ _ | .close => false

/-- The first slot of `connected` calls `connections()` before `close()`; or it calls `close()` first, and the
    first slot of `disconnected` does not; or it calls neither, and a later slot of `connected` calls
    `connections()`. -/
def relocks (slots : UserSlots) : Bool :=
  match slots .connected with
  | [] => false
  | calls :: later =>
    asksFirst calls || (closesFirst calls && !(slots .disconnected).head?.any closesFirst) ||
      (!closesFirst calls && later.any asks)

end Reentrancy

end Lnetlib
