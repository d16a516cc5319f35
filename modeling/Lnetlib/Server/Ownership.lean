import Lnetlib.Connection.Handlers
import Lnetlib.Server.Model
import Lnetlib.Lib.Run
import Lnetlib.Lib.Threads

/-!
# The owners of a connection

A server whose connections are shared objects, with the call stack of every thread. A connection is owned
by its entry in `_connections`, by its key in `_sessions`, by the copies that user code holds and by the
`conn` argument of each slot that runs. `operator()` of a signal is called with an argument of its own; it
locks the mutex of the signal, moves the argument into the slot and unlocks once the slot has returned.
The thread that gives up the last owner runs `~connection`.

Emissions are frames here: of `emitted` of the server nothing is used.
-/

namespace Lnetlib

open Bytes Transition

/-- The signals of a connection. -/
inductive ConnectionSignal where
  | closed
  | error
  | received
  deriving DecidableEq, Repr

/-- The signals of a server. -/
inductive ServerSignal where
  | connected
  | disconnected
  | error
  | received
  deriving DecidableEq, Repr

/-- The signal that the slot of the server on a signal of a connection emits. -/
def ConnectionSignal.forwarded : ConnectionSignal → ServerSignal
  | closed => .disconnected
  | error => .error
  | received => .received

/-- What `add_connection` and then `connected_handler` do next. -/
inductive AddPc where
  | connectClosed
  | connectError
  | connectReceived
  /-- Lock `server::_mutex`, register the connection and emit `connected`. -/
  | register
  | unlock
  | waitNextConnection
  deriving DecidableEq, Repr

/-- What a slot of the server on a signal of a connection does next. -/
inductive SlotPc where
  | emit
  | removeConnection
  | returns
  deriving DecidableEq, Repr

/-- A call in progress. -/
inductive CallFrame where
  /-- `connected_handler` for a connection. -/
  | accept (conn session : Nat) (pc : AddPc)
  /-- `read_package_body_handler`, which goes on with `wait_package()`. -/
  | reading (conn : Nat)
  /-- `operator()` of a signal of a connection, before it has locked the mutex. -/
  | call (sig : ConnectionSignal) (conn : Nat)
  /-- `operator()` of a signal of a connection, which holds the mutex. -/
  | emission (sig : ConnectionSignal) (conn : Nat)
  /-- The slot of the server. -/
  | slot (sig : ConnectionSignal) (conn : Nat) (pc : SlotPc)
  | serverCall (sig : ServerSignal) (arg : Option Nat)
  | serverEmission (sig : ServerSignal)
  /-- A slot of user code. -/
  | userSlot (arg : Option Nat)
  /-- A response callback. -/
  | callback
  /-- An exception, which leaves the frames below. -/
  | exception
  deriving DecidableEq, Repr

namespace CallFrame

/-- The connection that an argument of the call owns. -/
def arg : CallFrame → Option Nat
  | accept conn _ _ | call _ conn | slot _ conn _ => some conn
  | serverCall _ arg | userSlot arg => arg
  | reading _ | emission _ _ | serverEmission _ | callback | exception => none

/-- The connection whose signal is being emitted. -/
def emits : CallFrame → Option Nat
  | emission _ conn => some conn
  | accept _ _ _ | reading _ | call _ _ | slot _ _ _ | serverCall _ _ | serverEmission _ | userSlot _ |
    callback | exception => none

/-- The call holds `server::_mutex`. -/
def locks : CallFrame → Bool
  | accept _ _ .unlock => true
  | _ => false

end CallFrame

/-- `~connection` is run: by which thread, and which signals of the connection have their mutex held by
    it. -/
structure Destructor where
  conn : Nat
  thread : Nat
  held : List ConnectionSignal
  deriving DecidableEq, Repr

/-- A server with its threads. -/
structure Ownership (κ : Type) where
  server : Server κ
  /-- The calls of each thread, the innermost first. -/
  threads : List (List CallFrame)
  /-- Whether the server has connected its slot to a signal of a connection. -/
  slots : Nat → ConnectionSignal → Bool
  /-- How many copies of a connection user code holds. -/
  users : Nat → Nat
  destructors : List Destructor

/-- The steps of the threads, of the environment and of user code. -/
inductive OwnershipAct (κ : Type) where
  | setThreadPolicy (policy : ServerThreadPolicy) (count : Int)
  | setEnabled (enabled : Bool)
  | setLastError (lastError : String)
  | start (bound : Option ErrorCode) (hardware : Int)
  | stop
  /-- A thread starts, of the service or of user code. -/
  | createThread
  | readResult (conn i : Nat) (buffer : List UInt8) (err : ErrorCode)
  | writeResult (conn i : Nat) (err : ErrorCode)
  /-- An idle thread invokes the handler of the `i`-th operation of the sessions. -/
  | sessionHandler (t i : Nat) (err : ErrorCode)
  /-- An idle thread invokes the handler of the `i`-th read of a connection. -/
  | readHandler (t conn i : Nat) (junk : Nat → UInt8)
  | writeHandler (t conn i : Nat)
  /-- The next step of the innermost call of a thread. -/
  | advance (t : Nat)
  | dispatch (conn ptr : Nat) (buffer : List UInt8)
  | createStream (conn : Nat) (cmd : CommandType) (command : cmd.Value) (cb : Option κ)
  /-- User code on a thread calls `close()`. -/
  | close (t conn : Nat) (shutdown : ErrorCode)
  /-- User code catches the exception that has reached it. -/
  | catchException (t : Nat)
  /-- User code makes a copy. -/
  | take (conn : Nat)
  /-- User code on a thread gives a copy up. -/
  | drop (t conn : Nat)

namespace Ownership

variable {κ : Type} (o : ByteOrder)

def init (κ : Type) : Ownership κ :=
  { server := Server.construct κ
    threads := []
    slots := fun _ _ => false
    users := fun _ => 0
    destructors := [] }

/-- How many calls own a connection by their argument. -/
def running (s : Ownership κ) (conn : Nat) : Nat :=
  Threads.count (fun f => f.arg = some conn) s.threads

/-- How many emissions of signals of a connection are in progress. -/
def emissions (s : Ownership κ) (conn : Nat) : Nat :=
  Threads.count (fun f => f.emits = some conn) s.threads

/-- How many owners the registry is. -/
def registered (s : Ownership κ) (conn : Nat) : Nat :=
  s.server.connections.count conn + if s.server.sessions conn = none then 0 else 1

/-- The use count of the shared object. -/
def owners (s : Ownership κ) (conn : Nat) : Nat :=
  s.registered conn + s.users conn + s.running conn

/-- `server::_mutex` is held. -/
def locked (s : Ownership κ) : Bool := (Threads.frames s.threads).any CallFrame.locks

def setThread (t : Nat) (stack : List CallFrame) (s : Ownership κ) : Ownership κ :=
  { s with threads := s.threads.set t stack }

/-- Replace a connection. -/
def setConn (conn : Nat) (c : Connection κ) (s : Ownership κ) : Ownership κ :=
  { s with server := { s.server with conns := Function.update s.server.conns conn (some c) } }

/-- The server connects its slot to a signal of a connection. -/
def connect (sig : ConnectionSignal) (conn : Nat) (s : Ownership κ) : Ownership κ :=
  { s with slots := Function.update s.slots conn (Function.update (s.slots conn) sig true) }

/-- The signals of a connection whose mutex is held by a thread with these calls. -/
def heldBy (conn : Nat) (stack : List CallFrame) : List ConnectionSignal :=
  stack.filterMap fun f =>
    match f with
    | .emission sig conn' => if conn' = conn then some sig else none
    | _ => none

/-- A thread with these calls has given up an owner. -/
def release (t : Nat) (stack : List CallFrame) (conn : Nat) (s : Ownership κ) : Ownership κ :=
  if s.owners conn = 0 then
    { s with destructors := s.destructors ++
        [{ conn := conn, thread := t, held := heldBy conn stack }] }
  else s

/-- A call is left, with its argument, by a return or by an exception. -/
def leave (t : Nat) (f : CallFrame) (stack : List CallFrame) (s : Ownership κ) : Ownership κ :=
  match f.arg with
  | some conn => (s.setThread t stack).release t stack conn
  | none => s.setThread t stack

/-- `server::connected_handler` for a connection, from `add_connection` on. -/
def addStep (t conn session : Nat) (rest : List CallFrame) (s : Ownership κ) :
    AddPc → Option (Ownership κ)
  | .connectClosed =>
    some ((s.connect .closed conn).setThread t (.accept conn session .connectError :: rest))
  | .connectError =>
    some ((s.connect .error conn).setThread t (.accept conn session .connectReceived :: rest))
  | .connectReceived =>
    some ((s.connect .received conn).setThread t (.accept conn session .register :: rest))
  | .register =>
    if s.locked then none
    else some ({ s with server := s.server.addConnection conn session }.setThread t
      (.serverCall .connected (some conn) :: .accept conn session .unlock :: rest))
  | .unlock => some (s.setThread t (.accept conn session .waitNextConnection :: rest))
  | .waitNextConnection =>
    some ({ s with server := s.server.waitNextConnection }.leave t
      (.accept conn session .waitNextConnection) rest)

/-- `closed_slot`, `error_slot` and `received_slot`. -/
def slotStep (t : Nat) (sig : ConnectionSignal) (conn : Nat) (rest : List CallFrame) (s : Ownership κ) :
    SlotPc → Option (Ownership κ)
  | .emit =>
    some (s.setThread t (.serverCall sig.forwarded (some conn) ::
      .slot sig conn (if sig = .closed then .removeConnection else .returns) :: rest))
  | .removeConnection =>
    if s.locked then none
    else some ({ s with server := s.server.removeConnection conn }.setThread t
      (.slot sig conn .returns :: rest))
  | .returns => some (s.leave t (.slot sig conn .returns) rest)

/-- The next step of the innermost call. -/
def advance (t : Nat) (s : Ownership κ) : List CallFrame → Option (Ownership κ)
  | [] => none
  | .accept conn session pc :: rest => s.addStep t conn session rest pc
  | .reading conn :: rest =>
    (s.server.conns conn).map fun c => (s.setConn conn c.waitPackage).setThread t rest
  | .call sig conn :: rest =>
    if .emission sig conn ∈ Threads.frames s.threads then none
    else if s.slots conn sig then
      some (s.setThread t (.slot sig conn .emit :: .emission sig conn :: rest))
    else some (s.leave t (.call sig conn) rest)
  | .slot sig conn pc :: rest => s.slotStep t sig conn rest pc
  | .serverCall sig arg :: rest =>
    if .serverEmission sig ∈ Threads.frames s.threads then none
    else some (s.setThread t (.userSlot arg :: .serverEmission sig :: rest))
  | .exception :: f :: rest => some (s.leave t f (.exception :: rest))
  | f :: rest => some (s.leave t f rest)

/-- User code runs on a thread with these calls, or can run. -/
def userCode : List CallFrame → Bool
  | [] | .userSlot _ :: _ | .callback :: _ => true
  | _ => false

/-- The call that an emission of a connection makes. -/
def called (conn : Nat) : Emission κ → CallFrame
  | .closed => .call .closed conn
  | .error _ _ => .call .error conn
  | .received _ => .call .received conn
  | .callback _ _ => .callback

/-- `server_session_non_ssl::accept_handler` and `server_session_ssl::handshake_handler`. -/
def sessionReady (t session : Nat) (err : ErrorCode) (s : Ownership κ) : Ownership κ :=
  match s.server.makeConnection err with
  | (some conn, server) => { s with server := server }.setThread t [.accept conn session .connectClosed]
  | (none, server) => { s with server := server }.setThread t [.serverCall .error none]

/-- The handler of an operation of the sessions. -/
def sessionHandler (t : Nat) (op : SessionOp) (err : ErrorCode) (s : Ownership κ) : Ownership κ :=
  match op with
  | .accept session =>
    match s.server.kind session with
    | .nonSsl => s.sessionReady t session err
    | .ssl =>
      if err.isError then s.setThread t [.serverCall .error none]
      else { s with server := { s.server with ops := s.server.ops ++ [.handshake session] } }
  | .handshake session => s.sessionReady t session err

/-- One step. The handlers of a connection and `close()` run on a connection that exists. -/
def step (s : Ownership κ) : OwnershipAct κ → Option (Ownership κ)
  | .setThreadPolicy policy count => some { s with server := s.server.setThreadPolicy policy count }
  | .setEnabled enabled => some { s with server := s.server.setEnabled enabled }
  | .setLastError lastError => some { s with server := s.server.setLastError lastError }
  | .start bound hardware => some { s with server := s.server.start bound hardware }
  | .stop => some { s with server := s.server.stop }
  | .createThread => some { s with threads := s.threads ++ [[]] }
  | .readResult conn i buffer err =>
    (s.server.conns conn).bind fun c => (c.completeRead i buffer err).map fun c => s.setConn conn c
  | .writeResult conn i err =>
    (s.server.conns conn).bind fun c => (c.completeWrite i err).map fun c => s.setConn conn c
  | .sessionHandler t i err =>
    if s.server.stopped = false ∧ s.threads[t]? = some [] then
      (s.server.ops[i]?).map fun op =>
        { s with server := { s.server with ops := s.server.ops.eraseIdx i } }.sessionHandler t op err
    else none
  | .readHandler t conn i junk =>
    if s.server.stopped = false ∧ s.threads[t]? = some [] ∧ s.owners conn ≠ 0 then
      (s.server.conns conn).bind fun c => (c.invokeRead o junk i).map fun (c, emitted, goesOn) =>
        (s.setConn conn c).setThread t
          (emitted.map (called conn) ++ if goesOn then [.reading conn] else [])
    else none
  | .writeHandler t conn i =>
    if s.server.stopped = false ∧ s.threads[t]? = some [] ∧ s.owners conn ≠ 0 then
      (s.server.conns conn).bind fun c => (c.invokeWrite i).map fun (c, emitted) =>
        (s.setConn conn c).setThread t (emitted.map (called conn))
    else none
  | .advance t => (s.threads[t]?).bind (s.advance t)
  | .dispatch conn ptr buffer =>
    (s.server.conns conn).map fun c =>
      s.setConn conn (c.dispatchLocked (Connection.createPackage o ptr buffer))
  | .createStream conn cmd command cb =>
    (s.server.conns conn).map fun c =>
      match cb with
      | some cb => s.setConn conn (c.createStreamWith o cmd command cb).2
      | none => s.setConn conn (c.createStream o cmd command).2
  | .close t conn shutdown =>
    (s.threads[t]?).bind fun stack =>
      if userCode stack ∧ s.owners conn ≠ 0 then
        (s.server.conns conn).map fun c =>
          match c.close shutdown with
          | .ok (c, emitted) => (s.setConn conn c).setThread t (emitted.map (called conn) ++ stack)
          | .error _ => s.setThread t (.exception :: stack)
      else none
  | .catchException t =>
    match s.threads[t]? with
    | some (.exception :: stack) => if userCode stack then some (s.setThread t stack) else none
    | _ => none
  | .take conn =>
    if s.owners conn ≠ 0 then
      some { s with users := Function.update s.users conn (s.users conn + 1) }
    else none
  | .drop t conn =>
    (s.threads[t]?).bind fun stack =>
      if userCode stack ∧ s.users conn ≠ 0 then
        some ({ s with users := Function.update s.users conn (s.users conn - 1) }.release t stack conn)
      else none

/-- A connection outlives its emissions: while a signal of it is being emitted it has an owner, and a
    thread that runs `~connection` holds the mutex of none of its signals. -/
structure Outlives (s : Ownership κ) : Prop where
  owned : ∀ conn, 0 < s.emissions conn → 0 < s.owners conn
  unlocked : ∀ d ∈ s.destructors, d.held = []

/-- The connection is registered or user code holds a copy. -/
def Kept (s : Ownership κ) (conn : Nat) : Prop := conn ∈ s.server.connections ∨ 0 < s.users conn

instance (s : Ownership κ) (conn : Nat) : Decidable (s.Kept conn) := inferInstanceAs (Decidable (_ ∨ _))

/-- The connection whose slot, or whose `connected_handler`, ends with the next step of a thread with these
    calls: it returns, or an exception leaves it. -/
def ends : List CallFrame → Option Nat
  | .accept conn _ .waitNextConnection :: _ => some conn
  | .slot _ conn .returns :: _ => some conn
  | .exception :: .accept conn _ _ :: _ => some conn
  | .exception :: .slot _ conn _ :: _ => some conn
  | _ => none

/-- When the closed, error or received slot of a connection or its `connected_handler` ends as the last call
    that owns the connection, while a signal of the connection is being emitted, the connection is still
    registered or user code holds a copy; and user code gives up its last copy during an emission only
    where the connection is registered or a call owns it. -/
def HoldsCopy (s : Ownership κ) : OwnershipAct κ → Prop
  | .advance t => ∀ stack ∈ s.threads[t]?, ∀ conn ∈ ends stack,
      s.running conn = 1 → 0 < s.emissions conn → s.Kept conn
  | .drop _ conn => s.users conn = 1 → 0 < s.emissions conn →
      conn ∈ s.server.connections ∨ 0 < s.running conn
  | _ => True

instance (s : Ownership κ) : ∀ a, Decidable (HoldsCopy s a)
  | .advance t => inferInstanceAs (Decidable (∀ stack ∈ s.threads[t]?, ∀ conn ∈ ends stack,
      s.running conn = 1 → 0 < s.emissions conn → s.Kept conn))
  | .drop _ conn => inferInstanceAs (Decidable (s.users conn = 1 → 0 < s.emissions conn →
      conn ∈ s.server.connections ∨ 0 < s.running conn))
  | .setThreadPolicy _ _ | .setEnabled _ | .setLastError _ | .start _ _ | .stop | .createThread |
    .readResult _ _ _ _ | .writeResult _ _ _ | .sessionHandler _ _ _ | .readHandler _ _ _ _ |
    .writeHandler _ _ _ | .dispatch _ _ _ | .createStream _ _ _ _ | .close _ _ _ | .catchException _ |
    .take _ => isTrue trivial

end Ownership

end Lnetlib
