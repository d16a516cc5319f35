import Lnetlib.Connection.Handlers
import Lnetlib.Server.Model
import Lnetlib.Lib.Run

/-!
# The registry of a server

A server with one service thread, its connections, and the user code in the slots it runs. Handlers and
calls from outside run one at a time; while user code runs in a slot or a callback it may call `close()`
of any connection, and what this runs is stacked on top. The frames on the stack are the members that
wait for user code to return, each with the work it goes on with.

`close()` throws when the socket is closed already or its shutdown fails. The exception leaves as many
frames as user code lets it pass; a frame that is left does not go on, and an exception that leaves a
handler leaves `io_service::run` as well.
-/

namespace Lnetlib

open Bytes Transition

/-- A member that waits for user code. -/
inductive Frame where
  /-- `add_connection`, which holds `server::_mutex`, in the slots of `connected`. -/
  | connectedSlot
  /-- `read_package_body_handler` of a connection, in the slots of `received` or in a callback. -/
  | bodySlot (conn : Nat)
  /-- The closed slot of a connection, in the slots of `disconnected`. -/
  | disconnecting (conn : Nat)
  /-- The slots of `error`; the connection is given when its read has ended with the error. -/
  | errorSlot (conn : Option Nat)
  deriving DecidableEq, Repr

/-- The connection a frame is about. -/
def Frame.conn : Frame → Option Nat
  | connectedSlot => none
  | bodySlot conn => some conn
  | disconnecting conn => some conn
  | errorSlot conn => conn

/-- A server and the frames of the code that runs, the innermost first. -/
structure Registry (κ : Type) where
  server : Server κ
  stack : List Frame

/-- What happens. -/
inductive RegistryAct (κ : Type) where
  | setThreadPolicy (policy : ServerThreadPolicy) (count : Int)
  | setEnabled (enabled : Bool)
  | setLastError (lastError : String)
  | start (bound : Option ErrorCode) (hardware : Int)
  | stop
  /-- The `i`-th operation of the sessions completes and its handler is invoked. -/
  | sessionHandler (i : Nat) (err : ErrorCode)
  /-- The `i`-th read of a connection completes, having read `buffer`. -/
  | readResult (conn i : Nat) (buffer : List UInt8) (err : ErrorCode)
  /-- The handler of the `i`-th read of a connection is invoked. -/
  | readHandler (conn i : Nat) (junk : Nat → UInt8)
  | writeResult (conn i : Nat) (err : ErrorCode)
  | writeHandler (conn i : Nat)
  /-- The dispatch slot of a stream of a connection. -/
  | dispatch (conn ptr : Nat) (buffer : List UInt8)
  | createStream (conn : Nat) (cmd : CommandType) (command : cmd.Value) (cb : Option κ)
  /-- User code calls `close()`. When it throws, the exception leaves the innermost `frames` frames. -/
  | close (conn : Nat) (shutdown : ErrorCode) (frames : Nat)
  /-- The user code of the innermost frame returns. -/
  | slotReturn

namespace Registry

variable {κ : Type} (o : ByteOrder)

/-- A server just constructed. -/
def init (κ : Type) : Registry κ := { server := Server.construct κ, stack := [] }

/-- Replace a connection. -/
def setConn (conn : Nat) (c : Connection κ) (s : Registry κ) : Registry κ :=
  { s with server := { s.server with conns := Function.update s.server.conns conn (some c) } }

/-- The slots that the server has connected to a connection, and response callbacks. An `error` comes from
    the handler of a read or of a write. -/
def runSlot (conn : Nat) (ofRead : Bool) (e : Emission κ) (s : Registry κ) : Registry κ :=
  match e with
  | .closed =>
    { server := s.server.emit (.disconnected conn), stack := .disconnecting conn :: s.stack }
  | .error code message =>
    { server := s.server.emit (.error (some conn) code message)
      stack := .errorSlot (if ofRead then some conn else none) :: s.stack }
  | .received stream =>
    { server := s.server.emit (.received conn stream), stack := .bodySlot conn :: s.stack }
  | .callback _ _ => { s with stack := .bodySlot conn :: s.stack }

/-- Run what a handler of a connection emits. -/
def runSlots (conn : Nat) (ofRead : Bool) (es : List (Emission κ)) (s : Registry κ) : Registry κ :=
  es.foldl (fun s e => s.runSlot conn ofRead e) s

/-- What a frame does once user code has returned. -/
def resume (s : Registry κ) : Frame → Option (Registry κ)
  | .connectedSlot => some { s with server := s.server.waitNextConnection }
  | .bodySlot conn => (s.server.conns conn).map fun c => s.setConn conn c.waitPackage
  | .disconnecting conn =>
    -- `remove_connection` locks `server::_mutex`
    if .connectedSlot ∈ s.stack then none
    else some { s with server := s.server.removeConnection conn }
  | .errorSlot _ => some s

/-- One step. -/
def step (s : Registry κ) : RegistryAct κ → Option (Registry κ)
  | .setThreadPolicy policy count => some { s with server := s.server.setThreadPolicy policy count }
  | .setEnabled enabled => some { s with server := s.server.setEnabled enabled }
  | .setLastError lastError => some { s with server := s.server.setLastError lastError }
  | .start bound hardware => some { s with server := s.server.start bound hardware }
  | .stop => some { s with server := s.server.stop }
  | .sessionHandler i err =>
    if s.server.stopped = false ∧ s.stack = [] then
      match s.server.ops[i]? with
      | some op =>
        let (server, goesOn) := { s.server with ops := s.server.ops.eraseIdx i }.sessionHandler op err
        if goesOn then some { server := server, stack := [.connectedSlot] }
        else if err.isError then some { server := server, stack := [.errorSlot none] }
        else some { server := server, stack := [] }
      | none => none
    else none
  | .readResult conn i buffer err =>
    (s.server.conns conn).bind fun c => (c.completeRead i buffer err).map fun c => s.setConn conn c
  | .readHandler conn i junk =>
    if s.server.stopped = false ∧ s.stack = [] then
      (s.server.conns conn).bind fun c => (c.invokeRead o junk i).map fun (c, emitted, _) =>
        (s.setConn conn c).runSlots conn true emitted
    else none
  | .writeResult conn i err =>
    (s.server.conns conn).bind fun c => (c.completeWrite i err).map fun c => s.setConn conn c
  | .writeHandler conn i =>
    if s.server.stopped = false ∧ s.stack = [] then
      (s.server.conns conn).bind fun c => (c.invokeWrite i).map fun (c, emitted) =>
        (s.setConn conn c).runSlots conn false emitted
    else none
  | .dispatch conn ptr buffer =>
    (s.server.conns conn).map fun c =>
      s.setConn conn (c.dispatchLocked (Connection.createPackage o ptr buffer))
  | .createStream conn cmd command cb =>
    (s.server.conns conn).map fun c =>
      match cb with
      | some cb => s.setConn conn (c.createStreamWith o cmd command cb).2
      | none => s.setConn conn (c.createStream o cmd command).2
  | .close conn shutdown frames =>
    (s.server.conns conn).bind fun c =>
      match c.close shutdown with
      | .ok (c, emitted) => some ((s.setConn conn c).runSlots conn false emitted)
      | .error _ =>
        if frames ≤ s.stack.length then some { s with stack := s.stack.drop frames } else none
  | .slotReturn =>
    match s.stack with
    | frame :: stack => { s with stack := stack }.resume frame
    | [] => none

/-- The connection was announced by `connected`. -/
def Announced (s : Registry κ) (conn : Nat) : Prop := .connected conn ∈ s.server.emitted

/-- The connection has a read outstanding on an open socket. -/
def Live (s : Registry κ) (conn : Nat) : Prop :=
  ∃ c, s.server.conns conn = some c ∧ c.socket.isOpen = true ∧ c.socket.reads ≠ []

/-- Between handlers the registry holds exactly the connections that were announced and are live, each
    once, and the sessions have these as keys. -/
def Exact (s : Registry κ) : Prop :=
  s.stack = [] →
    (∀ conn, conn ∈ s.server.connections ↔ s.Announced conn ∧ s.Live conn) ∧
      s.server.connections.Nodup ∧
      ∀ conn, s.server.sessions conn ≠ none ↔ conn ∈ s.server.connections

/-- The slots of `disconnected` or of `error` run for a connection. -/
def Leaving (stack : List Frame) (conn : Nat) : Prop :=
  .disconnecting conn ∈ stack ∨ .errorSlot (some conn) ∈ stack

/-- The reads of a registered connection end in a package, the end of the stream or an SSL short read, or
    else user code closes the connection in the `error` slot; its writes do not end in the end of the
    stream; and an exception of `close()` leaves no frame that works for a registered connection. -/
def KeepsRegistry (s : Registry κ) : RegistryAct κ → Prop
  | .readHandler conn i _ => conn ∈ s.server.connections → ∀ c op err, s.server.conns conn = some c →
      c.socket.reads[i]? = some op → op.result = some err →
      err.value ≠ ErrorCode.operationAborted.value ∧ (err.isError = false → op.buffer ≠ [])
  | .writeHandler conn i => conn ∈ s.server.connections → ∀ c op err, s.server.conns conn = some c →
      c.socket.writes[i]? = some op → op.result = some err →
      err.value ≠ ErrorCode.eof.value ∧ err.value ≠ ErrorCode.sslShortRead.value
  | .close conn shutdown frames => ∀ c e, s.server.conns conn = some c → c.close shutdown = .error e →
      ∀ f ∈ s.stack.take frames, ∀ conn ∈ f.conn, conn ∈ s.server.connections →
        Leaving (s.stack.drop frames) conn
  | .slotReturn => ∀ conn stack, s.stack = .errorSlot (some conn) :: stack →
      conn ∉ s.server.connections
  | _ => True

end Registry

end Lnetlib
