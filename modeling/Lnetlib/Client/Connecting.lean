import Lnetlib.Connection.Handlers
import Lnetlib.Client.Model
import Lnetlib.Lib.Run

/-!
# A client that connects again

The calls of user code and the completions of a client, in any order. A handler is invoked by a thread of
the io_service that is free; it runs to the slots it ends with, and user code may call anything while it is
there. `handlerReturn` is the rest of it, after which a service without work is stopped.
-/

namespace Lnetlib

open Bytes Transition

/-- A client with the handlers that run. -/
structure Connecting (κ : Type) where
  client : Client κ
  /-- The handlers in their slots; one that goes on with `wait_package()` has the connection. -/
  handlers : List (Option Nat)
  /-- The connections of which `closed` or `error` was emitted. -/
  ended : List Nat

/-- Calls of user code, and completions. -/
inductive ConnectingAct (κ : Type) where
  | setEnabled (enabled : Bool)
  | setLastError (lastError : String)
  /-- `connect()` is called; `resolved` is the error the resolver throws, if it throws. -/
  | connect (resolved : Option ErrorCode)
  | disconnect
  /-- The `i`-th operation of the sessions completes and its handler is invoked. -/
  | sessionHandler (i : Nat) (err : ErrorCode)
  /-- The `i`-th read of a connection completes, having read `buffer`. -/
  | readResult (conn i : Nat) (buffer : List UInt8) (err : ErrorCode)
  | readHandler (conn i : Nat) (junk : Nat → UInt8)
  | writeResult (conn i : Nat) (err : ErrorCode)
  | writeHandler (conn i : Nat)
  /-- The dispatch slot of a stream of a connection. -/
  | dispatch (conn ptr : Nat) (buffer : List UInt8)
  | createStream (conn : Nat) (cmd : CommandType) (command : cmd.Value) (cb : Option κ)
  | close (conn : Nat) (shutdown : ErrorCode)
  /-- The slots of the `k`-th handler return. -/
  | handlerReturn (k : Nat)

namespace Connecting

variable {κ : Type} (o : ByteOrder)

/-- A client just constructed. -/
def init (κ : Type) : Connecting κ := { client := Client.construct κ, handlers := [], ended := [] }

/-- Replace a connection. -/
def setConn (conn : Nat) (c : Connection κ) (s : Connecting κ) : Connecting κ :=
  { s with client := { s.client with conns := Function.update s.client.conns conn (some c) } }

/-- `closed` or `error`. -/
def endsConnection : Emission κ → Bool
  | .closed | .error _ _ => true
  | .received _ | .callback _ _ => false

/-- Run the slots on what a connection emits. -/
def runSlots (conn : Nat) (es : List (Emission κ)) (s : Connecting κ) : Connecting κ :=
  { s with
    client := es.foldl (fun client e => client.runSlot conn e) s.client
    ended := if es.any endsConnection then s.ended ++ [conn] else s.ended }

/-- A thread is free to invoke a handler. -/
def HasThread (s : Connecting κ) : Prop :=
  s.client.stopped = false ∧ s.handlers.length < s.client.serviceThreads

instance (s : Connecting κ) : Decidable s.HasThread := inferInstanceAs (Decidable (_ ∧ _))

/-- A handler has returned. -/
def finish (s : Connecting κ) : Connecting κ :=
  if s.handlers = [] ∧ s.client.OutOfWork then { s with client := s.client.stopService } else s

/-- One step. -/
def step (s : Connecting κ) : ConnectingAct κ → Option (Connecting κ)
  | .setEnabled enabled => some { s with client := s.client.setEnabled enabled }
  | .setLastError lastError => some { s with client := s.client.setLastError lastError }
  | .connect resolved => some { s with client := (s.client.connect resolved).1 }
  | .disconnect => some { s with client := s.client.disconnect }
  | .sessionHandler i err =>
    if s.HasThread then
      (s.client.ops[i]?).map fun op =>
        { s with
          client := { s.client with ops := s.client.ops.eraseIdx i }.sessionHandler op err
          handlers := s.handlers ++ [none] }
    else none
  | .readResult conn i buffer err =>
    (s.client.conns conn).bind fun c => (c.completeRead i buffer err).map fun c => s.setConn conn c
  | .readHandler conn i junk =>
    if s.HasThread then
      (s.client.conns conn).bind fun c => (c.invokeRead o junk i).map fun (c, emitted, goesOn) =>
        { (s.setConn conn c).runSlots conn emitted with
          handlers := s.handlers ++ [if goesOn then some conn else none] }
    else none
  | .writeResult conn i err =>
    (s.client.conns conn).bind fun c => (c.completeWrite i err).map fun c => s.setConn conn c
  | .writeHandler conn i =>
    if s.HasThread then
      (s.client.conns conn).bind fun c => (c.invokeWrite i).map fun (c, emitted) =>
        { (s.setConn conn c).runSlots conn emitted with handlers := s.handlers ++ [none] }
    else none
  | .dispatch conn ptr buffer =>
    (s.client.conns conn).map fun c =>
      s.setConn conn (c.dispatchLocked (Connection.createPackage o ptr buffer))
  | .createStream conn cmd command cb =>
    (s.client.conns conn).map fun c =>
      match cb with
      | some cb => s.setConn conn (c.createStreamWith o cmd command cb).2
      | none => s.setConn conn (c.createStream o cmd command).2
  | .close conn shutdown =>
    (s.client.conns conn).map fun c =>
      match c.close shutdown with
      | .ok (c, emitted) => (s.setConn conn c).runSlots conn emitted
      | .error _ => s
  | .handlerReturn k =>
    (s.handlers[k]?).bind fun handler =>
      match handler with
      | some conn => (s.client.conns conn).map fun c =>
          finish (setConn conn c.waitPackage { s with handlers := s.handlers.eraseIdx k })
      | none => some (finish { s with handlers := s.handlers.eraseIdx k })

/-- A connection was made, and neither `closed` nor `error` of it was emitted. -/
def ConnectionOpen (s : Connecting κ) : Prop := ∃ conn < s.client.nextConn, conn ∉ s.ended

instance (s : Connecting κ) : Decidable s.ConnectionOpen :=
  inferInstanceAs (Decidable (∃ conn < _, conn ∉ s.ended))

/-- No attempt is in progress and no connection is open. What is left on a stopped service, where no thread
    will complete it, counts as neither. -/
def AtRest (s : Connecting κ) : Prop :=
  s.client.stopped = true ∨ (s.client.ops = [] ∧ ¬ s.ConnectionOpen)

instance (s : Connecting κ) : Decidable s.AtRest := inferInstanceAs (Decidable (_ ∨ (_ ∧ _)))

/-- A call to `connect` with a host name that resolves starts a session, on a service that runs and has a
    thread. -/
def Connects (s : Connecting κ) : Prop :=
  ∃ client, s.client.connect none = (client, none) ∧
    client.ops = s.client.ops ++ [.connect s.client.nextSession] ∧
    client.nextSession = s.client.nextSession + 1 ∧
    client.stopped = false ∧ 0 < client.serviceThreads

/-- A client at rest with no pending encryption error can connect. -/
def ConnectsAgain (s : Connecting κ) : Prop :=
  s.AtRest → s.client.encryption.lastError = "" → s.Connects

/-- No `connect` has got past its guards. -/
def Fresh (s : Connecting κ) : Prop := s.client.running = false ∧ s.client.stopped = false

instance (s : Connecting κ) : Decidable s.Fresh := inferInstanceAs (Decidable (_ ∧ _))

/-- Once a first `connect` has got past its guards, and while no encryption error is pending, the client does
    not come to rest: the host name resolves, no attempt fails, `disconnect` is not called, no connection is
    closed or ends, and the service does not run out of work. A pending encryption error is not cleared while
    the client is at rest. -/
def OnceOnly (s : Connecting κ) : ConnectingAct κ → Prop
  | .setLastError lastError => lastError = "" → s.AtRest → s.Fresh
  | .connect resolved => s.client.encryption.lastError = "" → s.client.running = false → resolved = none
  | .disconnect => s.client.encryption.lastError = "" → s.client.running = false
  | .sessionHandler _ err => s.client.encryption.lastError = "" → err.isError = false
  | .readHandler conn i _ => s.client.encryption.lastError = "" → ∀ c ∈ s.client.conns conn,
      ∀ op ∈ c.socket.reads[i]?, ∀ err ∈ op.result, Connection.Silent err
  | .writeHandler conn i => s.client.encryption.lastError = "" → ∀ c ∈ s.client.conns conn,
      ∀ op ∈ c.socket.writes[i]?, ∀ err ∈ op.result, Connection.Silent err
  | .close conn shutdown => s.client.encryption.lastError = "" → ∀ c ∈ s.client.conns conn,
      c.socket.isOpen = true → shutdown.isError = true
  | .handlerReturn k => s.client.encryption.lastError = "" → s.handlers[k]? = some none →
      s.handlers.eraseIdx k = [] → ¬ s.client.OutOfWork
  | _ => True

instance (s : Connecting κ) : ∀ a, Decidable (s.OnceOnly a)
  | .setLastError lastError => inferInstanceAs (Decidable (lastError = "" → s.AtRest → s.Fresh))
  | .connect resolved => inferInstanceAs (Decidable (_ → _ → resolved = none))
  | .disconnect => inferInstanceAs (Decidable (_ → s.client.running = false))
  | .sessionHandler _ err => inferInstanceAs (Decidable (_ → err.isError = false))
  | .readHandler conn i _ => inferInstanceAs (Decidable (_ → ∀ c ∈ s.client.conns conn,
      ∀ op ∈ c.socket.reads[i]?, ∀ err ∈ op.result, Connection.Silent err))
  | .writeHandler conn i => inferInstanceAs (Decidable (_ → ∀ c ∈ s.client.conns conn,
      ∀ op ∈ c.socket.writes[i]?, ∀ err ∈ op.result, Connection.Silent err))
  | .close conn shutdown => inferInstanceAs (Decidable (_ → ∀ c ∈ s.client.conns conn,
      c.socket.isOpen = true → shutdown.isError = true))
  | .handlerReturn k => inferInstanceAs (Decidable (_ → s.handlers[k]? = some none →
      s.handlers.eraseIdx k = [] → ¬ s.client.OutOfWork))
  | .setEnabled _ | .readResult _ _ _ _ | .writeResult _ _ _ | .dispatch _ _ _ | .createStream _ _ _ _ =>
    isTrue trivial

end Connecting

end Lnetlib
