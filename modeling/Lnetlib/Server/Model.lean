import Lnetlib.Connection.Model

/-!
# `server`: the members as functions on its state

The state of a server with its sessions, and one function for each member of `server` and of the two
implementations of `server_session`. Connections and sessions are told apart by the number under which
they were made. A member that goes on after a signal was emitted is split there: `connectedHandler` says
whether `waitNextConnection` follows once the slots of `connected` have returned, and the slot that a
server connects to the `closed` signal of a connection emits `disconnected` and then goes on with
`removeConnection`.

The sessions whose `async_accept` or `async_handshake` was started and whose handler has not been invoked
are the `ops` of the server.
-/

namespace Lnetlib

/-- `server_thread_policy`. -/
inductive ServerThreadPolicy where
  | onePerConnection
  | fixedCount
  deriving DecidableEq, Repr

/-- The implementations of `server_session`. -/
inductive SessionKind where
  | nonSsl
  | ssl
  deriving DecidableEq, Repr

/-- What a session has started. -/
inductive SessionOp where
  | accept (session : Nat)
  | handshake (session : Nat)
  deriving DecidableEq, Repr

/-- What of `encryption` a server asks for. -/
structure Encryption where
  enabled : Bool
  lastError : String

/-- The signals of a server as they are emitted. -/
inductive ServerEmission where
  | connected (conn : Nat)
  | disconnected (conn : Nat)
  | error (conn : Option Nat) (code : Int) (message : String)
  | received (conn : Nat) (stream : Istream)

/-- The state of a server. -/
structure Server (κ : Type) where
  running : Bool
  threadPolicy : ServerThreadPolicy
  threadCount : Int
  encryption : Encryption
  connections : List Nat
  sessions : Nat → Option Nat
  /-- The implementation of each session that was created. -/
  kind : Nat → SessionKind
  nextSession : Nat
  ops : List SessionOp
  /-- The connections that were created. -/
  conns : Nat → Option (Connection κ)
  nextConn : Nat
  serviceThreads : Nat
  /-- `_service.stop()` was called. -/
  stopped : Bool
  emitted : List ServerEmission

namespace Server

variable {κ : Type}

/-- `server::server`. -/
def construct (κ : Type) : Server κ :=
  { running := false
    threadPolicy := .onePerConnection
    threadCount := 0
    encryption := { enabled := false, lastError := "" }
    connections := []
    sessions := fun _ => none
    kind := fun _ => .nonSsl
    nextSession := 0
    ops := []
    conns := fun _ => none
    nextConn := 0
    serviceThreads := 0
    stopped := false
    emitted := [] }

def emit (e : ServerEmission) (s : Server κ) : Server κ := { s with emitted := s.emitted ++ [e] }

/-- `server::set_thread_policy`. -/
def setThreadPolicy (policy : ServerThreadPolicy) (count : Int) (s : Server κ) : Server κ :=
  if s.running then s else { s with threadPolicy := policy, threadCount := count }

/-- `encryption::set_enabled` of `encryption_info()`. -/
def setEnabled (enabled : Bool) (s : Server κ) : Server κ :=
  { s with encryption := { s.encryption with enabled := enabled } }

/-- A member of `encryption_info()` that leaves this in `last_error`. -/
def setLastError (lastError : String) (s : Server κ) : Server κ :=
  { s with encryption := { s.encryption with lastError := lastError } }

/-- `server_session_non_ssl::start` and `server_session_ssl::start`. -/
def startSession (session : Nat) (s : Server κ) : Server κ :=
  { s with ops := s.ops ++ [.accept session] }

/-- `server::create_session`. -/
def createSession (s : Server κ) : Server κ :=
  startSession s.nextSession
    { s with
      kind := Function.update s.kind s.nextSession (if s.encryption.enabled then .ssl else .nonSsl)
      nextSession := s.nextSession + 1 }

/-- `server::create_service_thread`. -/
def createServiceThread (s : Server κ) : Server κ := { s with serviceThreads := s.serviceThreads + 1 }

/-- `server::init_service_threads`; `hardware` is `std::thread::hardware_concurrency()`. With a count of
    zero the calling thread runs the service. -/
def initServiceThreads (hardware : Int) (s : Server κ) : Server κ :=
  let count := if s.threadCount = -1 then (if hardware = -1 then 2 else hardware) else s.threadCount
  let s := { s with threadCount := count }
  if 0 < count then { s with serviceThreads := s.serviceThreads + count.toNat }
  else { s with serviceThreads := s.serviceThreads + 1 }

/-- `server::wait_first_connection`. -/
def waitFirstConnection (hardware : Int) (s : Server κ) : Server κ :=
  let s := s.createSession
  match s.threadPolicy with
  | .fixedCount => s.initServiceThreads hardware
  | .onePerConnection => s.createServiceThread

/-- `server::wait_next_connection`. -/
def waitNextConnection (s : Server κ) : Server κ :=
  let s := s.createSession
  match s.threadPolicy with
  | .onePerConnection => s.createServiceThread
  | .fixedCount => s

/-- `server::start`; `bound` is the error of making an acceptor for the endpoint, if there is one. -/
def start (bound : Option ErrorCode) (hardware : Int) (s : Server κ) : Server κ :=
  if s.running then s
  else if s.encryption.lastError ≠ "" then s.emit (.error none (-1) s.encryption.lastError)
  else
    match bound with
    | some err => s.emit (.error none err.value err.message)
    | none => { s with running := true }.waitFirstConnection hardware

/-- `server::stop`. -/
def stop (s : Server κ) : Server κ :=
  if s.running then { s with stopped := true, running := false } else s

/-- `server::add_connection`. -/
def addConnection (conn session : Nat) (s : Server κ) : Server κ :=
  { s with
    connections := s.connections ++ [conn]
    sessions := Function.update s.sessions conn (some session) }.emit (.connected conn)

/-- `server::remove_connection`. -/
def removeConnection (conn : Nat) (s : Server κ) : Server κ :=
  { s with
    connections := s.connections.erase conn
    sessions := Function.update s.sessions conn none }

/-- `server::connected_handler` up to the slots it runs, and whether it goes on with
    `wait_next_connection()`. Without an error the sessions always pass a connection. -/
def connectedHandler (session : Nat) (conn : Option Nat) (err : ErrorCode) (s : Server κ) :
    Server κ × Bool :=
  if err.isError then (s.emit (.error conn err.value err.message), false)
  else
    match conn with
    | some conn => (s.addConnection conn session, true)
    | none => (s, false)

/-- The connection that a session makes when there is no error. -/
def makeConnection (err : ErrorCode) (s : Server κ) : Option Nat × Server κ :=
  if err.isError then (none, s)
  else
    (some s.nextConn,
      { s with
        conns := Function.update s.conns s.nextConn (some (Connection.construct κ))
        nextConn := s.nextConn + 1 })

/-- `server_session_non_ssl::accept_handler` and `server_session_ssl::handshake_handler`. -/
def sessionReady (session : Nat) (err : ErrorCode) (s : Server κ) : Server κ × Bool :=
  let (conn, s) := s.makeConnection err
  s.connectedHandler session conn err

/-- `server_session_ssl::accept_handler`. -/
def sslAcceptHandler (session : Nat) (err : ErrorCode) (s : Server κ) : Server κ × Bool :=
  if err.isError then s.connectedHandler session none err
  else ({ s with ops := s.ops ++ [.handshake session] }, false)

/-- The handler of an operation. -/
def sessionHandler (op : SessionOp) (err : ErrorCode) (s : Server κ) : Server κ × Bool :=
  match op with
  | .accept session =>
    match s.kind session with
    | .nonSsl => s.sessionReady session err
    | .ssl => s.sslAcceptHandler session err
  | .handshake session => s.sessionReady session err

/-! ## What the handlers of the sessions do -/

/-- The server after a session has made a connection and `add_connection` has registered it. -/
def accepted (session : Nat) (s : Server κ) : Server κ :=
  { s with
    conns := Function.update s.conns s.nextConn (some (Connection.construct κ))
    nextConn := s.nextConn + 1 }.addConnection s.nextConn session

/-- The handler of an operation reports its error, or starts the handshake, or registers a connection; in
    the last case only it goes on. -/
theorem sessionHandler_cases (op : SessionOp) (err : ErrorCode) (s : Server κ) :
    (err.isError = true ∧
      s.sessionHandler op err = (s.emit (.error none err.value err.message), false)) ∨
    (err.isError = false ∧ ∃ session,
      s.sessionHandler op err = ({ s with ops := s.ops ++ [.handshake session] }, false)) ∨
    (err.isError = false ∧ ∃ session, s.sessionHandler op err = (s.accepted session, true)) := by
  cases he : err.isError with
  | true =>
    refine .inl ⟨rfl, ?_⟩
    cases op with
    | accept session =>
      cases hk : s.kind session <;>
        simp [sessionHandler, hk, sessionReady, makeConnection, sslAcceptHandler, connectedHandler, he]
    | handshake session => simp [sessionHandler, sessionReady, makeConnection, connectedHandler, he]
  | false =>
    have hready : ∀ session, s.sessionReady session err = (s.accepted session, true) := by
      intro session
      simp [sessionReady, makeConnection, connectedHandler, he, accepted]
    cases op with
    | accept session =>
      cases hk : s.kind session with
      | nonSsl =>
        refine .inr (.inr ⟨rfl, session, ?_⟩)
        simp only [sessionHandler, hk, hready]
      | ssl =>
        refine .inr (.inl ⟨rfl, session, ?_⟩)
        simp [sessionHandler, hk, sslAcceptHandler, he]
    | handshake session => exact .inr (.inr ⟨rfl, session, hready session⟩)

/-! ## What the members that wait for a client do -/

theorem waitNextConnection_eq (s : Server κ) :
    ∃ threads, s.waitNextConnection = { s.createSession with serviceThreads := threads } := by
  unfold waitNextConnection createServiceThread
  dsimp only
  split
  · exact ⟨_, rfl⟩
  · exact ⟨s.serviceThreads, rfl⟩

theorem waitFirstConnection_eq (hardware : Int) (s : Server κ) :
    ∃ count threads, s.waitFirstConnection hardware =
      { s.createSession with threadCount := count, serviceThreads := threads } := by
  have hinit : ∀ x : Server κ, ∃ count threads, x.initServiceThreads hardware =
      { x with threadCount := count, serviceThreads := threads } := by
    intro x
    unfold initServiceThreads
    dsimp only
    generalize (if x.threadCount = -1 then _ else _ : Int) = count
    by_cases hc : 0 < count
    · exact ⟨count, _, if_pos hc⟩
    · exact ⟨count, _, if_neg hc⟩
  unfold waitFirstConnection createServiceThread
  dsimp only
  split
  · exact hinit s.createSession
  · exact ⟨s.threadCount, _, rfl⟩

/-- `start` does nothing, or it emits an error, or it waits for the first client. -/
theorem start_cases (bound : Option ErrorCode) (hardware : Int) (s : Server κ) :
    s.start bound hardware = s ∨
    (∃ code message, s.start bound hardware = s.emit (.error none code message)) ∨
    (s.running = false ∧ ∃ count threads, s.start bound hardware =
      { { s with running := true }.createSession with
        threadCount := count
        serviceThreads := threads }) := by
  unfold start
  split_ifs with hr hl
  · exact .inl rfl
  · exact .inr (.inl ⟨_, _, rfl⟩)
  · cases bound with
    | some err => exact .inr (.inl ⟨_, _, rfl⟩)
    | none =>
      have hrunning : s.running = false := by simpa using hr
      exact .inr (.inr ⟨hrunning, waitFirstConnection_eq hardware { s with running := true }⟩)

end Server

end Lnetlib
