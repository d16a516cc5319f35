import Lnetlib.Server.Model

/-!
# `client`: the members as functions on its state

The state of a client with its sessions, and one function for each member of `client` and of the two
implementations of `client_session`. A host name resolves, or the resolver throws; `connect` then returns
the exception with the state it leaves behind. `connectedHandler` ends with the emission of `connected`,
`refused` or `error`, and the slots that the client connects to a connection end with theirs.

The io_service is here what `run()` makes of it. It returns at once once the service is stopped, and
nothing resets it; a thread that finds no work left stops it as `stop()` does.
-/

namespace Lnetlib

/-- `asio::error::connection_refused`. -/
def ErrorCode.connectionRefused : ErrorCode := ⟨111, "Connection refused"⟩

/-- What a session of a client has started. -/
inductive ClientOp where
  | connect (session : Nat)
  | handshake (session : Nat)
  deriving DecidableEq, Repr

/-- The signals of a client as they are emitted. -/
inductive ClientEmission where
  | refused
  | connected
  | disconnected
  | error (code : Int) (message : String)
  | received (stream : Istream)

/-- The state of a client. -/
structure Client (κ : Type) where
  running : Bool
  encryption : Encryption
  /-- `_connection` and `_session`. -/
  connection : Option Nat
  session : Option Nat
  /-- The implementation of each session that was created. -/
  kind : Nat → SessionKind
  nextSession : Nat
  ops : List ClientOp
  /-- The connections that were created, and those to whose signals the client has connected its slots. -/
  conns : Nat → Option (Connection κ)
  nextConn : Nat
  slots : List Nat
  stopped : Bool
  /-- The threads in `_service.run()` that go on to invoke handlers. -/
  serviceThreads : Nat
  emitted : List ClientEmission

namespace Client

variable {κ : Type}

/-- `client::client`. -/
def construct (κ : Type) : Client κ :=
  { running := false
    encryption := { enabled := false, lastError := "" }
    connection := none
    session := none
    kind := fun _ => .nonSsl
    nextSession := 0
    ops := []
    conns := fun _ => none
    nextConn := 0
    slots := []
    stopped := false
    serviceThreads := 0
    emitted := [] }

def emit (e : ClientEmission) (s : Client κ) : Client κ := { s with emitted := s.emitted ++ [e] }

/-- `encryption::set_enabled` of `encryption_info()`. -/
def setEnabled (enabled : Bool) (s : Client κ) : Client κ :=
  { s with encryption := { s.encryption with enabled := enabled } }

/-- A member of `encryption_info()` that leaves this in `last_error`. -/
def setLastError (lastError : String) (s : Client κ) : Client κ :=
  { s with encryption := { s.encryption with lastError := lastError } }

/-! ## The io_service -/

/-- `_service.stop()`. -/
def stopService (s : Client κ) : Client κ := { s with stopped := true, serviceThreads := 0 }

/-- A thread that calls `_service.run()`. -/
def createServiceThread (s : Client κ) : Client κ :=
  if s.stopped then s else { s with serviceThreads := s.serviceThreads + 1 }

/-- Nothing that was started is outstanding. -/
def OutOfWork (s : Client κ) : Prop :=
  s.ops = [] ∧ ∀ conn < s.nextConn, ∀ c ∈ s.conns conn, c.socket.reads = [] ∧ c.socket.writes = []

instance (s : Client κ) : Decidable s.OutOfWork := inferInstanceAs (Decidable (_ ∧ _))

/-! ## `connect` and `disconnect` -/

/-- `client_session_non_ssl::start` and `client_session_ssl::start`. -/
def startSession (session : Nat) (s : Client κ) : Client κ :=
  { s with ops := s.ops ++ [.connect session] }

/-- `client::create_session`. -/
def createSession (s : Client κ) : Client κ :=
  startSession s.nextSession
    { s with
      kind := Function.update s.kind s.nextSession (if s.encryption.enabled then .ssl else .nonSsl)
      nextSession := s.nextSession + 1 }

/-- `client::try_connect`. -/
def tryConnect (s : Client κ) : Client κ := s.createSession.createServiceThread

/-- `client::connect`, with the exception that leaves it; `resolved` is the error that the resolver throws,
    if it throws. -/
def connect (resolved : Option ErrorCode) (s : Client κ) : Client κ × Option ErrorCode :=
  if s.running then (s, none)
  else if s.encryption.lastError ≠ "" then (s.emit (.error (-1) s.encryption.lastError), none)
  else
    let s := { s with running := true }
    match resolved with
    | some err => (s, some err)
    | none => (s.tryConnect, none)

/-- `client::disconnect`. -/
def disconnect (s : Client κ) : Client κ :=
  if s.running then { s.stopService with running := false } else s

/-! ## The handlers -/

/-- `client::connected_handler`. Without an error the sessions always pass a connection. -/
def connectedHandler (session : Nat) (conn : Option Nat) (err : ErrorCode) (s : Client κ) : Client κ :=
  if err.isError then
    if err.value = ErrorCode.connectionRefused.value then s.emit .refused
    else s.emit (.error err.value err.message)
  else
    match conn with
    | some conn =>
      { s with
        connection := some conn
        session := some session
        slots := s.slots ++ [conn] }.emit .connected
    | none => s

/-- The connection that a session makes when there is no error. -/
def makeConnection (err : ErrorCode) (s : Client κ) : Option Nat × Client κ :=
  if err.isError then (none, s)
  else
    (some s.nextConn,
      { s with
        conns := Function.update s.conns s.nextConn (some (Connection.construct κ))
        nextConn := s.nextConn + 1 })

/-- `client_session_non_ssl::connect_handler` and `client_session_ssl::handshake_handler`. -/
def sessionReady (session : Nat) (err : ErrorCode) (s : Client κ) : Client κ :=
  let (conn, s) := s.makeConnection err
  s.connectedHandler session conn err

/-- `client_session_ssl::connect_handler`. -/
def sslConnectHandler (session : Nat) (err : ErrorCode) (s : Client κ) : Client κ :=
  if err.isError then s.connectedHandler session none err
  else { s with ops := s.ops ++ [.handshake session] }

/-- The handler of an operation. -/
def sessionHandler (op : ClientOp) (err : ErrorCode) (s : Client κ) : Client κ :=
  match op with
  | .connect session =>
    match s.kind session with
    | .nonSsl => s.sessionReady session err
    | .ssl => s.sslConnectHandler session err
  | .handshake session => s.sessionReady session err

/-- `closed_slot`, `error_slot` and `received_slot`. A response callback is no slot of the client. -/
def runSlot (conn : Nat) (e : Emission κ) (s : Client κ) : Client κ :=
  if conn ∈ s.slots then
    match e with
    | .closed => s.emit .disconnected
    | .error code message => s.emit (.error code message)
    | .received stream => s.emit (.received stream)
    | .callback _ _ => s
  else s

/-! ## What the members do -/

/-- The client after a session has made a connection and `connected_handler` has wired it. -/
def wired (session : Nat) (s : Client κ) : Client κ :=
  { s with
    conns := Function.update s.conns s.nextConn (some (Connection.construct κ))
    nextConn := s.nextConn + 1
    connection := some s.nextConn
    session := some session
    slots := s.slots ++ [s.nextConn] }.emit .connected

/-- What is emitted for an attempt that has failed. -/
def failure (err : ErrorCode) : ClientEmission :=
  if err.value = ErrorCode.connectionRefused.value then .refused else .error err.value err.message

theorem connectedHandler_failure {err : ErrorCode} (he : err.isError = true) (session : Nat)
    (conn : Option Nat) (s : Client κ) :
    s.connectedHandler session conn err = s.emit (failure err) := by
  unfold connectedHandler failure
  rw [if_pos he]
  split_ifs
  · rfl
  · rfl

/-- The handler of an operation reports its error, or starts the handshake, or wires a connection. -/
theorem sessionHandler_cases (op : ClientOp) (err : ErrorCode) (s : Client κ) :
    (err.isError = true ∧ s.sessionHandler op err = s.emit (failure err)) ∨
    (err.isError = false ∧ ∃ session,
      s.sessionHandler op err = { s with ops := s.ops ++ [.handshake session] }) ∨
    (err.isError = false ∧ ∃ session, s.sessionHandler op err = s.wired session) := by
  cases he : err.isError with
  | true =>
    refine .inl ⟨rfl, ?_⟩
    have hready : ∀ session, s.sessionReady session err = s.emit (failure err) := by
      intro session
      simp only [sessionReady, makeConnection, he, if_true, connectedHandler_failure he]
    cases op with
    | connect session =>
      cases hk : s.kind session with
      | nonSsl => simp only [sessionHandler, hk, hready]
      | ssl => simp only [sessionHandler, hk, sslConnectHandler, he, if_true, connectedHandler_failure he]
    | handshake session => exact hready session
  | false =>
    have hready : ∀ session, s.sessionReady session err = s.wired session := by
      intro session
      simp [sessionReady, makeConnection, connectedHandler, he, wired]
    cases op with
    | connect session =>
      cases hk : s.kind session with
      | nonSsl =>
        refine .inr (.inr ⟨rfl, session, ?_⟩)
        simp only [sessionHandler, hk, hready]
      | ssl =>
        refine .inr (.inl ⟨rfl, session, ?_⟩)
        simp [sessionHandler, hk, sslConnectHandler, he]
    | handshake session => exact .inr (.inr ⟨rfl, session, hready session⟩)

/-- A thread is there for the session unless the service was stopped before. -/
theorem tryConnect_eq (s : Client κ) : ∃ threads,
    s.tryConnect = { s.createSession with serviceThreads := threads } ∧
      (s.stopped = false → 0 < threads) := by
  unfold tryConnect createServiceThread
  split
  · rename_i hst
    refine ⟨s.serviceThreads, rfl, fun h => ?_⟩
    rw [show s.createSession.stopped = s.stopped from rfl, h] at hst
    cases hst
  · exact ⟨_, rfl, fun _ => Nat.succ_pos _⟩

/-- `connect` returns at once, or it emits an error, or it goes past its guards: the resolver throws, or a
    session is started. -/
theorem connect_cases (resolved : Option ErrorCode) (s : Client κ) :
    (s.running = true ∧ s.connect resolved = (s, none)) ∨
    (s.running = false ∧ s.encryption.lastError ≠ "" ∧ ∃ e, s.connect resolved = (s.emit e, none)) ∨
    (s.running = false ∧ s.encryption.lastError = "" ∧
      ((∃ err, resolved = some err ∧ s.connect resolved = ({ s with running := true }, some err)) ∨
        resolved = none ∧ s.connect resolved = ({ s with running := true }.tryConnect, none))) := by
  by_cases hr : s.running = true
  · exact .inl ⟨hr, by simp [connect, hr]⟩
  · have hrunning : s.running = false := by simpa using hr
    by_cases hl : s.encryption.lastError = ""
    · refine .inr (.inr ⟨hrunning, hl, ?_⟩)
      cases resolved with
      | some err => exact .inl ⟨err, rfl, by simp [connect, hrunning, hl]⟩
      | none => exact .inr ⟨rfl, by simp [connect, hrunning, hl]⟩
    · refine .inr (.inl ⟨hrunning, hl, .error (-1) s.encryption.lastError, ?_⟩)
      unfold connect
      rw [if_neg hr, if_pos hl]

/-- A slot of the client emits at most one signal. -/
theorem runSlot_eq (conn : Nat) (e : Emission κ) (s : Client κ) :
    ∃ emitted, s.runSlot conn e = { s with emitted := emitted } := by
  unfold runSlot
  split_ifs
  · cases e with
    | callback cb stream => exact ⟨s.emitted, rfl⟩
    | _ => exact ⟨_, rfl⟩
  · exact ⟨s.emitted, rfl⟩

end Client

end Lnetlib
