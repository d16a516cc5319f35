import Lnetlib.Connection.Handlers
import Lnetlib.Lib.Run

/-!
# The arrival of a connection at a server

The accept handler that has just constructed a connection, and so started its first read, next to the
read handlers of that connection, which run on other threads of the io_service. Each of the two goes from
one connect, emission or section under `server::_mutex` to the next, and they interleave. The peer sends
packages and hangs up at the end, perhaps in the middle of a package; nothing else fails, and nobody calls
`close()`. The stream is taken frame by frame: a read completes with the size or with the body that comes
next, or with the end of the stream.
-/

namespace Lnetlib

open Bytes Transition

/-- What the accept handler does next. -/
inductive AcceptPc where
  | connectClosed
  | connectError
  | connectReceived
  /-- Lock `server::_mutex`. -/
  | lock
  | pushConnection
  | addSession
  | emitConnected
  /-- The slots of `connected` run. -/
  | inConnected
  | unlock
  | waitNextConnection
  | returned
  deriving DecidableEq, Repr

/-- It is past the emission of `connected`. -/
def AcceptPc.announced : AcceptPc → Bool
  | connectClosed | connectError | connectReceived | lock | pushConnection | addSession |
    emitConnected => false
  | inConnected | unlock | waitNextConnection | returned => true

/-- What the read handler does next. -/
inductive ReaderPc where
  /-- No read handler is running. -/
  | idle
  | emitClosed
  /-- Emit `received` of the connection with the stream on a body. -/
  | emitReceived (body : List UInt8)
  /-- In the closed slot, emit `disconnected` of the server. -/
  | emitDisconnected
  /-- In the received slot, emit `received` of the server. -/
  | emitServerReceived (body : List UInt8)
  /-- The slots of `disconnected` run. -/
  | inDisconnected
  | removeConnection
  /-- The slots of `received` or a callback run. -/
  | inSlot
  | waitPackage
  deriving DecidableEq, Repr

/-- What a server emits about the connection. -/
inductive ServerEvent where
  | connected
  | received (body : List UInt8)
  | disconnected
  deriving DecidableEq, Repr

/-- A package that a read handler was given, and whether a callback claimed it. -/
structure Taken where
  body : List UInt8
  claimed : Bool
  deriving DecidableEq, Repr

/-- How the stream ends: with the error of the last read, perhaps inside a package of which the size is
    all that arrives. -/
structure HangUp where
  err : ErrorCode
  cut : Option UInt64
  deriving DecidableEq, Repr

/-- A connection that arrives. -/
structure Arrival (κ : Type) where
  conn : Connection κ
  acceptPc : AcceptPc
  readerPc : ReaderPc
  /-- Which of its slots the server has connected. -/
  closedSlot : Bool
  errorSlot : Bool
  receivedSlot : Bool
  /-- `server::_mutex` is held by the accept handler. -/
  locked : Bool
  /-- The connection is in `_connections`, and it is a key of `_sessions`. -/
  registered : Bool
  session : Bool
  events : List ServerEvent
  /-- The packages the peer has sent, those not read yet, and those read. -/
  sent : List (List UInt8)
  inbox : List (List UInt8)
  taken : List Taken
  hangUp : Option HangUp
  /-- The end of the stream was given to a read handler. -/
  ended : Bool

/-- The steps of the peer, of the two handlers and of user code. -/
inductive ArrivalAct (κ : Type) where
  | peerSend (body : List UInt8)
  | peerHangUp (h : HangUp)
  /-- The next step of the accept handler. -/
  | accept
  /-- The outstanding read completes and its handler is invoked. -/
  | readHandler (junk : Nat → UInt8)
  /-- The next step of the read handler. -/
  | reader
  | createStream (cmd : CommandType) (command : cmd.Value) (cb : Option κ)

namespace Arrival

variable {κ : Type} (o : ByteOrder)

/-- The accept handler has constructed the connection. -/
def init (κ : Type) : Arrival κ :=
  { conn := Connection.construct κ
    acceptPc := .connectClosed
    readerPc := .idle
    closedSlot := false
    errorSlot := false
    receivedSlot := false
    locked := false
    registered := false
    session := false
    events := []
    sent := []
    inbox := []
    taken := []
    hangUp := none
    ended := false }

/-- The accept handler, from `add_connection` on. -/
def accept (s : Arrival κ) : Option (Arrival κ) :=
  match s.acceptPc with
  | .connectClosed => some { s with closedSlot := true, acceptPc := .connectError }
  | .connectError => some { s with errorSlot := true, acceptPc := .connectReceived }
  | .connectReceived => some { s with receivedSlot := true, acceptPc := .lock }
  | .lock => some { s with locked := true, acceptPc := .pushConnection }
  | .pushConnection => some { s with registered := true, acceptPc := .addSession }
  | .addSession => some { s with session := true, acceptPc := .emitConnected }
  | .emitConnected => some { s with events := s.events ++ [.connected], acceptPc := .inConnected }
  | .inConnected => some { s with acceptPc := .unlock }
  | .unlock => some { s with locked := false, acceptPc := .waitNextConnection }
  | .waitNextConnection => some { s with acceptPc := .returned }
  | .returned => none

/-- What the outstanding read completes with: its bytes and result, and the packages not read then. -/
def nextRead (s : Arrival κ) : ReadHandler → Option (List UInt8 × ErrorCode × List (List UInt8))
  | .readPackageSizeHandler =>
    match s.inbox, s.hangUp with
    | body :: rest, _ => some (bytesOf o (UInt64.ofNat body.length), .success, body :: rest)
    | [], some { err := _, cut := some size } => some (bytesOf o size, .success, [])
    | [], some { err := err, cut := none } => some ([], err, [])
    | [], none => none
  | .readPackageBodyHandler =>
    match s.inbox, s.hangUp with
    | body :: rest, _ => some (body, .success, rest)
    | [], some { err := err, cut := _ } => some ([], err, [])
    | [], none => none

/-- The handler of the read `op`, up to its emission. -/
def readHandler (s : Arrival κ) (op : ReadOp) (junk : Nat → UInt8) : Option (Arrival κ) :=
  (s.nextRead o op.handler).bind fun (buffer, err, inbox) =>
    if err = .success ∧ buffer.length ≠ op.exactly then none
    else
      let (conn, emitted, _) :=
        (s.conn.setReads []).readHandler o junk { op with buffer := buffer } err
      let s := { s with conn := conn, inbox := inbox, ended := s.ended || err.isError }
      let takes := decide (op.handler = .readPackageBodyHandler) && !err.isError
      match emitted with
      | .received _ :: _ => some { s with
          readerPc := .emitReceived buffer
          taken := s.taken ++ [{ body := buffer, claimed := false }] }
      | .callback _ _ :: _ => some { s with
          readerPc := .inSlot
          taken := s.taken ++ [{ body := buffer, claimed := true }] }
      | .closed :: _ => some { s with readerPc := .emitClosed }
      | .error _ _ :: _ => some s
      | [] => some { s with
          taken := s.taken ++ if takes then [{ body := buffer, claimed := false }] else [] }

/-- The read handler from its emission on. A signal of the connection runs the slot of the server, if it
    is connected. -/
def reader (s : Arrival κ) : Option (Arrival κ) :=
  match s.readerPc with
  | .idle => none
  | .emitClosed => some { s with readerPc := if s.closedSlot then .emitDisconnected else .idle }
  | .emitReceived body =>
    some { s with readerPc := if s.receivedSlot then .emitServerReceived body else .waitPackage }
  | .emitDisconnected =>
    some { s with events := s.events ++ [.disconnected], readerPc := .inDisconnected }
  | .emitServerReceived body =>
    some { s with events := s.events ++ [.received body], readerPc := .inSlot }
  | .inDisconnected => some { s with readerPc := .removeConnection }
  | .removeConnection =>
    if s.locked then none else some { s with registered := false, session := false, readerPc := .idle }
  | .inSlot => some { s with readerPc := .waitPackage }
  | .waitPackage => some { s with conn := s.conn.waitPackage, readerPc := .idle }

/-- One step. -/
def step (s : Arrival κ) : ArrivalAct κ → Option (Arrival κ)
  | .peerSend body =>
    if s.hangUp = none ∧ body.length < 2 ^ 64 then
      some { s with sent := s.sent ++ [body], inbox := s.inbox ++ [body] }
    else none
  | .peerHangUp h =>
    if s.hangUp = none ∧ (h.err = .eof ∨ h.err = .sslShortRead) ∧ h.cut ≠ some 0 then
      some { s with hangUp := some h }
    else none
  | .accept => s.accept
  | .readHandler junk =>
    match s.readerPc, s.conn.socket.reads with
    | .idle, [op] => s.readHandler o op junk
    | _, _ => none
  | .reader => s.reader
  | .createStream cmd command cb =>
    match cb with
    | some cb => some { s with conn := (s.conn.createStreamWith o cmd command cb).2 }
    | none => some { s with conn := (s.conn.createStream o cmd command).2 }

/-- The bodies emitted through `received` of the server. -/
def receivedBodies (s : Arrival κ) : List (List UInt8) :=
  s.events.filterMap fun e =>
    match e with
    | .received body => some body
    | .connected | .disconnected => none

/-- The body that the read handler is about to emit. -/
def pending (s : Arrival κ) : List (List UInt8) :=
  match s.readerPc with
  | .emitReceived body | .emitServerReceived body => [body]
  | _ => []

/-- The packages read that are not empty and that no callback claimed. -/
def unclaimed (s : Arrival κ) : List (List UInt8) :=
  (s.taken.filter fun p => !p.claimed && !p.body.isEmpty).map Taken.body

/-- The event order of a connection. -/
structure InOrder (o : ByteOrder) (s : Arrival κ) : Prop where
  /-- `connected` comes before everything else. -/
  connected_first : ∀ pre e post, s.events = pre ++ e :: post → e ≠ .connected → .connected ∈ pre
  /-- Each package that was read, is not empty and was not claimed is emitted once, in order. -/
  received_once : s.receivedBodies ++ s.pending = s.unclaimed
  /-- The packages sent are those read and those not read yet. -/
  sent_eq : s.sent = s.taken.map Taken.body ++ s.inbox
  /-- While a package is left that is not empty, a read handler is running or the next can run. -/
  reads_on : (∃ body ∈ s.inbox, body ≠ []) →
    s.readerPc ≠ .idle ∨ ∀ junk, (step o s (.readHandler junk)).isSome = true
  /-- Once the end of the stream was handled and the accept handler has returned, the connection is
      gone. -/
  gone : s.ended = true → s.readerPc = .idle → s.acceptPc = .returned →
    .disconnected ∈ s.events ∧ s.registered = false

/-- The peer sends nothing but empty packages behind an empty one. The read handler emits a signal of the
    connection when the accept handler has connected its slot, and the slot emits the signal of the server
    when the accept handler is past the emission of `connected`. -/
def Prompt (s : Arrival κ) : ArrivalAct κ → Prop
  | .peerSend body => body ≠ [] → [] ∉ s.sent
  | .reader =>
    match s.readerPc with
    | .emitClosed => s.closedSlot = true
    | .emitReceived _ => s.receivedSlot = true
    | .emitDisconnected | .emitServerReceived _ => s.acceptPc.announced = true
    | _ => True
  | _ => True

instance (s : Arrival κ) : ∀ a, Decidable (Prompt s a)
  | .peerSend body => inferInstanceAs (Decidable (body ≠ [] → [] ∉ s.sent))
  | .peerHangUp _ | .accept | .readHandler _ | .createStream _ _ _ => isTrue trivial
  | .reader =>
    match h : s.readerPc with
    | .emitClosed => decidable_of_iff (s.closedSlot = true) (by simp only [Prompt, h])
    | .emitReceived _ => decidable_of_iff (s.receivedSlot = true) (by simp only [Prompt, h])
    | .emitDisconnected | .emitServerReceived _ =>
      decidable_of_iff (s.acceptPc.announced = true) (by simp only [Prompt, h])
    | .idle | .inDisconnected | .removeConnection | .inSlot | .waitPackage =>
      isTrue (by simp only [Prompt, h])

end Arrival

end Lnetlib
