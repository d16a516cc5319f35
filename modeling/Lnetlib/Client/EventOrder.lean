import Lnetlib.Client.Model
import Lnetlib.Connection.Callbacks

/-!
# The event order of a client

A client after one call to `connect`, with the one thread of its io_service. The thread waits in `run()`, or
it is in a handler. The handler of a session that makes the connection goes one step at a time, and
meanwhile the server sends, bytes arrive in any pieces and reads of the connection complete; the handlers of
the connection have to wait for the thread.

The server sends packages with a full header; a read may fail. User code creates and sends streams, and it
neither closes the connection nor throws.
-/

namespace Lnetlib

open Bytes Transition

/-- What the thread of the io_service does. -/
inductive ClientPc where
  /-- It is in `run()`, or in a handler of the connection. -/
  | run
  /-- It is in the handler of a connect or of a handshake that had no error. -/
  | makeConnection (session : Nat)
  | setConnection (session conn : Nat)
  | connectSlots (conn : Nat)
  | emitConnected
  /-- The slots of `connected` run. -/
  | inConnected
  /-- The slots of `refused` or `error` run. -/
  | inFailed
  deriving DecidableEq, Repr

/-- A client, its connection and the server. -/
structure ClientRun (κ : Type) where
  client : Client κ
  pc : ClientPc
  /-- The connection, with its number, once it was made. -/
  link : Option (Nat × Reading κ)
  /-- The packages the server has sent, and the bytes of them that have not arrived. -/
  sent : List (List UInt8)
  flight : List UInt8
  /-- The packages given to the body handler, and whether a callback was pending for them. -/
  arrivals : List (List UInt8 × Bool)
  /-- A read has failed. -/
  hungUp : Bool

/-- The steps of the server, of the thread and of user code. -/
inductive ClientRunAct (κ : Type) where
  | serverSend (body : List UInt8)
  /-- The next `n` bytes arrive. -/
  | deliver (n : Nat)
  /-- The `i`-th operation of the sessions completes and its handler is invoked. -/
  | sessionHandler (i : Nat) (err : ErrorCode)
  /-- The thread goes on in the handler of a session. -/
  | thread
  /-- A step of the connection. -/
  | reading (a : ReadingAct κ)

namespace ClientRun

variable {κ : Type} (o : ByteOrder)

/-- A client that was constructed and has called `connect`, with encryption or without. -/
def init (κ : Type) (enabled : Bool) : ClientRun κ :=
  { client := (((Client.construct κ).setEnabled enabled).connect none).1
    pc := .run
    link := none
    sent := []
    flight := []
    arrivals := []
    hungUp := false }

/-- The bytes of a package. -/
def packageBytes (body : List UInt8) : List UInt8 :=
  Framing.frame (fun n => bytesOf o (UInt64.ofNat n)) body

/-- The thread is in `run()`. -/
def Free (s : ClientRun κ) : Prop := s.pc = .run ∧ ∀ p ∈ s.link, p.2.handlers = []

instance (s : ClientRun κ) : Decidable s.Free := inferInstanceAs (Decidable (_ ∧ _))

/-- The handler of an operation, up to the connection that it makes or to its end. -/
def sessionHandler (op : ClientOp) (err : ErrorCode) (s : ClientRun κ) : ClientRun κ :=
  if err.isError then { s with client := s.client.sessionHandler op err, pc := .inFailed }
  else
    match op with
    | .connect session =>
      match s.client.kind session with
      | .nonSsl => { s with pc := .makeConnection session }
      | .ssl => { s with client := s.client.sessionHandler op err }
    | .handshake session => { s with pc := .makeConnection session }

/-- The handler from there on: the constructor of the connection starts its first read, and then
    `connected_handler` runs. -/
def thread (s : ClientRun κ) : Option (ClientRun κ) :=
  match s.pc with
  | .run => none
  | .makeConnection session =>
    match s.client.makeConnection .success with
    | (some conn, client) => some { s with
        client := client
        link := some (conn, Reading.init κ)
        pc := .setConnection session conn }
    | (none, _) => none
  | .setConnection session conn =>
    some { s with
      client := { s.client with connection := some conn, session := some session }
      pc := .connectSlots conn }
  | .connectSlots conn =>
    some { s with
      client := { s.client with slots := s.client.slots ++ [conn] }
      pc := .emitConnected }
  | .emitConnected => some { s with client := s.client.emit .connected, pc := .inConnected }
  | .inConnected => some { s with pc := .run }
  | .inFailed => some { s with pc := .run }

/-- The steps of the connection that can be taken now. A handler is invoked by the thread when it is free. -/
def mayRun (s : ClientRun κ) (r : Reading κ) : ReadingAct κ → Bool
  | .invoke _ | .writeHandler _ => s.pc = .run ∧ r.handlers = []
  | .advance _ _ | .slotReturn _ => s.pc = .run
  | .readResult _ | .readFail _ _ _ | .writeResult _ _ | .dispatch _ | .createStream _ _ _ => true
  | .peerSend _ | .slotThrow _ | .close _ => false

/-- What a step of the connection emits. -/
def emits (r : Reading κ) : ReadingAct κ → List (Emission κ)
  | .advance k junk =>
    match r.handlers[k]? with
    | some (.entered op err) => (r.conn.readHandler o junk op err).2.1
    | _ => []
  | .writeHandler i =>
    match r.conn.invokeWrite i with
    | some (_, emitted) => emitted
    | none => []
  | _ => []

/-- The package that a step gives to the body handler, and whether a callback is pending for it. -/
def arrival (r : Reading κ) : ReadingAct κ → List (List UInt8 × Bool)
  | .advance k _ =>
    match r.handlers[k]? with
    | some (.entered op err) =>
      if op.handler = .readPackageBodyHandler ∧ err.isError = false then
        [(op.buffer, (r.conn.callbacks (packageUid o op.buffer)).isSome)]
      else []
    | _ => []
  | _ => []

/-- The step is the failure of a read. -/
def fails : ReadingAct κ → Bool
  | .readFail _ _ _ => true
  | _ => false

/-- One step. -/
def step (s : ClientRun κ) : ClientRunAct κ → Option (ClientRun κ)
  | .serverSend body =>
    if 2 * sizeof UInt64 ≤ body.length ∧ body.length < 2 ^ 64 then
      some { s with sent := s.sent ++ [body], flight := s.flight ++ packageBytes o body }
    else none
  | .deliver n =>
    s.link.bind fun (conn, r) =>
      if n ≤ s.flight.length then
        (r.step o (.peerSend (s.flight.take n))).map fun r =>
          { s with link := some (conn, r), flight := s.flight.drop n }
      else none
  | .sessionHandler i err =>
    if s.Free then
      (s.client.ops[i]?).map fun op =>
        { s with client := { s.client with ops := s.client.ops.eraseIdx i } }.sessionHandler op err
    else none
  | .thread => s.thread
  | .reading a =>
    s.link.bind fun (conn, r) =>
      if s.mayRun r a then
        (r.step o a).map fun r' =>
          { s with
            client := (emits o r a).foldl (fun client e => client.runSlot conn e) s.client
            link := some (conn, r')
            arrivals := s.arrivals ++ arrival o r a
            hungUp := s.hungUp || fails a }
      else none

/-! ## The order of the events -/

def isConnected : ClientEmission → Bool
  | .connected => true
  | .refused | .disconnected | .error _ _ | .received _ => false

def stream? : ClientEmission → Option Istream
  | .received stream => some stream
  | .refused | .connected | .disconnected | .error _ _ => none

/-- The streams emitted through `received`. -/
def streams (s : ClientRun κ) : List Istream := s.client.emitted.filterMap stream?

/-- The packages for which no callback was pending when they were given to the body handler. -/
def unclaimed (s : ClientRun κ) : List (List UInt8) :=
  (s.arrivals.filter fun p => !p.2).map Prod.fst

/-- The client goes on by itself: its thread, or a read for which the bytes are there. -/
def goesOn : ClientRunAct κ → Bool
  | .thread => true
  | .reading (.readResult _) | .reading (.invoke _) | .reading (.advance _ _)
  | .reading (.slotReturn _) => true
  | _ => false

/-- The event order of a client. -/
structure EventOrder (o : ByteOrder) (s : ClientRun κ) : Prop where
  /-- `connected` is emitted at most once; and once, when the thread is through with the handler that has
      made the connection. -/
  connected_once : s.client.emitted.countP isConnected ≤ 1
  connected_made : s.link ≠ none → s.pc = .run → s.client.emitted.countP isConnected = 1
  connected_first : ∀ pre stream post, s.client.emitted = pre ++ .received stream :: post →
    ∃ e ∈ pre, isConnected e = true
  /-- The streams emitted through `received` are those on the packages that no callback has claimed. -/
  received_eq : List.Forall₂ (fun stream body => ∃ junk, stream = Istream.construct o body junk)
    s.streams s.unclaimed
  /-- The packages are handed over in the order in which they were sent, each once. -/
  in_order : s.arrivals.map Prod.fst <+: s.sent
  /-- What has arrived are the first of the packages sent. -/
  arrived : ∀ conn r, s.link = some (conn, r) → Reading.packages o (r.sent ++ s.flight) = s.sent
  /-- Unless a read has failed, the packages that have arrived are handed over, or the client goes on. -/
  reads_on : ∀ conn r, s.link = some (conn, r) → s.hungUp = false →
    s.arrivals.map Prod.fst = Reading.packages o r.sent ∨
      ∃ a, goesOn a = true ∧ (step o s a).isSome = true

end ClientRun

end Lnetlib
