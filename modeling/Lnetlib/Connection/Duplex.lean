import Lnetlib.Connection.Correlation
import Lnetlib.Connection.Transfer

/-!
# Two connections over a socket

What `Peers` says of packages on two FIFO channels, for the bytes that two connections read and write: both
ends create, write and send streams, answer what comes in, and read, at the same time and over one socket
each. Any operation may fail and either end may close the connection. As in `Delivery`, a write to a stream
that was sent can free the storage that its package points to.

The dispatch slot and the write handler are one step each, that in which they lock `_mutex`. So are
`create_stream` and the body handler up to the slot or callback it calls: both use the table of callbacks
without a lock, and are taken as steps that do not overlap.
-/

namespace Lnetlib

open Bytes Transition

/-- One end with its user code. As in `Peers`, a callback is the serial number of the stream it was
    registered for. -/
structure Endpoint where
  reading : Reading Nat
  /-- Of each package, by its identity, how many bytes are written. -/
  progress : Nat → Nat
  /-- For each call of `create_stream`, whether a callback was registered. -/
  registered : List Bool
  streams : List Ostream
  /-- The stream each package is made of, and the streams whose package points to freed storage. -/
  streamOf : Nat → Nat
  freed : Nat → Bool
  /-- The streams that came in, and for each the callback it was given to, or none for `received`. -/
  incoming : List Istream
  handled : List (Option Nat)
  /-- The bodies in the order in which the dispatch slot was run. -/
  sent : List (List UInt8)

/-- The two ends of a socket. -/
structure Duplex where
  endpoint : Side → Endpoint

/-- What happens. -/
inductive DuplexAct where
  | createStream (x : Side) (cmd : CommandType) (command : cmd.Value) (callback : Bool)
  /-- `create_response()` of the `j`-th stream that came in. -/
  | createResponse (x : Side) (j : Nat)
  | write (x : Side) (i : Nat) (bs : List UInt8)
  | send (x : Side) (i : Nat)
  /-- The next `n` bytes of the `i`-th write of `x` reach the other end; `junk` is what freed storage
      holds. -/
  | transmit (x : Side) (i n : Nat) (junk : Nat → UInt8)
  /-- Anything else on the connection of `x`. -/
  | connection (x : Side) (a : ReadingAct Nat)

namespace Duplex

variable (o : ByteOrder)

/-- Two connections just constructed. -/
def init : Duplex :=
  { endpoint := fun _ =>
      { reading := Reading.init Nat, progress := fun _ => 0, registered := [], streams := []
        streamOf := fun _ => 0, freed := fun _ => false, incoming := [], handled := [], sent := [] } }

/-- Replace one end. -/
def setEndpoint (x : Side) (e : Endpoint) (s : Duplex) : Duplex :=
  { endpoint := Function.update s.endpoint x e }

/-- `create_stream` by the user code of one end. -/
def createStream (cmd : CommandType) (command : cmd.Value) (callback : Bool) (e : Endpoint) : Endpoint :=
  let (os, conn) :=
    if callback then e.reading.conn.createStreamWith o cmd command e.registered.length
    else e.reading.conn.createStream o cmd command
  { e with
    reading := { e.reading with conn := conn }
    registered := e.registered ++ [callback]
    streams := e.streams ++ [os] }

/-- The package made of the `i`-th stream waits or is being written. -/
def Keeps (e : Endpoint) (i : Nat) : Prop :=
  ∃ pkg ∈ e.reading.conn.packages ++ e.reading.conn.socket.writes.map WriteOp.pkg, e.streamOf pkg.ptr = i

instance (e : Endpoint) (i : Nat) : Decidable (Keeps e i) := inferInstanceAs (Decidable (∃ pkg ∈ _, _))

/-- The storage that is freed once `bs` are written to the `i`-th stream. -/
def freedBy (e : Endpoint) (i : Nat) (os : Ostream) (bs : List UInt8) : Nat → Bool :=
  if os.sended = false then e.freed
  else if ¬ Keeps e i then fun _ => true
  else if os.outgrows bs then Function.update e.freed i true
  else e.freed

/-- `send()` of a stream: the first time, its package goes through the dispatch slot. -/
def sendStream (e : Endpoint) (i : Nat) (os : Ostream) : Option Endpoint :=
  match os.send with
  | (os, some body) =>
    if body.length < 2 ^ 64 then
      (e.reading.step o (.dispatch body)).map fun reading =>
        { e with
          reading := reading
          streams := e.streams.set i os
          streamOf := Function.update e.streamOf e.reading.next i
          sent := e.sent ++ [body] }
    else none
  | (os, none) => some { e with streams := e.streams.set i os }

/-- What the step of a connection runs user code with: the callback, if it is one, and the stream. -/
def ran (r : Reading Nat) : ReadingAct Nat → List (Option Nat × Istream)
  | .advance k junk =>
    match r.handlers[k]? with
    | some (.entered op err) => (r.conn.readHandler o junk op err).2.1.filterMap Emission.stream
    | _ => []
  | _ => []

/-- The steps that the connection of an end takes by itself; a write succeeds when all its bytes are
    written. -/
def Allows (e : Endpoint) : ReadingAct Nat → Prop
  | .peerSend _ | .dispatch _ | .createStream _ _ _ => False
  | .writeResult i err => err.isError = true ∨
      ∀ op ∈ e.reading.conn.socket.writes[i]?, e.progress op.pkg.ptr = op.pkg.bytes.length
  | .readResult _ | .readFail _ _ _ | .invoke _ | .advance _ _ | .slotReturn _ | .slotThrow _
  | .writeHandler _ | .close _ => True

instance (e : Endpoint) : ∀ a, Decidable (Allows e a)
  | .peerSend _ | .dispatch _ | .createStream _ _ _ => isFalse id
  | .writeResult i err => inferInstanceAs (Decidable (err.isError = true ∨
      ∀ op ∈ e.reading.conn.socket.writes[i]?, e.progress op.pkg.ptr = op.pkg.bytes.length))
  | .readResult _ | .readFail _ _ _ | .invoke _ | .advance _ _ | .slotReturn _ | .slotThrow _
  | .writeHandler _ | .close _ => isTrue trivial

/-- One step. -/
def step (s : Duplex) : DuplexAct → Option Duplex
  | .createStream x cmd command callback =>
    some (s.setEndpoint x (createStream o cmd command callback (s.endpoint x)))
  | .createResponse x j =>
    (s.endpoint x).incoming[j]?.map fun stream =>
      s.setEndpoint x { s.endpoint x with
        streams := (s.endpoint x).streams ++ [stream.createResponse o] }
  | .write x i bs =>
    (s.endpoint x).streams[i]?.map fun os =>
      s.setEndpoint x { s.endpoint x with
        streams := (s.endpoint x).streams.set i (os.write bs)
        freed := freedBy (s.endpoint x) i os bs }
  | .send x i =>
    (s.endpoint x).streams[i]?.bind fun os =>
      (sendStream o (s.endpoint x) i os).map fun e => s.setEndpoint x e
  | .transmit x i n junk =>
    let e := s.endpoint x
    match e.reading.conn.socket.writes[i]? with
    | some { pkg := pkg, result := none } =>
      if e.progress pkg.ptr + n ≤ pkg.bytes.length then
        ((s.endpoint x.other).reading.step o
          (.peerSend (((pkg.bytesIn (e.freed (e.streamOf pkg.ptr)) junk).drop
            (e.progress pkg.ptr)).take n))).map fun reading =>
            (s.setEndpoint x { e with
              progress := Function.update e.progress pkg.ptr (e.progress pkg.ptr + n) }).setEndpoint
              x.other { s.endpoint x.other with reading := reading }
      else none
    | _ => none
  | .connection x a =>
    let e := s.endpoint x
    if Allows e a then
      (e.reading.step o a).map fun reading =>
        s.setEndpoint x { e with
          reading := reading
          incoming := e.incoming ++ (ran o e.reading a).map Prod.snd
          handled := e.handled ++ (ran o e.reading a).map Prod.fst }
    else none

/-- What is written to a stream after its first `send` fits into the storage that its package points to, and
    the package waits or is being written. -/
def KeepsStorage (s : Duplex) : DuplexAct → Prop
  | .write x i bs => ∀ os ∈ (s.endpoint x).streams[i]?, os.sended = true →
      Keeps (s.endpoint x) i ∧ os.outgrows bs = false
  | _ => True

instance (s : Duplex) : ∀ a, Decidable (s.KeepsStorage a)
  | .write x i bs => inferInstanceAs (Decidable (∀ os ∈ (s.endpoint x).streams[i]?, os.sended = true →
      Keeps (s.endpoint x) i ∧ os.outgrows bs = false))
  | .createStream _ _ _ _ | .createResponse _ _ | .send _ _ | .transmit _ _ _ _ | .connection _ _ =>
    isTrue trivial

/-- What a step is for `Peers`: what the user code does, and a delivery where it is given a package. -/
def acts (s : Duplex) : DuplexAct → List PeersAct
  | .createStream x cmd command callback => [.createStream x cmd command callback]
  | .createResponse x j => [.createResponse x j]
  | .write x i bs => [.write x i bs]
  | .send x i => [.send x i]
  | .transmit _ _ _ _ => []
  | .connection x (.advance k junk) =>
    (ran o (s.endpoint x).reading (.advance k junk)).map fun _ => .deliver x junk
  | .connection _ _ => []

/-- An end has what a party of `Peers` has. -/
structure Matches (e : Endpoint) (p : Party) : Prop where
  uidCounter : p.conn.uidCounter = e.reading.conn.uidCounter
  callbacks : p.conn.callbacks = e.reading.conn.callbacks
  registered : p.registered = e.registered
  streams : p.streams.map Outgoing.os = e.streams
  incoming : p.incoming.map Prod.fst = e.incoming
  handled : p.handled.map Handled.callback = e.handled

/-- Both ends match those of `p`, and what is on its way to an end there is what the other end has sent and
    this one has not handled. -/
structure Refines (s : Duplex) (p : Peers) : Prop where
  ends : ∀ x, Matches (s.endpoint x) (p.party x)
  inFlight : ∀ x, (p.inFlight x).map Message.body =
    (s.endpoint x.other).sent.drop (s.endpoint x).handled.length

end Duplex

end Lnetlib
