import Lnetlib.Connection.Model
import Lnetlib.Lib.Run

/-!
# Requests and responses between two connections

Two connections exchange packages over two FIFO channels, one in each direction. Each side numbers the
streams it creates with its own counter, and a response goes back under the number of what it answers.
Where a package comes from is a history: the package itself carries the command and the uid only.

A callback is represented by the serial number of the stream it was registered for.
-/

namespace Lnetlib

open Bytes Transition

/-- The two ends. -/
inductive Side where
  | left
  | right
  deriving DecidableEq, Repr

/-- The other end. -/
def Side.other : Side → Side
  | left => right
  | right => left

/-- What a stream was made by. -/
inductive Origin where
  /-- The `n`-th call of `create_stream`, with or without a callback. -/
  | request (n : Nat)
  /-- `create_response()` on what came in. -/
  | response (answered : Origin)
  deriving DecidableEq, Repr

/-- The uid a stream is given: the counter has 64 bits. -/
def Origin.uid : Origin → UInt64
  | request n => UInt64.ofNat n
  | response answered => answered.uid

/-- A stream that was created. -/
structure Outgoing where
  os : Ostream
  origin : Origin

/-- A package on its way. -/
structure Message where
  body : List UInt8
  origin : Origin

/-- A package that was handled: the callback it was given to, or none for the `received` signal. -/
structure Handled where
  origin : Origin
  callback : Option Nat
  deriving DecidableEq, Repr

/-- One end with its user code. -/
structure Party where
  conn : Connection Nat
  /-- For each call of `create_stream`, whether a callback was registered. -/
  registered : List Bool
  streams : List Outgoing
  /-- The streams that came in. -/
  incoming : List (Istream × Origin)
  handled : List Handled

/-- The two ends and the packages on their way to each. -/
structure Peers where
  party : Side → Party
  inFlight : Side → List Message

/-- What the user code on either side does, and the delivery of packages. -/
inductive PeersAct where
  | createStream (x : Side) (cmd : CommandType) (command : cmd.Value) (callback : Bool)
  /-- `create_response()` of the `j`-th stream that came in. -/
  | createResponse (x : Side) (j : Nat)
  | write (x : Side) (i : Nat) (bs : List UInt8)
  | send (x : Side) (i : Nat)
  /-- The next package on its way to `x` is handled there. -/
  | deliver (x : Side) (junk : Nat → UInt8)

/-- What the read handler runs user code with: the callback, if it is one, and the stream. -/
def Emission.stream {κ : Type} : Emission κ → Option (Option κ × Istream)
  | .received stream => some (none, stream)
  | .callback cb stream => some (some cb, stream)
  | .closed | .error .. => none

namespace Peers

variable (o : ByteOrder)

/-- Two connections just constructed. -/
def init : Peers :=
  { party := fun _ =>
      { conn := Connection.construct Nat, registered := [], streams := [], incoming := [], handled := [] }
    inFlight := fun _ => [] }

/-- Replace one end. -/
def setParty (x : Side) (p : Party) (s : Peers) : Peers :=
  { s with party := Function.update s.party x p }

/-- `create_stream` by the user code of one end. -/
def createStream (cmd : CommandType) (command : cmd.Value) (callback : Bool) (p : Party) : Party :=
  let (os, conn) :=
    if callback then p.conn.createStreamWith o cmd command p.registered.length
    else p.conn.createStream o cmd command
  { p with
    conn := conn
    registered := p.registered ++ [callback]
    streams := p.streams ++ [{ os := os, origin := .request p.registered.length }] }

/-- The body handler of one end is completed with a package. -/
def handle (junk : Nat → UInt8) (msg : Message) (p : Party) : Party :=
  let (conn, emitted, _) := p.conn.readPackageBodyHandler o junk msg.body .success msg.body.length
  let ran := emitted.filterMap Emission.stream
  { p with
    conn := conn
    incoming := p.incoming ++ ran.map fun r => (r.2, msg.origin)
    handled := p.handled ++ ran.map fun r => { origin := msg.origin, callback := r.1 } }

/-- One step. -/
def step (s : Peers) : PeersAct → Option Peers
  | .createStream x cmd command callback =>
    some (s.setParty x (createStream o cmd command callback (s.party x)))
  | .createResponse x j =>
    match (s.party x).incoming[j]? with
    | some (stream, origin) =>
      some (s.setParty x { s.party x with streams := (s.party x).streams ++
        [{ os := stream.createResponse o, origin := .response origin }] })
    | none => none
  | .write x i bs =>
    match (s.party x).streams[i]? with
    | some { os := os, origin := origin } =>
      some (s.setParty x { s.party x with
        streams := (s.party x).streams.set i { os := os.write bs, origin := origin } })
    | none => none
  | .send x i =>
    match (s.party x).streams[i]? with
    | some { os := os, origin := origin } =>
      let (os, buffer) := os.send
      let sent := s.setParty x { s.party x with
        streams := (s.party x).streams.set i { os := os, origin := origin } }
      match buffer with
      | some body => some { sent with
          inFlight := Function.update s.inFlight x.other
            (s.inFlight x.other ++ [{ body := body, origin := origin }]) }
      | none => some sent
    | none => none
  | .deliver x junk =>
    match s.inFlight x with
    | msg :: rest => some { s.setParty x (handle o junk msg (s.party x)) with
        inFlight := Function.update s.inFlight x rest }
    | [] => none

/-- Callbacks are invoked only with responses to the request they were registered for, and the requests
    of the other side are delivered through `received`. -/
def Correlated (s : Peers) : Prop :=
  ∀ x, ∀ e ∈ (s.party x).handled,
    (∀ n, e.callback = some n → e.origin = .response (.request n)) ∧
      ∀ m, e.origin = .request m → e.callback = none

/-- The `n`-th stream that `p` created is the last so far that registered a callback under its uid. -/
def LastRegistered (p : Party) (n : Nat) : Prop :=
  p.registered[n]? = some true ∧
    ∀ m, n < m → p.registered[m]? = some true → (Origin.request m).uid ≠ (Origin.request n).uid

/-- A package handled while a callback is pending under its uid is neither a request of the other side nor
    a response to a response, and it answers the last stream that registered a callback under this
    uid. -/
def AnswersPending (s : Peers) : PeersAct → Prop
  | .deliver x _ => ∀ msg rest, s.inFlight x = msg :: rest →
      (s.party x).conn.callbacks msg.origin.uid ≠ none →
      ∃ n, msg.origin = .response (.request n) ∧ LastRegistered (s.party x) n
  | _ => True

end Peers

end Lnetlib
