import Lnetlib.Connection.Reading

/-!
# The table of response callbacks

A connection with the history of what matters to its table of callbacks: the streams it has created and the
packages its body handler was given. What should be pending is read off the history; the peer may send any
uids, and user code may create streams at any time, in the middle of a callback as well. `create_stream` and
the body handler use the table without a lock, and are taken as steps that do not overlap.
-/

namespace Lnetlib

open Bytes Transition

/-- What happens to the table. -/
inductive CallbackEvent (κ : Type) where
  /-- A stream was created, with or without a callback for the response. -/
  | created (uid : UInt64) (cb : Option κ)
  /-- The body handler was given a package, and it has emitted. -/
  | arrived (body : List UInt8) (emitted : List (Emission κ))

/-- A connection and its history. -/
structure Callbacks (κ : Type) where
  reading : Reading κ
  history : List (CallbackEvent κ)

/-- The uid in the header of a package. -/
def packageUid (o : ByteOrder) (body : List UInt8) : UInt64 :=
  valueOf o UInt64 ((body.drop (sizeof UInt64)).take (sizeof UInt64))

namespace Callbacks

variable {κ : Type} (o : ByteOrder)

/-- A connection just constructed. -/
def init (κ : Type) : Callbacks κ := { reading := Reading.init κ, history := [] }

/-- What a step of the connection adds to the history. -/
def events (s : Reading κ) : ReadingAct κ → List (CallbackEvent κ)
  | .createStream cmd command (some cb) =>
    [.created (s.conn.createStreamWith o cmd command cb).1.uid (some cb)]
  | .createStream cmd command none => [.created (s.conn.createStream o cmd command).1.uid none]
  | .advance k junk =>
    match s.handlers[k]? with
    | some (.entered op err) =>
      if op.handler = .readPackageBodyHandler ∧ err.isError = false then
        [.arrived op.buffer (s.conn.readHandler o junk op err).2.1]
      else []
    | _ => []
  | _ => []

/-- One step. -/
def step (s : Callbacks κ) (a : ReadingAct κ) : Option (Callbacks κ) :=
  (s.reading.step o a).map fun reading =>
    { reading := reading, history := s.history ++ events o s.reading a }

/-! ## What the history says -/

/-- The uids of the streams created, in order. -/
def createdUids (h : List (CallbackEvent κ)) : List UInt64 :=
  h.filterMap fun
    | .created uid _ => some uid
    | .arrived _ _ => none

/-- The uids of the packages that were given to callbacks, in order. -/
def invokedUids (h : List (CallbackEvent κ)) : List UInt64 :=
  h.filterMap fun
    | .arrived body [.callback _ _] => some (packageUid o body)
    | _ => none

/-- The event is the arrival of a package with the uid. -/
def ArrivalOf (uid : UInt64) : CallbackEvent κ → Prop
  | .arrived body _ => packageUid o body = uid
  | .created _ _ => False

/-- The callback was registered under the uid, and no package with the uid has arrived since. -/
def Pending (h : List (CallbackEvent κ)) (uid : UInt64) (cb : κ) : Prop :=
  ∃ pre post, h = pre ++ .created uid (some cb) :: post ∧ ∀ e ∈ post, ¬ ArrivalOf o uid e

/-- A package that arrives after the history `h` is given, as a stream with its uid, to the callback pending
    under the uid, or to `received` if there is none. -/
def Delivered (h : List (CallbackEvent κ)) (body : List UInt8) (emitted : List (Emission κ)) : Prop :=
  ∃ stream : Istream, stream.uid = packageUid o body ∧
    ((∃ cb, emitted = [.callback cb stream] ∧ Pending o h stream.uid cb) ∨
      (emitted = [.received stream] ∧ ∀ cb, ¬ Pending o h stream.uid cb))

end Callbacks

end Lnetlib
