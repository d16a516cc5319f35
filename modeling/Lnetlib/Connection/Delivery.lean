import Lnetlib.Connection.Sending
import Lnetlib.Lib.Framing

/-!
# A connection and its peer

The sending side is the system of `Connection.Sending` with the ostreams of its threads on top; the other
side is the reader of its peer. Between them lies one direction of a TCP connection: what an
`async_write` has written stands in the pipe until a read takes it, in pieces of any size. Here no
operation fails and nobody calls `close()`.

Any thread may use any ostream as long as the ostream lives, one at a time, and its uid is arbitrary; a
response is such a stream as well. A stream buffer holds fewer than `2 ^ 64` characters. A package describes
the characters its buffer held when `send` handed it over, so what is written to the ostream afterwards is
not part of it. The ostream writes into that buffer all the same: where the write makes it reserve new
storage, the package describes storage that is freed, and after the write handler of the package has been
invoked the buffer itself is gone.
-/

namespace Lnetlib

open Bytes Transition

/-- An ostream of the sending side. -/
structure OutStream where
  os : Ostream
  /-- The characters written before the first `send`. -/
  written : List UInt8
  /-- Whether the destructor has not run. -/
  alive : Bool

/-- The two sides and what is on its way. -/
structure Delivery (κ : Type) where
  sender : Sending κ
  streams : Nat → Option OutStream
  nextStream : Nat
  /-- The ostream each package is made of. -/
  streamOf : Nat → Nat
  /-- The ostreams whose package describes storage that is freed. -/
  freed : Nat → Bool
  /-- How many bytes of each package have been written. -/
  progress : Nat → Nat
  pipe : List UInt8
  peer : Connection κ
  /-- The read handlers of the peer that run a slot or a callback. -/
  slots : Nat
  /-- The bodies the body handler of the peer was completed with. -/
  handled : List (List UInt8)

/-- The steps of the threads, of the socket and of the peer. -/
inductive DeliveryAct (κ : Type) where
  /-- Thread `t` creates an ostream. -/
  | createStream (t : Nat) (cmd : CommandType) (command : cmd.Value) (uid : UInt64)
  /-- Thread `t` writes to the `i`-th ostream. -/
  | write (t i : Nat) (bs : List UInt8)
  /-- Thread `t` calls `send()` of the `i`-th ostream. -/
  | send (t i : Nat)
  /-- Thread `t` destroys the `i`-th ostream. -/
  | destroy (t i : Nat)
  /-- Thread `t` locks `_mutex`, in the dispatch slot or in the write handler. -/
  | enter (t : Nat)
  /-- Thread `t` unlocks `_mutex`. -/
  | leave (t : Nat)
  /-- The next `n` bytes of the `i`-th write go into the pipe; `junk` is what freed storage holds. -/
  | transmit (i n : Nat) (junk : Nat → UInt8)
  /-- The `i`-th write, all of whose bytes are written, completes. -/
  | result (i : Nat)
  /-- Thread `t` invokes the handler of the `i`-th write. -/
  | complete (t i : Nat)
  /-- The `i`-th read of the peer takes the next `n` bytes. -/
  | receive (i n : Nat)
  /-- The `i`-th read of the peer, which has all its bytes, completes. -/
  | readResult (i : Nat)
  /-- The handler of the `i`-th read of the peer is invoked. -/
  | readHandler (i : Nat) (junk : Nat → UInt8)
  /-- A slot or callback of the peer returns. -/
  | slotReturn
  /-- User code of the peer calls `create_stream` with or without a callback. -/
  | peerCreateStream (cmd : CommandType) (command : cmd.Value) (cb : Option κ)

namespace Delivery

variable {κ : Type} (o : ByteOrder)

/-- Two connections just constructed over the two ends of a socket. -/
def init (κ : Type) : Delivery κ :=
  { sender := Sending.init κ
    streams := fun _ => none
    nextStream := 0
    streamOf := fun _ => 0
    freed := fun _ => false
    progress := fun _ => 0
    pipe := []
    peer := Connection.construct κ
    slots := 0
    handled := [] }

/-- The `i`-th ostream, if it lives and thread `t` can use it. -/
def usable (s : Delivery κ) (t i : Nat) : Option OutStream :=
  match s.sender.threads t, s.streams i with
  | .idle, some st => if st.alive then some st else none
  | _, _ => none

/-- The write handler of the package made of the `i`-th ostream was invoked. -/
def Written (s : Delivery κ) (i : Nat) : Prop := ∃ e ∈ s.sender.completed, s.streamOf e.1.ptr = i

instance (s : Delivery κ) (i : Nat) : Decidable (s.Written i) :=
  inferInstanceAs (Decidable (∃ e ∈ s.sender.completed, _))

/-- The storage that is freed once `bs` are written to the `i`-th ostream. A write to a buffer that is gone
    can do harm to any other. -/
def freedBy (s : Delivery κ) (i : Nat) (st : OutStream) (bs : List UInt8) : Nat → Bool :=
  if st.os.sended = false then s.freed
  else if s.Written i then fun _ => true
  else if st.os.outgrows bs then Function.update s.freed i true
  else s.freed

/-- A step of the sending connection. -/
def senderStep (s : Delivery κ) (a : SendAct) : Option (Delivery κ) :=
  (s.sender.step o a).map fun sender => { s with sender := sender }

/-- `send()` of the `i`-th ostream by thread `t`: the first time, the thread enters the dispatch slot. -/
def sendStream (s : Delivery κ) (t i : Nat) (st : OutStream) : Option (Delivery κ) :=
  match st.os.send with
  | (os, some buffer) =>
    ({ s with
        streams := Function.update s.streams i (some { st with os := os })
        streamOf := Function.update s.streamOf s.sender.next i }).senderStep o (.createPackage t buffer)
  | (os, none) => some { s with streams := Function.update s.streams i (some { st with os := os }) }

/-- Replace the reads of the peer. -/
def setReads (ops : List ReadOp) (s : Delivery κ) : Delivery κ :=
  { s with peer := { s.peer with socket := { s.peer.socket with reads := ops } } }

/-- The handler of a read of the peer, up to the slot or callback it runs. -/
def readHandler (s : Delivery κ) (op : ReadOp) (err : ErrorCode) (junk : Nat → UInt8) : Delivery κ :=
  match op.handler with
  | .readPackageSizeHandler =>
    { s with peer := (s.peer.readPackageSizeHandler o op.buffer err op.buffer.length).1 }
  | .readPackageBodyHandler =>
    let (peer, _, goesOn) := s.peer.readPackageBodyHandler o junk op.buffer err op.buffer.length
    { s with
      peer := peer
      slots := if goesOn then s.slots + 1 else s.slots
      handled := s.handled ++ [op.buffer] }

/-- One step. -/
def step (s : Delivery κ) : DeliveryAct κ → Option (Delivery κ)
  | .createStream t cmd command uid =>
    if s.sender.threads t = .idle then
      let os := Ostream.construct o cmd command uid
      some { s with
        streams := Function.update s.streams s.nextStream
          (some { os := os, written := os.buffer, alive := true })
        nextStream := s.nextStream + 1 }
    else none
  | .write t i bs =>
    match s.usable t i with
    | some st =>
      if st.os.buffer.length + bs.length < 2 ^ 64 then
        some { s with
          streams := Function.update s.streams i (some { st with
            os := st.os.write bs
            written := if st.os.sended then st.written else st.written ++ bs })
          freed := s.freedBy i st bs }
      else none
    | none => none
  | .send t i => (s.usable t i).bind fun st => s.sendStream o t i st
  | .destroy t i => (s.usable t i).bind fun st => s.sendStream o t i { st with alive := false }
  | .enter t => s.senderStep o (.enter t)
  | .leave t => s.senderStep o (.leave t)
  | .transmit i n junk =>
    match s.sender.writes[i]? with
    | some { pkg := pkg, result := none } =>
      if s.progress pkg.ptr + n ≤ pkg.bytes.length then
        some { s with
          progress := Function.update s.progress pkg.ptr (s.progress pkg.ptr + n)
          pipe := s.pipe ++
            ((pkg.bytesIn (s.freed (s.streamOf pkg.ptr)) junk).drop (s.progress pkg.ptr)).take n }
      else none
    | _ => none
  | .result i =>
    match s.sender.writes[i]? with
    | some op =>
      if s.progress op.pkg.ptr = op.pkg.bytes.length then s.senderStep o (.result i .success)
      else none
    | none => none
  | .complete t i => s.senderStep o (.complete t i)
  | .receive i n =>
    match s.peer.socket.reads[i]? with
    | some { handler := handler, exactly := exactly, buffer := buffer, result := none } =>
      if n ≤ s.pipe.length ∧ buffer.length + n ≤ exactly then
        some { s.setReads (s.peer.socket.reads.set i
            { handler := handler, exactly := exactly, buffer := buffer ++ s.pipe.take n, result := none })
          with pipe := s.pipe.drop n }
      else none
    | _ => none
  | .readResult i =>
    match s.peer.socket.reads[i]? with
    | some { handler := handler, exactly := exactly, buffer := buffer, result := none } =>
      if buffer.length = exactly then
        some (s.setReads (s.peer.socket.reads.set i
          { handler := handler, exactly := exactly, buffer := buffer, result := some .success }))
      else none
    | _ => none
  | .readHandler i junk =>
    match s.peer.socket.reads[i]? with
    | some { handler := handler, exactly := exactly, buffer := buffer, result := some err } =>
      some ((s.setReads (s.peer.socket.reads.eraseIdx i)).readHandler o
        { handler := handler, exactly := exactly, buffer := buffer, result := some err } err junk)
    | _ => none
  | .slotReturn =>
    if 0 < s.slots then some { s with slots := s.slots - 1, peer := s.peer.waitPackage } else none
  | .peerCreateStream cmd command cb =>
    match cb with
    | some cb => some { s with peer := (s.peer.createStreamWith o cmd command cb).2 }
    | none => some { s with peer := (s.peer.createStream o cmd command).2 }

/-- The bodies in the order in which the dispatch slot locked `_mutex`. -/
def accepted (s : Delivery κ) : List (List UInt8) := s.sender.accepted.map Package.dataBuffer

/-- The `i`-th ostream was sent, and no thread has still to lock `_mutex` with its package. -/
def Dispatched (s : Delivery κ) (i : Nat) : Prop :=
  (∃ st, s.streams i = some st ∧ st.os.sended = true) ∧
    ∀ t pkg, s.sender.threads t = .dispatch pkg → s.streamOf pkg.ptr ≠ i

/-- The characters written to the `i`-th ostream before its first `send`. -/
def writtenTo (s : Delivery κ) (i : Nat) : List UInt8 := (s.streams i).elim [] OutStream.written

/-- No write is outstanding and no write handler has still to lock `_mutex`. -/
def NoWriteOutstanding (s : Delivery κ) : Prop :=
  s.sender.writes = [] ∧ ∀ t, s.sender.threads t ≠ .writeHandler

/-- The peer has consumed all bytes: none is in the pipe, and no read has all its bytes and waits for its
    handler. -/
def Consumed (s : Delivery κ) : Prop :=
  s.pipe = [] ∧ ∀ op ∈ s.peer.socket.reads, op.buffer.length < op.exactly

/-- **FIFO delivery.** What the peer has handled is a prefix of the bodies in the order in which the dispatch
    slot locked `_mutex`, and all of them once no write is outstanding and the peer has consumed all bytes.
    These bodies are what was written to the ostreams dispatched before their first `send`, each ostream
    contributing once, and an ostream that is destroyed was sent. -/
structure Delivers (s : Delivery κ) : Prop where
  inOrder : s.handled <+: s.accepted
  complete : s.NoWriteOutstanding → s.Consumed → s.handled = s.accepted
  once : ∃ ids : List Nat, ids.Nodup ∧ s.accepted = ids.map s.writtenTo ∧ ∀ i, i ∈ ids ↔ s.Dispatched i
  destroyed : ∀ i st, s.streams i = some st → st.alive = false → st.os.sended = true

/-- What is written to an ostream after its first `send` fits into the storage that its package describes,
    and comes before the write handler of the package is invoked. -/
def KeepsStorage (s : Delivery κ) : DeliveryAct κ → Prop
  | .write _ i bs => ∀ st ∈ s.streams i, st.os.sended = true → ¬ s.Written i ∧ st.os.outgrows bs = false
  | _ => True

instance (s : Delivery κ) : ∀ a, Decidable (s.KeepsStorage a)
  | .write _ i bs => inferInstanceAs (Decidable (∀ st ∈ s.streams i,
      st.os.sended = true → ¬ s.Written i ∧ st.os.outgrows bs = false))
  | .createStream _ _ _ _ | .send _ _ | .destroy _ _ | .enter _ | .leave _ | .transmit _ _ _ | .result _
  | .complete _ _ | .receive _ _ | .readResult _ | .readHandler _ _ | .slotReturn
  | .peerCreateStream _ _ _ => isTrue trivial

end Delivery

end Lnetlib
