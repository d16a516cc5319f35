import Lnetlib.Connection.Sending
import Lnetlib.Connection.Reading

/-!
# A connection and its peer when things fail

The threads that send on one end (`Sending`), the read loop of the other end (`Reading`), and the socket
between them. Any write and any read may fail, either end may close the connection at any time, and the two
hosts need not have the same byte order.
-/

namespace Lnetlib

open Bytes Transition

/-- The two ends. -/
structure Transfer (κ : Type) where
  sender : Sending κ
  /-- Of each package, by its identity, how many bytes are written. -/
  progress : Nat → Nat
  receiver : Reading κ

/-- What happens. -/
inductive TransferAct (κ : Type) where
  | send (a : SendAct)
  /-- The next `n` bytes of the `i`-th write reach the other end. -/
  | transmit (i n : Nat)
  | receive (a : ReadingAct κ)

namespace Transfer

variable {κ : Type} (oₛ oᵣ : ByteOrder)

/-- Two connections just constructed. -/
def init (κ : Type) : Transfer κ :=
  { sender := Sending.init κ, progress := fun _ => 0, receiver := Reading.init κ }

/-- A write succeeds when all its bytes are written, and a `streambuf` has fewer than `2 ^ 64` characters. -/
def Allows (s : Transfer κ) : SendAct → Prop
  | .createPackage _ buffer => buffer.length < 2 ^ 64
  | .result i err =>
    err.isError = true ∨ ∀ op ∈ s.sender.writes[i]?, s.progress op.pkg.ptr = op.pkg.bytes.length
  | .enter _ | .leave _ | .complete _ _ | .close _ => True

instance (s : Transfer κ) : ∀ a, Decidable (s.Allows a)
  | .createPackage _ buffer => inferInstanceAs (Decidable (buffer.length < 2 ^ 64))
  | .result i err => inferInstanceAs (Decidable
      (err.isError = true ∨ ∀ op ∈ s.sender.writes[i]?, s.progress op.pkg.ptr = op.pkg.bytes.length))
  | .enter _ | .leave _ | .complete _ _ | .close _ => isTrue trivial

/-- One step. -/
def step (s : Transfer κ) : TransferAct κ → Option (Transfer κ)
  | .send a =>
    if s.Allows a then (s.sender.step oₛ a).map fun sender => { s with sender := sender } else none
  | .transmit i n =>
    match s.sender.writes[i]? with
    | some { pkg := pkg, result := none } =>
      if s.progress pkg.ptr + n ≤ pkg.bytes.length then
        (s.receiver.step oᵣ (.peerSend ((pkg.bytes.drop (s.progress pkg.ptr)).take n))).map fun receiver =>
          { s with
            progress := Function.update s.progress pkg.ptr (s.progress pkg.ptr + n)
            receiver := receiver }
      else none
    | _ => none
  -- the bytes that arrive are those of the other end
  | .receive (.peerSend _) => none
  | .receive a => (s.receiver.step oᵣ a).map fun receiver => { s with receiver := receiver }

/-- The packages that are written in full. -/
def written (s : Transfer κ) : List Package :=
  s.sender.accepted.filter fun p => s.progress p.ptr = p.bytes.length

/-- The bodies that are written in full. -/
def bodies (s : Transfer κ) : List (List UInt8) := s.written.map Package.dataBuffer

/-- Every stream has a body, only the sending end closes the connection, a read does not fail before that
    and has the bytes that came before the end, and no exception leaves a slot or callback. -/
def Orderly (s : Transfer κ) : TransferAct κ → Prop
  | .send (.createPackage _ buffer) => buffer ≠ []
  | .receive (.readFail _ n _) =>
    s.sender.conn.socket.isOpen = false ∧ n = s.receiver.pipe.length
  | .receive (.slotThrow k) => ∀ f ∈ s.receiver.handlers[k]?, f.isInSlot = false
  | .receive (.close _) => False
  | _ => True

instance (s : Transfer κ) : ∀ a, Decidable (s.Orderly a)
  | .send (.createPackage _ buffer) => inferInstanceAs (Decidable (buffer ≠ []))
  | .receive (.readFail _ n _) => inferInstanceAs (Decidable
      (s.sender.conn.socket.isOpen = false ∧ n = s.receiver.pipe.length))
  | .receive (.slotThrow k) =>
    inferInstanceAs (Decidable (∀ f ∈ s.receiver.handlers[k]?, f.isInSlot = false))
  | .receive (.close _) => isFalse id
  | .send (.enter _) | .send (.leave _) | .send (.result _ _) | .send (.complete _ _) | .send (.close _)
  | .transmit _ _ | .receive (.peerSend _) | .receive (.readResult _) | .receive (.invoke _)
  | .receive (.advance _ _) | .receive (.slotReturn _) | .receive (.writeResult _ _)
  | .receive (.writeHandler _) | .receive (.dispatch _) | .receive (.createStream _ _ _) => isTrue trivial

end Transfer

end Lnetlib
