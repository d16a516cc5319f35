import Lnetlib.Connection.Delivery
import Lnetlib.Lib.Progress

/-!
# Everything that is sent arrives

Of the steps of a connection and its peer, those that neither user code nor an arriving call decides on:
threads lock and unlock `_mutex`, the socket writes and reads, handlers are invoked, and the slots and
callbacks of the peer return. `load` is what is left for them to do.
-/

namespace Lnetlib

open Bytes Transition

namespace Delivery

variable {κ : Type}

/-- The steps that are taken without user code; a socket writes and reads at least one byte at a time. -/
def Machine : DeliveryAct κ → Prop
  | .enter _ | .leave _ | .result _ | .complete _ _ | .readResult _ | .readHandler _ _ | .slotReturn => True
  | .transmit _ n _ | .receive _ n => 0 < n
  | .createStream _ _ _ _ | .write _ _ _ | .send _ _ | .destroy _ _ | .peerCreateStream _ _ _ => False

instance : ∀ a : DeliveryAct κ, Decidable (Machine a)
  | .enter _ | .leave _ | .result _ | .complete _ _ | .readResult _ | .readHandler _ _ | .slotReturn =>
    isTrue trivial
  | .transmit _ n _ | .receive _ n => inferInstanceAs (Decidable (0 < n))
  | .createStream _ _ _ _ | .write _ _ _ | .send _ _ | .destroy _ _ | .peerCreateStream _ _ _ =>
    isFalse id

/-- What a thread has still to do: every byte goes into the pipe, and comes out of it. -/
def threadLoad : Thread → Nat
  | .idle => 0
  | .dispatch pkg => 20 * pkg.bytes.length + 7
  | .writeHandler => 3
  | .unlock => 1

/-- What a write has still to do. -/
def writeLoad (progress : Nat → Nat) (op : WriteOp) : Nat :=
  20 * (op.pkg.bytes.length - progress op.pkg.ptr) + if op.result = none then 5 else 4

/-- What a read has still to do with the bytes it has. -/
def readLoad (op : ReadOp) : Nat :=
  match op.handler, op.result with
  | .readPackageSizeHandler, none => if op.buffer.length = op.exactly then 3 else 0
  | .readPackageSizeHandler, some _ => 2
  | .readPackageBodyHandler, none => if op.buffer.length = op.exactly then 6 else 1
  | .readPackageBodyHandler, some _ => 5

/-- What the sending side has still to do. -/
noncomputable def sendLoad (progress : Nat → Nat) (s : Sending κ) : Nat :=
  ∑ᶠ t, threadLoad (s.threads t) +
    (s.conn.packages.map fun pkg => 20 * pkg.bytes.length + 4).sum +
    (s.writes.map (writeLoad progress)).sum

/-- What is left to do. -/
noncomputable def load (s : Delivery κ) : Nat :=
  sendLoad s.progress s.sender + 10 * s.pipe.length + (s.peer.socket.reads.map readLoad).sum + 4 * s.slots

/-- The ostream was sent: `send()` was called, or it was destroyed. -/
def Sent (s : Delivery κ) (i : Nat) : Prop := ∃ st, s.streams i = some st ∧ st.os.sended = true

end Delivery

end Lnetlib
