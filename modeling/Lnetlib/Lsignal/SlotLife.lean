import Lnetlib.Lsignal.Model
import Lnetlib.Lib.Run

/-!
# Slots as owners of connections

The runs of a program that constructs and destroys signals and slots, connects callbacks with a slot as
their owner, and disconnects them in any of the ways there are. A slot may own several connections; the
handles returned may be used at any time while their signal exists.
-/

namespace Lnetlib.Lsignal

open Transition

/-- The objects of a program and the handles that `connect` has returned. -/
structure SlotLife (κ : Type) where
  heap : Heap κ
  connections : List Connection
  deriving DecidableEq, Repr

/-- What the program does. A connection is given by its place among the handles returned. -/
inductive SlotLifeAct (κ : Type) where
  | newSignal
  | newSlot
  | connect (sg : Nat) (fn : κ) (owner : Option Nat)
  /-- `connection::disconnect` -/
  | disconnect (i : Nat)
  /-- `slot::disconnect` -/
  | slotDisconnect (owner : Nat)
  /-- `signal::disconnect` of a connection. -/
  | disconnectConnection (sg i : Nat)
  /-- `signal::disconnect` of a slot, or of a null pointer. -/
  | disconnectSlot (sg : Nat) (owner : Option Nat)
  | disconnectAll (sg : Nat)
  | destroySignal (sg : Nat)
  | destroySlot (owner : Nat)
  deriving Repr

/-- The connections of all signals whose joint names the slot as its owner, each with its signal. -/
def Heap.ownedBy {κ : Type} (h : Heap κ) (owner : Nat) : List (Nat × Nat) :=
  (List.range h.signals.length).flatMap fun sg =>
    ((h.callbacks sg).filter fun jnt => jnt.owner == some owner).map fun jnt => (sg, jnt.connection)

namespace SlotLife

variable {κ : Type}

/-- Before any object is constructed. -/
def init (κ : Type) : SlotLife κ := { heap := Heap.init κ, connections := [] }

/-- One step. -/
def step (s : SlotLife κ) : SlotLifeAct κ → Option (SlotLife κ)
  | .newSignal => some { s with heap := s.heap.newSignal }
  | .newSlot => some { s with heap := s.heap.newSlot }
  | .connect sg fn owner =>
    (s.heap.connect sg fn owner).map fun (conn, heap) =>
      { heap := heap, connections := s.connections ++ [conn] }
  | .disconnect i =>
    s.connections[i]?.bind fun conn => (s.heap.disconnect conn).map fun heap => { s with heap := heap }
  | .slotDisconnect owner => (s.heap.slotDisconnect owner).map fun heap => { s with heap := heap }
  | .disconnectConnection sg i =>
    s.connections[i]?.bind fun conn =>
      (s.heap.disconnectConnection sg conn).map fun heap => { s with heap := heap }
  | .disconnectSlot sg owner => (s.heap.disconnectSlot sg owner).map fun heap => { s with heap := heap }
  | .disconnectAll sg => (s.heap.disconnectAll sg).map fun heap => { s with heap := heap }
  | .destroySignal sg => (s.heap.destroySignal sg).map fun heap => { s with heap := heap }
  | .destroySlot owner => (s.heap.destroySlot owner).map fun heap => { s with heap := heap }

/-- No joint of a signal that exists names a destroyed slot as its owner, and no emission of such a signal
    invokes a callback that was connected with it. -/
def Safe (s : SlotLife κ) : Prop :=
  ∀ owner, s.heap.SlotDestroyed owner → ∀ sg signal, s.heap.signal? sg = some signal →
    (∀ jnt ∈ signal.callbacks, jnt.owner ≠ some owner) ∧
    ∃ calls, s.heap.emission sg = some calls ∧ ∀ jnt ∈ calls.invoked, jnt.owner ≠ some owner

/-- A slot is destroyed only when each connection that it still owns is the one in its `_data`, of the
    signal in its `_deleter`. -/
def Remembers (s : SlotLife κ) : SlotLifeAct κ → Prop
  | .destroySlot owner =>
    ∀ p ∈ s.heap.ownedBy owner, s.heap.slot? owner = some (Heap.prepareConnection p.1 p.2)
  | _ => True

instance (s : SlotLife κ) : ∀ a, Decidable (s.Remembers a)
  | .destroySlot owner =>
    inferInstanceAs (Decidable (∀ p ∈ s.heap.ownedBy owner,
      s.heap.slot? owner = some (Heap.prepareConnection p.1 p.2)))
  | .newSignal | .newSlot | .connect _ _ _ | .disconnect _ | .slotDisconnect _
  | .disconnectConnection _ _ | .disconnectSlot _ _ | .disconnectAll _ | .destroySignal _ => isTrue trivial

end SlotLife

end Lnetlib.Lsignal
