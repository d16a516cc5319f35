import Lnetlib.Lsignal.Model

/-!
# Removing all connections of a signal

`disconnect_all` and one `disconnect` for each connection, compared by what a program can see of them
later on: the callbacks that its emissions invoke, the results they return, and whether an operation is
possible at all.
-/

namespace Lnetlib.Lsignal

/-- What a program does with its signals, slots and connections. -/
inductive HeapAct (κ : Type) where
  | newSignal
  | newSlot
  | connect (sg : Nat) (fn : κ) (owner : Option Nat)
  /-- `connection::disconnect` -/
  | disconnect (conn : Connection)
  /-- `signal::disconnect` of a connection. -/
  | disconnectConnection (sg : Nat) (conn : Connection)
  /-- `signal::disconnect` of a slot. -/
  | disconnectSlot (sg : Nat) (owner : Option Nat)
  | disconnectAll (sg : Nat)
  /-- `connection::set_lock` -/
  | setLock (conn : Connection) (lock : Bool)
  /-- `signal::set_lock` -/
  | setSignalLock (sg : Nat) (lock : Bool)
  | connectSignal (parent sg : Nat)
  | disconnectSignal (parent sg : Nat)
  | destroySignal (sg : Nat)
  | destroySlot (owner : Nat)
  | emit (sg : Nat)
  /-- An emission with an aggregator. -/
  | aggregate (sg : Nat)
  deriving Repr

/-- What is seen of an operation. -/
inductive Seen (κ : Type) where
  | done
  /-- The callbacks that an emission invoked and the one whose result it returned. -/
  | emitted (invoked : List κ) (result : Option κ)
  /-- The callbacks that an emission invoked and those whose results the aggregator was given. -/
  | aggregated (invoked results : List κ)
  /-- The operation used a destroyed object or locked a mutex twice. -/
  | undefined
  deriving DecidableEq, Repr

namespace Heap

variable {κ : Type}

/-- One operation, with what is seen of it. -/
def act (h : Heap κ) : HeapAct κ → Option (Heap κ × Seen κ)
  | .newSignal => some (h.newSignal, .done)
  | .newSlot => some (h.newSlot, .done)
  | .connect sg fn owner => (h.connect sg fn owner).map fun (_, h) => (h, .done)
  | .disconnect conn => (h.disconnect conn).map fun h => (h, .done)
  | .disconnectConnection sg conn => (h.disconnectConnection sg conn).map fun h => (h, .done)
  | .disconnectSlot sg owner => (h.disconnectSlot sg owner).map fun h => (h, .done)
  | .disconnectAll sg => (h.disconnectAll sg).map fun h => (h, .done)
  | .setLock conn lock => (h.setLock conn lock).map fun h => (h, .done)
  | .setSignalLock sg lock => (h.setSignalLock sg lock).map fun h => (h, .done)
  | .connectSignal parent sg => (h.connectSignal parent sg).map fun h => (h, .done)
  | .disconnectSignal parent sg => (h.disconnectSignal parent sg).map fun h => (h, .done)
  | .destroySignal sg => (h.destroySignal sg).map fun h => (h, .done)
  | .destroySlot owner => (h.destroySlot owner).map fun h => (h, .done)
  | .emit sg => (h.emission sg).map fun calls =>
    (h, .emitted (calls.invoked.map (·.callback)) (calls.result.map (·.callback)))
  | .aggregate sg => (h.aggregate sg).map fun (invoked, results) =>
    (h, .aggregated (invoked.map (·.callback)) (results.map (·.callback)))

/-- What is seen of a sequence of operations, up to the first that is undefined. -/
def observe (h : Heap κ) : List (HeapAct κ) → List (Seen κ)
  | [] => []
  | a :: as =>
    match h.act a with
    | none => [.undefined]
    | some (h', seen) => seen :: h'.observe as

/-- `signal::disconnect(connection)` for each of the connections, in the order given. -/
def disconnectEach (h : Heap κ) (sg : Nat) (connections : List Nat) : Option (Heap κ) :=
  connections.foldlM (fun h connection => h.disconnectConnection sg (prepareConnection sg connection)) h

/-- `disconnect_all` does the same to the owner slots as disconnecting the connections one by one in any
    order, and no operations after it see a difference. -/
def SameAsEach (h : Heap κ) (sg : Nat) : Prop :=
  ∀ connections, List.Perm ((h.callbacks sg).map (·.connection)) connections →
    ∃ all each, h.disconnectAll sg = some all ∧ h.disconnectEach sg connections = some each ∧
      all.slots = each.slots ∧ ∀ as, all.observe as = each.observe as

end Heap

end Lnetlib.Lsignal
