import Lnetlib.Lsignal.Model
import Lnetlib.Lib.Run

/-!
# Subscriptions of callbacks without an owner

A program connects callbacks to signals, none of which it destroys, disconnects and locks them through the
handles it has been given, and emits. What an emission should invoke is read off the history of the
program: the callbacks connected to the signal, without those disconnected or locked.
-/

namespace Lnetlib.Lsignal

open Transition

/-- The objects of a program and the handles that `connect` has returned. -/
structure Subscriptions (κ : Type) where
  heap : Heap κ
  connections : List Connection
  deriving DecidableEq, Repr

/-- What the program does. A connection is given by its place among the handles returned; a copy of a handle
    is the same handle. -/
inductive SubscriptionAct (κ μ π : Type) where
  | newSignal
  /-- `signal::connect` of a function. -/
  | connect (sg : Nat) (fn : κ)
  /-- `signal::connect` of a function that is moved from. -/
  | connectMove (sg : Nat) (fn : κ)
  /-- `signal::connect` of a member function of an object. -/
  | connectMemFn (sg : Nat) (p : π) (fn : μ)
  /-- `connection::disconnect` -/
  | disconnect (i : Nat)
  /-- `signal::disconnect` of a connection. -/
  | disconnectConnection (sg i : Nat)
  /-- `connection::set_lock` -/
  | setLock (i : Nat) (lock : Bool)
  /-- `signal::set_lock` -/
  | setSignalLock (sg : Nat) (lock : Bool)
  /-- `signal::operator()` -/
  | emit (sg : Nat)
  deriving Repr

namespace SubscriptionAct

variable {κ μ π : Type} (bind : μ → π → κ)

/-- The signal and the callback that a call of `connect` is about. -/
def connects : SubscriptionAct κ μ π → Option (Nat × κ)
  | .connect sg fn => some (sg, fn)
  | .connectMove sg fn => some (sg, fn)
  | .connectMemFn sg p fn => some (sg, bind fn p)
  | _ => none

/-- Whether the call disconnects a connection of the signal, through the handle or through the signal. -/
def disconnects (sg i : Nat) : SubscriptionAct κ μ π → Bool
  | .disconnect j => j == i
  | .disconnectConnection sg' j => sg' == sg && j == i
  | _ => false

/-- The value that the call gives the lock of a connection. -/
def locks (i : Nat) : SubscriptionAct κ μ π → Option Bool
  | .setLock j lock => if j = i then some lock else none
  | _ => none

/-- The value that the call gives the lock of a signal. -/
def locksSignal (sg : Nat) : SubscriptionAct κ μ π → Option Bool
  | .setSignalLock sg' lock => if sg' = sg then some lock else none
  | _ => none

end SubscriptionAct

/-! ## What the history says -/

section

variable {κ μ π : Type} (bind : μ → π → κ) (as : List (SubscriptionAct κ μ π))

/-- The signals and callbacks connected so far; the `i`-th is the connection of the `i`-th handle. -/
def connected : List (Nat × κ) := as.filterMap (SubscriptionAct.connects bind)

/-- The connection `i` of the signal has been disconnected. -/
def disconnected (sg i : Nat) : Bool := as.any (SubscriptionAct.disconnects sg i)

/-- The lock that the connection was given last. -/
def locked (i : Nat) : Bool := (as.filterMap (SubscriptionAct.locks i)).getLast?.getD false

/-- The lock that the signal was given last. -/
def signalLocked (sg : Nat) : Bool := (as.filterMap (SubscriptionAct.locksSignal sg)).getLast?.getD false

/-- The connections of a signal that have not been disconnected, in the order in which they were made. -/
def registered (sg : Nat) : List ((Nat × κ) × Nat) :=
  (connected bind as).zipIdx.filter fun (r, i) => r.1 == sg && !disconnected as sg i

/-- The callbacks that an emission of the signal is to invoke. -/
def expected (sg : Nat) : List κ :=
  if signalLocked as sg then []
  else ((registered bind as sg).filter fun (_, i) => !locked as i).map fun (r, _) => r.2

end

namespace Subscriptions

variable {κ μ π : Type} (bind : μ → π → κ)

/-- Before any signal is constructed. -/
def init (κ : Type) : Subscriptions κ := { heap := Heap.init κ, connections := [] }

/-- The handle that `connect` returns is kept. -/
def keep (s : Subscriptions κ) : Connection × Heap κ → Subscriptions κ
  | (conn, heap) => { heap := heap, connections := s.connections ++ [conn] }

/-- One step. -/
def step (s : Subscriptions κ) : SubscriptionAct κ μ π → Option (Subscriptions κ)
  | .newSignal => some { s with heap := s.heap.newSignal }
  | .connect sg fn => (s.heap.connect sg fn none).map s.keep
  | .connectMove sg fn => (s.heap.connectMove sg fn none).map s.keep
  | .connectMemFn sg p fn => (s.heap.connectMemFn bind sg p fn none).map s.keep
  | .disconnect i =>
    s.connections[i]?.bind fun conn => (s.heap.disconnect conn).map fun heap => { s with heap := heap }
  | .disconnectConnection sg i =>
    s.connections[i]?.bind fun conn =>
      (s.heap.disconnectConnection sg conn).map fun heap => { s with heap := heap }
  | .setLock i lock =>
    s.connections[i]?.bind fun conn => (s.heap.setLock conn lock).map fun heap => { s with heap := heap }
  | .setSignalLock sg lock => (s.heap.setSignalLock sg lock).map fun heap => { s with heap := heap }
  | .emit sg => (s.heap.emission sg).map fun _ => s

/-- The signal that a disconnect goes to, and the connection it names. -/
def asks (s : Subscriptions κ) : SubscriptionAct κ μ π → Option (Nat × Nat)
  | .disconnect i => s.connections[i]?.bind fun conn => conn.deleter.map fun sg => (sg, i)
  | .disconnectConnection sg i => s.connections[i]?.map fun _ => (sg, i)
  | _ => none

end Subscriptions

end Lnetlib.Lsignal
