import Lnetlib.Lsignal.Model
import Mathlib.Logic.Relation

/-!
# Emissions over linked signals

A signal calls the signals linked to it before its own callbacks, each under its own mutex while the
mutexes of those above it are held. What an emission invokes is defined over the graph of links first,
without fuel and mutexes.
-/

namespace Lnetlib.Lsignal.Heap

variable {κ : Type}

/-- The signal `child` is in `_signals` of `parent`. -/
def Linked (h : Heap κ) (parent child : Nat) : Prop :=
  ∃ signal, h.signal? parent = some signal ∧ child ∈ signal.signals

/-- The links form a graph of existing signals without a cycle. -/
structure AcyclicLinks (h : Heap κ) : Prop where
  live : ∀ parent child, h.Linked parent child → ∃ signal, h.signal? child = some signal
  acyclic : ∀ sg, ¬ Relation.TransGen h.Linked sg sg

/-- The callbacks of a signal whose connection is not locked, in the order in which they were
    connected. -/
def unlocked (h : Heap κ) (signal : Signal κ) : List (Joint κ) :=
  signal.callbacks.filter fun jnt => !h.isLocked jnt.connection

/-- What an emission of a signal invokes: nothing if the signal is locked, otherwise what the linked signals
    invoke, one after the other in the order of the links, and then its own callbacks. -/
inductive Trace (h : Heap κ) : Nat → List (Joint κ) → Prop where
  | locked {sg : Nat} {signal : Signal κ} (hsig : h.signal? sg = some signal)
      (hl : signal.locked = true) : Trace h sg []
  | calls {sg : Nat} {signal : Signal κ} (hsig : h.signal? sg = some signal)
      (hl : signal.locked = false) (below : Nat → List (Joint κ))
      (hbelow : ∀ child ∈ signal.signals, Trace h child (below child)) :
      Trace h sg (signal.signals.flatMap below ++ h.unlocked signal)

/-- The results that the aggregator of an emission is given: those of the signal's own callbacks. -/
def results (h : Heap κ) (signal : Signal κ) : List (Joint κ) :=
  if signal.locked then [] else h.unlocked signal

end Lnetlib.Lsignal.Heap
