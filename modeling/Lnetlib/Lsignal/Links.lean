import Lnetlib.Lsignal.Model
import Lnetlib.Lib.Run

/-!
# Signals linked to signals

A program constructs signals, links them so that one calls another, unlinks them and destroys them in any
order. A link is recorded by the parent, as a pointer to the child, and by the child, as a closure that
captures the parent and that the child calls when it is destroyed.
-/

namespace Lnetlib.Lsignal

open Transition

/-- The objects of a program, and the calls `parent.connect(&child)` it has made. -/
structure Links (κ : Type) where
  heap : Heap κ
  linked : List (Nat × Nat)
  deriving DecidableEq, Repr

/-- What the program does. -/
inductive LinksAct where
  | newSignal
  /-- `signal::connect` of a signal. -/
  | connect (parent sg : Nat)
  /-- `signal::disconnect` of a signal. -/
  | disconnect (parent sg : Nat)
  | destroy (sg : Nat)
  deriving DecidableEq, Repr

namespace Links

variable {κ : Type}

/-- Before any signal is constructed. -/
def init (κ : Type) : Links κ := { heap := Heap.init κ, linked := [] }

/-- One step. -/
def step (s : Links κ) : LinksAct → Option (Links κ)
  | .newSignal => some { s with heap := s.heap.newSignal }
  | .connect parent sg =>
    (s.heap.connectSignal parent sg).map fun heap =>
      { heap := heap, linked := s.linked ++ [(parent, sg)] }
  | .disconnect parent sg =>
    (s.heap.disconnectSignal parent sg).map fun heap => { s with heap := heap }
  | .destroy sg => (s.heap.destroySignal sg).map fun heap => { s with heap := heap }

/-- A signal that exists points to signals that exist, from its list of signals and from its deleters, and
    its destructor uses no signal that has been destroyed. -/
def Valid (s : Links κ) : Prop :=
  ∀ sg signal, s.heap.signal? sg = some signal →
    (∀ child ∈ signal.signals, (s.heap.signal? child).isSome) ∧
    (∀ parent ∈ signal.deleters, (s.heap.signal? parent).isSome) ∧
    (s.heap.destroySignal sg).isSome

/-- A signal is destroyed only after every signal that was ever linked to it as a child, unlinked since or
    not. -/
def ChildrenFirst (s : Links κ) : LinksAct → Prop
  | .destroy sg => ∀ link ∈ s.linked, link.1 = sg → s.heap.signal? link.2 = none
  | _ => True

instance (s : Links κ) : ∀ a, Decidable (s.ChildrenFirst a)
  | .destroy sg =>
    inferInstanceAs (Decidable (∀ link ∈ s.linked, link.1 = sg → s.heap.signal? link.2 = none))
  | .newSignal | .connect _ _ | .disconnect _ _ => isTrue trivial

end Links

end Lnetlib.Lsignal
