import Lnetlib.Lsignal.Model

/-!
# Copying signals

The copy constructor and the assignment of `signal` share `copy_callbacks`, which appends the joints that
have no owner. A copied joint has the same `connection_data`, so a handle locks both; links to other signals
are not copied.
-/

namespace Lnetlib.Lsignal

/-- The joints that `signal::copy_callbacks` copies. -/
def ownerless {κ : Type} (callbacks : List (Joint κ)) : List (Joint κ) :=
  callbacks.filter fun jnt => jnt.owner.isNone

/-- `signal::copy_callbacks` -/
def Signal.copyCallbacks {κ : Type} (signal : Signal κ) (callbacks : List (Joint κ)) : Signal κ :=
  { signal with callbacks := signal.callbacks ++ ownerless callbacks }

namespace Heap

variable {κ : Type}

/-- `signal::signal(const signal&)`; the new signal is the last one. -/
def copySignal (h : Heap κ) (rhs : Nat) : Option (Nat × Heap κ) :=
  (h.signal? rhs).map fun signal =>
    let copy := { Signal.construct κ with locked := signal.locked }.copyCallbacks signal.callbacks
    (h.signals.length, { h with signals := h.signals ++ [some copy] })

/-- `signal::operator=`, which locks the mutexes of both signals. -/
def assign (h : Heap κ) (sg rhs : Nat) : Option (Heap κ) := do
  if sg = rhs then none
  let signal ← h.signal? sg
  let other ← h.signal? rhs
  return h.setSignal sg ({ signal with locked := other.locked }.copyCallbacks other.callbacks)

/-- The locks at some later time: the flags of all `connection_data`, and the last argument of `set_lock` of
    the signal if it has been called. -/
structure Locks where
  data : List Bool
  signal : Option Bool

/-- The callbacks that a later emission of a signal invokes from its own list. -/
def laterCalls (h : Heap κ) (sg : Nat) (locks : Locks) : List κ :=
  match h.signal? sg with
  | none => []
  | some signal =>
    if locks.signal.getD signal.locked then []
    else (signal.callbacks.filter fun jnt => !(locks.data[jnt.connection]?.getD false)).map (·.callback)

/-- An assignment is possible, and later emissions of the signal invoke from its own list what those of a
    signal that is copy-constructed from the other one invoke. -/
def AssignsAsCopy (h : Heap κ) (sg rhs : Nat) : Prop :=
  ∃ h' copy hc, h.assign sg rhs = some h' ∧ h.copySignal rhs = some (copy, hc) ∧
    ∀ locks, h'.laterCalls sg locks = hc.laterCalls copy locks

/-- Assigning twice is possible and the same as assigning once. -/
def AssignsOnce (h : Heap κ) (sg rhs : Nat) : Prop :=
  ∃ h' h'', h.assign sg rhs = some h' ∧ h'.assign sg rhs = some h'' ∧
    ∀ locks, h''.laterCalls sg locks = h'.laterCalls sg locks

/-- The law of assignment: it agrees with copying, is idempotent, and leaves the other signal, and all
    slots and connections, as they were. -/
def AssignLaw (h : Heap κ) (sg rhs : Nat) : Prop :=
  h.AssignsAsCopy sg rhs ∧ h.AssignsOnce sg rhs ∧
    ∃ h', h.assign sg rhs = some h' ∧ h'.signal? rhs = h.signal? rhs ∧ h'.slots = h.slots ∧
      h'.data = h.data

end Heap

end Lnetlib.Lsignal
