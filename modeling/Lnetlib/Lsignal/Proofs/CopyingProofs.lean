import Lnetlib.Lsignal.Copying
import Lnetlib.Lsignal.Proofs.HeapProofs

/-!
# Proofs: copying signals

An assignment appends to the list of the signal, so it agrees with the copy constructor only where that list
is empty, and a second assignment appends the same callbacks once more.
-/

namespace Lnetlib.Lsignal.Heap

variable {κ : Type} {h h' : Heap κ} {sg rhs : Nat} {signal other : Signal κ}

/-- A signal is not assigned to itself: its mutex would be locked twice. -/
theorem ne_of_assign (ha : h.assign sg rhs = some h') : sg ≠ rhs := by
  rintro rfl
  have hself : h.assign sg sg = none := if_pos rfl
  rw [hself] at ha
  cases ha

/-- An assignment from another signal. -/
theorem assign_eq (hne : sg ≠ rhs) (hsig : h.signal? sg = some signal)
    (hother : h.signal? rhs = some other) :
    h.assign sg rhs = some (h.setSignal sg
      { signal with locked := other.locked, callbacks := signal.callbacks ++ ownerless other.callbacks }) := by
  unfold assign
  rw [if_neg hne]
  simp [hsig, hother, Signal.copyCallbacks]

theorem laterCalls_eq (hsig : h.signal? sg = some signal) (locks : Locks) :
    h.laterCalls sg locks = if locks.signal.getD signal.locked then []
      else (signal.callbacks.filter fun jnt => !(locks.data[jnt.connection]?.getD false)).map
        (·.callback) := by
  simp [laterCalls, hsig]

/-- With no lock left, all callbacks of a signal are invoked. -/
theorem laterCalls_unlocked (hsig : h.signal? sg = some signal) :
    h.laterCalls sg ⟨[], some false⟩ = signal.callbacks.map (·.callback) := by
  rw [laterCalls_eq hsig]
  simp

/-- Signals whose later emissions invoke the same have equally many joints. -/
theorem length_eq_of_laterCalls {h₁ h₂ : Heap κ} {sg₁ sg₂ : Nat} {signal₁ signal₂ : Signal κ}
    (hsig₁ : h₁.signal? sg₁ = some signal₁) (hsig₂ : h₂.signal? sg₂ = some signal₂)
    (hsame : ∀ locks, h₁.laterCalls sg₁ locks = h₂.laterCalls sg₂ locks) :
    signal₁.callbacks.length = signal₂.callbacks.length := by
  have hlater := hsame ⟨[], some false⟩
  rw [laterCalls_unlocked hsig₁, laterCalls_unlocked hsig₂] at hlater
  have hlen := congrArg List.length hlater
  rwa [List.length_map, List.length_map] at hlen

/-- Two signals with the same lock and joints. -/
theorem laterCalls_congr {h₁ h₂ : Heap κ} {sg₁ sg₂ : Nat} {signal₁ signal₂ : Signal κ}
    (hsig₁ : h₁.signal? sg₁ = some signal₁) (hsig₂ : h₂.signal? sg₂ = some signal₂)
    (hlocked : signal₁.locked = signal₂.locked) (hcallbacks : signal₁.callbacks = signal₂.callbacks)
    (locks : Locks) : h₁.laterCalls sg₁ locks = h₂.laterCalls sg₂ locks := by
  rw [laterCalls_eq hsig₁, laterCalls_eq hsig₂, hlocked, hcallbacks]

/-- The signal that the copy constructor makes. -/
theorem copySignal_eq (hother : h.signal? rhs = some other) :
    ∃ copy hc, h.copySignal rhs = some (copy, hc) ∧ hc.signal? copy = some
      { Signal.construct κ with locked := other.locked, callbacks := ownerless other.callbacks } := by
  refine ⟨_, _, by rw [copySignal, hother]; rfl, ?_⟩
  simp [signal?, Signal.copyCallbacks, Signal.construct]

/-- The signal after an assignment. -/
theorem signal?_assign (hne : sg ≠ rhs) (hsig : h.signal? sg = some signal)
    (hother : h.signal? rhs = some other) (ha : h.assign sg rhs = some h') :
    h'.signal? sg = some { signal with locked := other.locked
                                       callbacks := signal.callbacks ++ ownerless other.callbacks } ∧
      h'.signal? rhs = some other ∧ h'.slots = h.slots ∧ h'.data = h.data := by
  rw [assign_eq hne hsig hother] at ha
  obtain rfl := Option.some.inj ha
  refine ⟨?_, ?_, rfl, rfl⟩
  · rw [signal?_setSignal hsig, if_pos rfl]
  · rw [signal?_setSignal hsig, if_neg hne.symm, hother]

/-- An assignment agrees with the copy constructor if the signal had no joints. -/
theorem assignsAsCopy_iff (hsig : h.signal? sg = some signal) (hother : h.signal? rhs = some other) :
    h.AssignsAsCopy sg rhs ↔ sg ≠ rhs ∧ signal.callbacks = [] := by
  obtain ⟨copy, hc, hcopy, hsigc⟩ := copySignal_eq hother
  constructor
  · rintro ⟨h', copy', hc', ha, hcopy', hsame⟩
    obtain ⟨rfl, rfl⟩ := Prod.mk.inj (Option.some.inj (hcopy.symm.trans hcopy'))
    have hne := ne_of_assign ha
    have hlen := length_eq_of_laterCalls (signal?_assign hne hsig hother ha).1 hsigc hsame
    simp only [List.length_append] at hlen
    exact ⟨hne, List.eq_nil_of_length_eq_zero (by omega)⟩
  · rintro ⟨hne, hnil⟩
    have ha := assign_eq hne hsig hother
    refine ⟨_, copy, hc, ha, hcopy, ?_⟩
    apply laterCalls_congr (signal?_assign hne hsig hother ha).1 hsigc rfl
    rw [hnil]
    rfl

/-- A second assignment changes nothing if there is nothing to copy. -/
theorem assignsOnce_iff (hsig : h.signal? sg = some signal) (hother : h.signal? rhs = some other) :
    h.AssignsOnce sg rhs ↔ sg ≠ rhs ∧ ownerless other.callbacks = [] := by
  constructor
  · rintro ⟨h', h'', ha, ha', hsame⟩
    have hne := ne_of_assign ha
    obtain ⟨hsig', hother', -, -⟩ := signal?_assign hne hsig hother ha
    have hlen := length_eq_of_laterCalls (signal?_assign hne hsig' hother' ha').1 hsig' hsame
    simp only [List.length_append] at hlen
    exact ⟨hne, List.eq_nil_of_length_eq_zero (by omega)⟩
  · rintro ⟨hne, hnil⟩
    have ha := assign_eq hne hsig hother
    obtain ⟨hsig', hother', -, -⟩ := signal?_assign hne hsig hother ha
    have ha' := assign_eq hne hsig' hother'
    refine ⟨_, _, ha, ha', ?_⟩
    apply laterCalls_congr (signal?_assign hne hsig' hother' ha').1 hsig' rfl
    rw [hnil, List.append_nil]

/-- **Assignment.** It agrees with the copy constructor and is idempotent exactly if it is not the assignment of a
    signal to itself, the signal assigned to has no joints, and the other one has none without an owner. -/
theorem assignLaw_iff (hsig : h.signal? sg = some signal) (hother : h.signal? rhs = some other) :
    h.AssignLaw sg rhs ↔ sg ≠ rhs ∧ signal.callbacks = [] ∧ ownerless other.callbacks = [] := by
  rw [AssignLaw, assignsAsCopy_iff hsig hother, assignsOnce_iff hsig hother]
  constructor
  · rintro ⟨⟨hne, hnil⟩, ⟨-, hnone⟩, -⟩
    exact ⟨hne, hnil, hnone⟩
  · rintro ⟨hne, hnil, hnone⟩
    have ha := assign_eq hne hsig hother
    obtain ⟨-, hother', hslots, hdata⟩ := signal?_assign hne hsig hother ha
    exact ⟨⟨hne, hnil⟩, ⟨hne, hnone⟩, _, ha, hother'.trans hother.symm, hslots, hdata⟩

/-- A signal without connections and one with an owned connection, which is locked. -/
def ownedConnection : Heap String :=
  { signals := [some ⟨false, [], [], []⟩, some ⟨true, [⟨"a", 0, some 0⟩], [], []⟩]
    slots := [some ⟨some 0, some 1⟩]
    data := [true] }

/-- The one with the owned connection can be assigned to the other, but not the other way round. -/
theorem assignLaw_iff_ownedConnection :
    ownedConnection.AssignLaw 0 1 ∧ ¬ ownedConnection.AssignLaw 1 0 := by
  have hfirst : ownedConnection.signal? 0 = some ⟨false, [], [], []⟩ := rfl
  have hsecond : ownedConnection.signal? 1 = some ⟨true, [⟨"a", 0, some 0⟩], [], []⟩ := rfl
  refine ⟨(assignLaw_iff hfirst hsecond).mpr ⟨Nat.zero_ne_one, rfl, rfl⟩, fun hlaw => ?_⟩
  exact absurd ((assignLaw_iff hsecond hfirst).mp hlaw).2.1 (List.cons_ne_nil _ _)

/-- Two signals with a callback each. -/
def twoSignals : Heap String :=
  { signals := [some ⟨false, [⟨"a", 0, none⟩], [], []⟩, some ⟨false, [⟨"b", 1, none⟩], [], []⟩]
    slots := []
    data := [false, false] }

/-- After the assignment both callbacks are invoked, after a second one the copied one twice, and a signal
    cannot be assigned to itself. -/
theorem assignment_appends :
    (twoSignals.assign 0 1).map (fun h => h.laterCalls 0 ⟨[], none⟩) = some ["a", "b"] ∧
    ((twoSignals.assign 0 1).bind fun h => (h.assign 0 1).map fun h => h.laterCalls 0 ⟨[], none⟩) =
      some ["a", "b", "b"] ∧
    twoSignals.assign 0 0 = none ∧ ¬ twoSignals.AssignLaw 0 1 := by
  refine ⟨rfl, rfl, rfl, ?_⟩
  rintro ⟨hcopy, -, -⟩
  have hempty := ((assignsAsCopy_iff rfl rfl).mp hcopy).2
  exact absurd hempty (by decide)

end Lnetlib.Lsignal.Heap
