import Lnetlib.Lsignal.Emission

/-!
# The arguments of an emission

`signal::operator()` takes its arguments by value and hands them on with `std::forward<Args>(args)...`, to
every linked signal and to every callback. For a parameter type that is not a reference this is a move,
into the by-value parameter of the linked signal or of the `std::function`. What is left in `args` is
what the next one is given.
-/

namespace Lnetlib.Lsignal

/-- The types of by-value parameters: what moving from an object leaves in it. Moving from an object once
    more changes nothing. -/
class Movable (V : Type) where
  moved : V → V
  moved_moved : ∀ v, moved (moved v) = moved v

export Movable (moved)

/-- A `std::shared_ptr` to the object with the given identity; moving from it leaves a null pointer. -/
abbrev SharedPtr := Option Nat

instance : Movable SharedPtr := ⟨fun _ => none, fun _ => rfl⟩

variable {κ V : Type} [Movable V]

/-- The calls of the callbacks whose connection is not locked, each with the arguments it is given, and what
    is left in `args`. -/
def forwardCalls (locked : Nat → Bool) : V → List (Joint κ) → List (Joint κ × V) × V
  | v, [] => ([], v)
  | v, jnt :: callbacks =>
    if locked jnt.connection then forwardCalls locked v callbacks
    else
      let (calls, left) := forwardCalls locked (moved v) callbacks
      ((jnt, v) :: calls, left)

/-- The loop over all callbacks but the last, and the last one. -/
def forwardLoop (locked : Nat → Bool) (v : V) (callbacks : List (Joint κ)) : List (Joint κ × V) :=
  let (before, left) := forwardCalls locked v callbacks.dropLast
  match callbacks.getLast? with
  | none => before
  | some jnt => if locked jnt.connection then before else before ++ [(jnt, left)]

/-- The calls of the linked signals with `f`, and what is left in `args`. -/
def forwardSignals (f : Nat → V → Option (List (Joint κ × V))) :
    V → List Nat → Option (List (Joint κ × V) × V)
  | v, [] => some ([], v)
  | v, child :: children => do
    let calls ← f child v
    let (rest, left) ← forwardSignals f (moved v) children
    return (calls ++ rest, left)

namespace Heap

/-- `signal::operator()` with the arguments `v`: the callbacks that are invoked and what each is given. -/
def emitWith (h : Heap κ) : Nat → List Nat → Nat → V → Option (List (Joint κ × V))
  | 0, _, _, _ => none
  | fuel + 1, held, sg, v => do
    if sg ∈ held then none
    let signal ← h.signal? sg
    if signal.locked then return []
    let (below, left) ← forwardSignals (h.emitWith fuel (sg :: held)) v signal.signals
    return below ++ forwardLoop h.isLocked left signal.callbacks

/-- An emission with the arguments `v`. -/
def emissionWith (h : Heap κ) (sg : Nat) (v : V) : Option (List (Joint κ × V)) :=
  h.emitWith h.signals.length [] sg v

/-- `signal::operator()` with an aggregator and the arguments `v`. -/
def aggregateWith (h : Heap κ) (sg : Nat) (v : V) : Option (List (Joint κ × V)) := do
  let signal ← h.signal? sg
  if signal.locked then return []
  let (below, left) ← forwardSignals (h.emitWith (h.signals.length - 1) [sg]) v signal.signals
  return below ++ (forwardCalls h.isLocked left signal.callbacks).1

/-- Both emissions of the signal invoke its trace, and each callback is given the arguments of the
    emission. -/
def GivesAll (h : Heap κ) (sg : Nat) (v : V) : Prop :=
  ∃ calls, h.emissionWith sg v = some calls ∧ h.aggregateWith sg v = some calls ∧
    h.Trace sg (calls.map Prod.fst) ∧ ∀ call ∈ calls, call.2 = v

/-- At each signal on the way down, only the first that the arguments are handed to invokes any callback: the
    first of the linked signals, or the only callback of a signal without links. -/
inductive FirstOnly (h : Heap κ) : Nat → Prop where
  | locked {sg : Nat} {signal : Signal κ} (hsig : h.signal? sg = some signal)
      (hl : signal.locked = true) : FirstOnly h sg
  | own {sg : Nat} {signal : Signal κ} (hsig : h.signal? sg = some signal)
      (hnone : signal.signals = []) (hone : (h.unlocked signal).length ≤ 1) : FirstOnly h sg
  | linked {sg : Nat} {signal : Signal κ} {child : Nat} {children : List Nat}
      (hsig : h.signal? sg = some signal) (hcons : signal.signals = child :: children)
      (hfirst : FirstOnly h child) (hrest : ∀ other ∈ children, h.Trace other [])
      (hown : h.unlocked signal = []) : FirstOnly h sg

end Heap

end Lnetlib.Lsignal
