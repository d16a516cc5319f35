import Lnetlib.Lsignal.Model
import Lnetlib.Lib.Run
import Lnetlib.Lib.Threads

/-!
# The mutex of a signal

Any number of threads emit one signal, with and without an aggregator, and connect and disconnect
callbacks of it. Each of these functions holds a `lock_guard` from its first step on; the emission with an
aggregator unlocks the mutex by hand before it calls the aggregator, and the guard unlocks it again on the
way out. Callbacks and the aggregator are user code: a callback may throw, and the aggregator may use the
signal and may throw. Linked signals have mutexes of their own and are left out.

Unlocking a mutex that is not held is undefined; the model leaves the mutex free then.
-/

namespace Lnetlib.Lsignal

open Transition Threads

/-- A call of a member of the signal. -/
inductive MemberCall (κ : Type) where
  | emit
  | aggregate
  | connect (jnt : Joint κ)
  | disconnect (connection : Nat)
  deriving DecidableEq, Repr

/-- Where a call is. -/
inductive Phase (κ : Type) where
  /-- In the constructor of the `lock_guard`. -/
  | locking (call : MemberCall κ)
  /-- In the loop of an emission, with the callbacks it has not passed. -/
  | calling (aggregated : Bool) (callbacks : List (Joint κ))
  /-- Before `_callbacks.push_back`. -/
  | connecting (jnt : Joint κ)
  /-- Before the loop of `destroy_connection`. -/
  | disconnecting (connection : Nat)
  /-- In the aggregator, after `_mutex.unlock()`. -/
  | aggregating
  deriving DecidableEq, Repr

/-- A section guarded by the mutex. -/
def Phase.guarded {κ : Type} : Phase κ → Bool
  | calling _ _ => true
  | connecting _ => true
  | disconnecting _ => true
  | locking _ => false
  | aggregating => false

/-- A call with the number of times it has unlocked the mutex. -/
structure CallFrame (κ : Type) where
  phase : Phase κ
  released : Nat
  deriving DecidableEq, Repr

/-- An unlock: the thread that performed it and the one that held the mutex. -/
structure Release where
  thread : Nat
  holder : Option Nat
  deriving DecidableEq, Repr

/-- The signal with its mutex, the threads with their calls, and the history: the unlocks, and how often
    each call that has ended has unlocked the mutex. -/
structure LockDiscipline (κ : Type) where
  locked : Bool
  callbacks : List (Joint κ)
  mutex : Option Nat
  threads : List (List (CallFrame κ))
  releases : List Release
  ended : List Nat
  deriving DecidableEq, Repr

/-- What happens next. The thread `t` takes a step. -/
inductive LockAct (κ : Type) where
  | newThread
  /-- User code calls a member: the thread itself or an aggregator it is in. -/
  | call (t : Nat) (member : MemberCall κ)
  /-- The `lock_guard` gets the mutex. -/
  | lock (t : Nat)
  /-- The loop of an emission passes a callback, which is locked or returns. -/
  | pass (t : Nat)
  /-- A callback throws. -/
  | throwing (t : Nat)
  /-- The guarded section ends. -/
  | finish (t : Nat)
  /-- The aggregator returns or throws. -/
  | aggregated (t : Nat)
  /-- `signal::set_lock` -/
  | setLock (lock : Bool)
  deriving DecidableEq, Repr

namespace LockDiscipline

variable {κ : Type}

/-- A signal that no thread uses. -/
def init (κ : Type) : LockDiscipline κ :=
  { locked := false, callbacks := [], mutex := none, threads := [], releases := [], ended := [] }

/-- Replace the calls of a thread. -/
def setThread (t : Nat) (frames : List (CallFrame κ)) (s : LockDiscipline κ) : LockDiscipline κ :=
  { s with threads := s.threads.set t frames }

/-- `_mutex.unlock()` by a thread. -/
def unlock (t : Nat) (s : LockDiscipline κ) : LockDiscipline κ :=
  { s with mutex := none, releases := s.releases ++ [{ thread := t, holder := s.mutex }] }

/-- The destructor of the `lock_guard` unlocks the mutex, and the call ends. -/
def leave (t : Nat) (frame : CallFrame κ) (below : List (CallFrame κ)) (s : LockDiscipline κ) :
    LockDiscipline κ :=
  { (s.unlock t).setThread t below with ended := s.ended ++ [frame.released + 1] }

/-- User code runs in the thread. -/
def InUserCode : List (CallFrame κ) → Bool
  | [] => true
  | frame :: _ => frame.phase matches .aggregating

/-- What a call does first once it has the mutex. -/
def entered (s : LockDiscipline κ) : MemberCall κ → Phase κ
  | .emit => .calling false (if s.locked then [] else s.callbacks)
  | .aggregate => .calling true (if s.locked then [] else s.callbacks)
  | .connect jnt => .connecting jnt
  | .disconnect connection => .disconnecting connection

/-- The end of a guarded section. -/
def finishStep (t : Nat) (frame : CallFrame κ) (below : List (CallFrame κ)) (s : LockDiscipline κ) :
    Option (LockDiscipline κ) :=
  match frame.phase with
  | .calling false [] => some (s.leave t frame below)
  | .calling true [] =>
    some ((s.unlock t).setThread t ({ phase := .aggregating, released := frame.released + 1 } :: below))
  | .connecting jnt => some ({ s with callbacks := s.callbacks ++ [jnt] }.leave t frame below)
  | .disconnecting connection =>
    some ({ s with callbacks := s.callbacks.eraseP (·.connection == connection) }.leave t frame below)
  | _ => none

/-- One step. -/
def step (s : LockDiscipline κ) : LockAct κ → Option (LockDiscipline κ)
  | .newThread => some { s with threads := s.threads ++ [[]] }
  | .call t member =>
    match s.threads[t]? with
    | some frames =>
      if InUserCode frames then
        some (s.setThread t ({ phase := .locking member, released := 0 } :: frames))
      else none
    | none => none
  | .lock t =>
    match s.threads[t]?, s.mutex with
    | some (⟨.locking member, released⟩ :: below), none =>
      some { s.setThread t (⟨s.entered member, released⟩ :: below) with mutex := some t }
    | _, _ => none
  | .pass t =>
    match s.threads[t]? with
    | some (⟨.calling aggregated (_ :: callbacks), released⟩ :: below) =>
      some (s.setThread t (⟨.calling aggregated callbacks, released⟩ :: below))
    | _ => none
  | .throwing t =>
    match s.threads[t]? with
    | some (⟨.calling aggregated (jnt :: callbacks), released⟩ :: below) =>
      some (s.leave t ⟨.calling aggregated (jnt :: callbacks), released⟩ below)
    | _ => none
  | .finish t =>
    match s.threads[t]? with
    | some (frame :: below) => s.finishStep t frame below
    | _ => none
  | .aggregated t =>
    match s.threads[t]? with
    | some (⟨.aggregating, released⟩ :: below) => some (s.leave t ⟨.aggregating, released⟩ below)
    | _ => none
  | .setLock lock => some { s with locked := lock }

/-- The calls in sections guarded by the mutex. -/
def inside (s : LockDiscipline κ) : Nat := count (fun frame => frame.phase.guarded) s.threads

/-- Every unlock was performed by the thread that held the mutex, at most one call is in a guarded section,
    and every call that has ended has unlocked the mutex once. -/
structure Disciplined (s : LockDiscipline κ) : Prop where
  byHolder : ∀ release ∈ s.releases, release.holder = some release.thread
  exclusive : s.inside ≤ 1
  once : ∀ released ∈ s.ended, released = 1

/-- The step is not the end of an aggregator. -/
def NoAggregatorEnds (_ : LockDiscipline κ) : LockAct κ → Prop
  | .aggregated _ => False
  | _ => True

instance (s : LockDiscipline κ) : ∀ a, Decidable (s.NoAggregatorEnds a)
  | .aggregated _ => isFalse id
  | .newThread | .call _ _ | .lock _ | .pass _ | .throwing _ | .finish _ | .setLock _ => isTrue trivial

end LockDiscipline

end Lnetlib.Lsignal
