import Lnetlib.Lib.Locks
import Lnetlib.Server.Ownership

/-!
# The mutexes of a server

The threads of a server with its connections, and the mutexes that their calls hold: `server::_mutex` and
the mutex of each signal, of the server and of its connections. User code may besides call
`server::connections()`, on any thread, and then waits for `server::_mutex`; it has unlocked it when the
call returns. The thread that gives up the last owner of a connection runs `~connection`, and before it does
anything else each `~signal` of the members locks and unlocks the mutex of its signal.

The mutexes of a connection, of `ostream::dispatch` and of `istream::response_dispatch` are left out: a
thread that holds one of them never waits for a mutex told of here.
-/

namespace Lnetlib

open Bytes Transition

/-- The mutexes that are held while user code runs or while another mutex is locked. -/
inductive Mutex where
  | connectionSignal (sig : ConnectionSignal) (conn : Nat)
  | serverSignal (sig : ServerSignal)
  /-- `server::_mutex` -/
  | server
  deriving DecidableEq, Repr

/-- The order in which they are locked. -/
def Mutex.rank : Mutex → Nat
  | connectionSignal .received _ | connectionSignal .error _ => 0
  | serverSignal .received | serverSignal .error => 1
  | connectionSignal .closed _ => 2
  | serverSignal .disconnected => 3
  | server => 4
  | serverSignal .connected => 5

namespace CallFrame

/-- The mutex that the call holds. -/
def holds : CallFrame → Option Mutex
  | emission sig conn => some (.connectionSignal sig conn)
  | serverEmission sig => some (.serverSignal sig)
  | accept _ _ .unlock => some .server
  | _ => none

/-- The mutex that the call locks next. That of `signal::connect` is unlocked when the slot is connected. -/
def acquires : CallFrame → Option Mutex
  | accept conn _ .connectClosed => some (.connectionSignal .closed conn)
  | accept conn _ .connectError => some (.connectionSignal .error conn)
  | accept conn _ .connectReceived => some (.connectionSignal .received conn)
  | call sig conn => some (.connectionSignal sig conn)
  | serverCall sig _ => some (.serverSignal sig)
  | accept _ _ .register | slot _ _ .removeConnection => some .server
  | _ => none

end CallFrame

/-- The thread that takes a step. -/
def OwnershipAct.thread {κ : Type} : OwnershipAct κ → Option Nat
  | sessionHandler t _ _ | readHandler t _ _ _ | writeHandler t _ _ | advance t | close t _ _
  | catchException t | drop t _ => some t
  | _ => none

/-- The thread on which user code calls `close()`. -/
def OwnershipAct.closer {κ : Type} : OwnershipAct κ → Option Nat
  | close t _ _ => some t
  | _ => none

/-- The mutexes that `~connection` locks, one after the other: the members are destroyed in the reverse order
    of their declarations. -/
def Destructor.locks (d : Destructor) : List Mutex :=
  [.connectionSignal .received d.conn, .connectionSignal .error d.conn, .connectionSignal .closed d.conn]

/-- A server with its threads. -/
structure LockOrder (κ : Type) where
  base : Ownership κ
  /-- The threads that have called `connections()` and have not locked `server::_mutex` yet. -/
  asking : List Nat
  /-- What `~connection` has still to lock on a thread. -/
  destroying : Nat → List Mutex

/-- The steps of the server and its threads, of `connections()` and of `~connection`. -/
inductive LockOrderAct (κ : Type) where
  | base (a : OwnershipAct κ)
  /-- User code on a thread calls `connections()`. -/
  | ask (t : Nat)
  /-- `connections()` locks `server::_mutex`, copies the list and returns. -/
  | answer (t : Nat)
  /-- The next `~signal` on a thread locks and unlocks its mutex. -/
  | destroy (t : Nat)

namespace LockOrder

variable {κ : Type} (o : ByteOrder)

def init (κ : Type) : LockOrder κ :=
  { base := Ownership.init κ
    asking := []
    destroying := fun _ => [] }

/-- No call holds the mutex. -/
def Free (s : LockOrder κ) (m : Mutex) : Prop := ∀ f ∈ Threads.frames s.base.threads, f.holds ≠ some m

instance (s : LockOrder κ) (m : Mutex) : Decidable (s.Free m) := inferInstanceAs (Decidable (∀ _ ∈ _, _))

/-- What is to be locked on a thread after a step to `base`, which has perhaps given up the last owner of a
    connection. -/
def destroyed (s : LockOrder κ) (base : Ownership κ) (t : Nat) : List Mutex :=
  s.destroying t ++
    ((base.destructors.drop s.base.destructors.length).filter (·.thread = t)).flatMap Destructor.locks

/-- One step. A thread in `connections()` or in `~connection` does nothing else. -/
def step (s : LockOrder κ) : LockOrderAct κ → Option (LockOrder κ)
  | .base a =>
    if ∃ t ∈ a.thread, t ∈ s.asking ∨ s.destroying t ≠ [] then none
    else (s.base.step o a).map fun base => { s with base := base, destroying := s.destroyed base }
  | .ask t =>
    (s.base.threads[t]?).bind fun stack =>
      if Ownership.userCode stack ∧ t ∉ s.asking ∧ s.destroying t = [] then
        some { s with asking := t :: s.asking }
      else none
  | .answer t =>
    if t ∈ s.asking ∧ s.base.locked = false then some { s with asking := s.asking.erase t } else none
  | .destroy t =>
    match s.destroying t with
    | [] => none
    | m :: rest =>
      if s.Free m then some { s with destroying := Function.update s.destroying t rest } else none

/-- A call of the thread holds the mutex. -/
def Holds (s : LockOrder κ) (t : Nat) (m : Mutex) : Prop :=
  ∃ stack, s.base.threads[t]? = some stack ∧ ∃ f ∈ stack, f.holds = some m

/-- The thread locks the mutex next, in `connections()`, in `~signal` or in its innermost call. -/
def Waits (s : LockOrder κ) (t : Nat) (m : Mutex) : Prop :=
  (t ∈ s.asking ∧ m = .server) ∨ (s.destroying t).head? = some m ∨
    (t ∉ s.asking ∧ s.destroying t = [] ∧
      ∃ f rest, s.base.threads[t]? = some (f :: rest) ∧ f.acquires = some m)

def holdings (s : LockOrder κ) : Locks.Holdings Nat Mutex := { holds := s.Holds, waits := s.Waits }

/-- The signal of the server in whose slot the user code of a thread runs. -/
def slotOf : List CallFrame → Option ServerSignal
  | .userSlot _ :: .serverEmission sig :: _ => some sig
  | _ => none

/-- The next step of the thread is enabled: of its innermost call, of `connections()` or of `~connection`. -/
def GoesOn (s : LockOrder κ) (t : Nat) : Prop :=
  (s.step o (.base (.advance t))).isSome ∨ (s.step o (.answer t)).isSome ∨ (s.step o (.destroy t)).isSome

/-- User code calls `close()` neither in a slot of `connected` nor in one of `disconnected`, it does not call
    `connections()` in a slot of `connected`, and the last owner of a connection is not given up while a
    signal of the connection is being emitted. -/
def KeepsOrder (s : LockOrder κ) : LockOrderAct κ → Prop
  | .base a => s.base.HoldsCopy a ∧ ∀ t ∈ a.closer, ∀ stack ∈ s.base.threads[t]?,
      slotOf stack ≠ some .connected ∧ slotOf stack ≠ some .disconnected
  | .ask t => ∀ stack ∈ s.base.threads[t]?, slotOf stack ≠ some .connected
  | .answer _ | .destroy _ => True

instance (s : LockOrder κ) : ∀ a, Decidable (s.KeepsOrder a)
  | .base a => inferInstanceAs (Decidable (s.base.HoldsCopy a ∧ ∀ t ∈ a.closer,
      ∀ stack ∈ s.base.threads[t]?, slotOf stack ≠ some .connected ∧ slotOf stack ≠ some .disconnected))
  | .ask t => inferInstanceAs (Decidable (∀ stack ∈ s.base.threads[t]?, slotOf stack ≠ some .connected))
  | .answer _ | .destroy _ => isTrue trivial

end LockOrder

end Lnetlib
