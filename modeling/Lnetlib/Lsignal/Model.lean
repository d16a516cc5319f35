import Mathlib.Tactic.Common
import Mathlib.Data.List.Basic
import Mathlib.Data.List.Induction

/-!
# Signals, connections and slots of `lsignal`

The objects of a program that uses `lsignal`: signals, the slots that own connections, and the
`connection_data` that a joint of a signal shares with the handles returned for it. Pointers and shared
pointers are indices into the list of all objects ever constructed; a destroyed object leaves `none`.

An operation is `none` where it would use a destroyed object or lock a mutex that its thread holds.
-/

namespace Lnetlib.Lsignal

/-- `lsignal::connection`. The deleter is the signal captured by `_deleter`. -/
structure Connection where
  data : Option Nat
  deleter : Option Nat
  deriving DecidableEq, Repr

/-- `signal::joint` -/
structure Joint (κ : Type) where
  callback : κ
  connection : Nat
  owner : Option Nat
  deriving DecidableEq, Repr

/-- The state of a `signal`. A closure of `_deleters` is the signal that it captures. -/
structure Signal (κ : Type) where
  locked : Bool
  callbacks : List (Joint κ)
  signals : List Nat
  deleters : List Nat
  deriving DecidableEq, Repr

/-- What an emission does: the joints whose callbacks it invokes, and the one whose result it returns. Where
    there is none it returns `R()`. -/
structure Invocations (κ : Type) where
  invoked : List (Joint κ)
  result : Option (Joint κ)
  deriving DecidableEq, Repr

/-- The objects of a program. `data` has the `locked` flag of each `connection_data`. -/
structure Heap (κ : Type) where
  signals : List (Option (Signal κ))
  slots : List (Option Connection)
  data : List Bool
  deriving DecidableEq, Repr

/-- `signal::signal` -/
def Signal.construct (κ : Type) : Signal κ :=
  { locked := false, callbacks := [], signals := [], deleters := [] }

/-- A signal without the joint of a connection. -/
def Signal.without {κ : Type} (signal : Signal κ) (connection : Option Nat) : Signal κ :=
  { signal with callbacks := signal.callbacks.filter fun jnt => !(some jnt.connection == connection) }

/-- The loop of `signal::operator()` over all callbacks but the last, and the last one, whose result is
    returned. The decrement of `cend()` leaves it in place when the list is empty. -/
def callLoop {κ : Type} (locked : Nat → Bool) (callbacks : List (Joint κ)) : Invocations κ :=
  let before := callbacks.dropLast.filter fun jnt => !locked jnt.connection
  match callbacks.getLast? with
  | none => { invoked := before, result := none }
  | some jnt =>
    if locked jnt.connection then { invoked := before, result := none }
    else { invoked := before ++ [jnt], result := some jnt }

namespace Heap

variable {κ : Type}

/-- A program before it has constructed any object. -/
def init (κ : Type) : Heap κ := { signals := [], slots := [], data := [] }

/-- A signal that has not been destroyed. -/
def signal? (h : Heap κ) (sg : Nat) : Option (Signal κ) := h.signals[sg]?.join

/-- The joints of a signal; a destroyed signal has none. -/
def callbacks (h : Heap κ) (sg : Nat) : List (Joint κ) := ((h.signal? sg).map (·.callbacks)).getD []

/-- A slot that has not been destroyed. -/
def slot? (h : Heap κ) (owner : Nat) : Option Connection := h.slots[owner]?.join

/-- The slot has been constructed and destroyed. -/
def SlotDestroyed (h : Heap κ) (owner : Nat) : Prop := h.slots[owner]? = some none

instance (h : Heap κ) (owner : Nat) : Decidable (h.SlotDestroyed owner) :=
  inferInstanceAs (Decidable (_ = _))

/-- Whether `connection_data` is locked. -/
def isLocked (h : Heap κ) (connection : Nat) : Bool := h.data[connection]?.getD false

/-- Replace a signal. -/
def setSignal (sg : Nat) (signal : Signal κ) (h : Heap κ) : Heap κ :=
  { h with signals := h.signals.set sg (some signal) }

/-- Replace `_data` and `_deleter` of a slot. -/
def setSlot (owner : Nat) (conn : Connection) (h : Heap κ) : Heap κ :=
  { h with slots := h.slots.set owner (some conn) }

/-- The constructor of a signal; the new signal is the last one. -/
def newSignal (h : Heap κ) : Heap κ :=
  { h with signals := h.signals ++ [some (Signal.construct κ)] }

/-- `slot::slot`; the new slot is the last one. -/
def newSlot (h : Heap κ) : Heap κ :=
  { h with slots := h.slots ++ [some { data := none, deleter := none }] }

/-- What a signal does to the owner of a joint it gives up: `_data = nullptr` and an empty `_deleter`. -/
def clearOwner (h : Heap κ) (jnt : Joint κ) : Option (Heap κ) :=
  match jnt.owner with
  | none => some h
  | some owner => (h.slot? owner).map fun _ => h.setSlot owner { data := none, deleter := none }

/-- The loop of `signal::disconnect_all` and of `signal::~signal` over the callbacks. -/
def clearOwners (h : Heap κ) (callbacks : List (Joint κ)) : Option (Heap κ) :=
  callbacks.foldlM clearOwner h

/-- `signal::prepare_connection` -/
def prepareConnection (sg connection : Nat) : Connection :=
  { data := some connection, deleter := some sg }

/-- What `create_connection` does to the owner: it is given the connection and a deleter. -/
def linkOwner (h : Heap κ) (sg connection : Nat) (owner : Option Nat) : Option (Heap κ) :=
  match owner with
  | none => some h
  | some owner => (h.slot? owner).map fun _ => h.setSlot owner (prepareConnection sg connection)

/-- `signal::create_connection` -/
def createConnection (h : Heap κ) (sg : Nat) (fn : κ) (owner : Option Nat) : Option (Nat × Heap κ) := do
  let connection := h.data.length
  let h ← { h with data := h.data ++ [false] }.linkOwner sg connection owner
  let signal ← h.signal? sg
  let jnt := { callback := fn, connection := connection, owner := owner }
  return (connection, h.setSignal sg { signal with callbacks := signal.callbacks ++ [jnt] })

/-- `signal::connect` of a callback, which is copied. -/
def connect (h : Heap κ) (sg : Nat) (fn : κ) (owner : Option Nat) : Option (Connection × Heap κ) :=
  (h.createConnection sg fn owner).map fun (connection, h) => (prepareConnection sg connection, h)

/-- `signal::connect` of a callback that is moved from. -/
def connectMove (h : Heap κ) (sg : Nat) (fn : κ) (owner : Option Nat) : Option (Connection × Heap κ) :=
  (h.createConnection sg fn owner).map fun (connection, h) => (prepareConnection sg connection, h)

/-- `signal::connect` of a member function of an object, which `construct_mem_fn` binds to it. -/
def connectMemFn {μ π : Type} (bind : μ → π → κ) (h : Heap κ) (sg : Nat) (p : π) (fn : μ)
    (owner : Option Nat) : Option (Connection × Heap κ) :=
  (h.createConnection sg (bind fn p) owner).map fun (connection, h) =>
    (prepareConnection sg connection, h)

/-- `signal::destroy_connection` -/
def destroyConnection (h : Heap κ) (sg : Nat) (connection : Option Nat) : Option (Heap κ) := do
  let signal ← h.signal? sg
  match signal.callbacks.find? fun jnt => some jnt.connection == connection with
  | none => return h
  | some jnt =>
    let h ← h.clearOwner jnt
    let callbacks := signal.callbacks.eraseP fun jnt => some jnt.connection == connection
    return h.setSignal sg { signal with callbacks := callbacks }

/-- `connection::disconnect` -/
def disconnect (h : Heap κ) (conn : Connection) : Option (Heap κ) :=
  match conn.deleter with
  | none => some h
  | some sg => h.destroyConnection sg conn.data

/-- `signal::disconnect` of a connection. -/
def disconnectConnection (h : Heap κ) (sg : Nat) (conn : Connection) : Option (Heap κ) :=
  h.destroyConnection sg conn.data

/-- `signal::disconnect` of a slot. -/
def disconnectSlot (h : Heap κ) (sg : Nat) (owner : Option Nat) : Option (Heap κ) :=
  match owner with
  | none => some h
  | some owner => (h.slot? owner).bind fun conn => h.destroyConnection sg conn.data

/-- `slot::disconnect`, inherited from `connection`. -/
def slotDisconnect (h : Heap κ) (owner : Nat) : Option (Heap κ) :=
  (h.slot? owner).bind h.disconnect

/-- `slot::~slot` -/
def destroySlot (h : Heap κ) (owner : Nat) : Option (Heap κ) := do
  let h ← h.slotDisconnect owner
  return { h with slots := h.slots.set owner none }

/-- `signal::disconnect_all` -/
def disconnectAll (h : Heap κ) (sg : Nat) : Option (Heap κ) :=
  (h.signal? sg).bind fun signal => h.clearOwners signal.callbacks

/-- `connection::set_lock` -/
def setLock (h : Heap κ) (conn : Connection) (lock : Bool) : Option (Heap κ) :=
  conn.data.map fun connection => { h with data := h.data.set connection lock }

/-- `signal::set_lock` -/
def setSignalLock (h : Heap κ) (sg : Nat) (lock : Bool) : Option (Heap κ) :=
  (h.signal? sg).map fun signal => h.setSignal sg { signal with locked := lock }

/-- `signal::connect` of a signal; both mutexes are locked. -/
def connectSignal (h : Heap κ) (parent sg : Nat) : Option (Heap κ) := do
  if parent = sg then none
  let child ← h.signal? sg
  let h := h.setSignal sg { child with deleters := child.deleters ++ [parent] }
  let signal ← h.signal? parent
  return h.setSignal parent { signal with signals := signal.signals ++ [sg] }

/-- `signal::disconnect` of a signal. -/
def disconnectSignal (h : Heap κ) (parent sg : Nat) : Option (Heap κ) :=
  (h.signal? parent).map fun signal =>
    h.setSignal parent { signal with signals := signal.signals.erase sg }

/-- What a closure of `_deleters` does, called by `signal::~signal` under its own mutex. -/
def callDeleter (sg : Nat) (h : Heap κ) (parent : Nat) : Option (Heap κ) :=
  if parent = sg then none else h.disconnectSignal parent sg

/-- `signal::~signal` -/
def destroySignal (h : Heap κ) (sg : Nat) : Option (Heap κ) := do
  let signal ← h.signal? sg
  let h ← h.clearOwners signal.callbacks
  let h ← signal.deleters.foldlM (callDeleter sg) h
  return { h with signals := h.signals.set sg none }

/-- `signal::operator()`, called while the mutexes of `held` are locked. The signals of `_signals` are
    called first, at most `fuel` deep. -/
def emit (h : Heap κ) : Nat → List Nat → Nat → Option (Invocations κ)
  | 0, _, _ => none
  | fuel + 1, held, sg => do
    if sg ∈ held then none
    let signal ← h.signal? sg
    if signal.locked then return { invoked := [], result := none }
    let below ← signal.signals.mapM fun child => h.emit fuel (sg :: held) child
    let own := callLoop h.isLocked signal.callbacks
    return { own with invoked := below.flatMap (·.invoked) ++ own.invoked }

/-- An emission of a signal; no signal is locked twice on a way down from it. -/
def emission (h : Heap κ) (sg : Nat) : Option (Invocations κ) := h.emit h.signals.length [] sg

/-- `signal::operator()` with an aggregator, which is given the results of the callbacks of the signal itself:
    the joints whose callbacks are invoked, and those whose results are collected. -/
def aggregate (h : Heap κ) (sg : Nat) : Option (List (Joint κ) × List (Joint κ)) := do
  let signal ← h.signal? sg
  if signal.locked then return ([], [])
  let below ← signal.signals.mapM fun child => h.emit (h.signals.length - 1) [sg] child
  let own := signal.callbacks.filter fun jnt => !h.isLocked jnt.connection
  return (below.flatMap (·.invoked) ++ own, own)

end Heap

/-! ## What the operations do -/

/-- The loop and the last callback together invoke the callbacks that are not locked, in order. -/
theorem callLoop_invoked {κ : Type} (locked : Nat → Bool) (callbacks : List (Joint κ)) :
    (callLoop locked callbacks).invoked = callbacks.filter fun jnt => !locked jnt.connection := by
  unfold callLoop
  induction callbacks using List.reverseRecOn with
  | nil => rfl
  | append_singleton js jnt _ =>
    by_cases hl : locked jnt.connection = true
    · simp [hl]
    · simp [hl]

end Lnetlib.Lsignal
