import Lnetlib.Lsignal.Subscription
import Lnetlib.Lsignal.Proofs.HeapProofs
import Mathlib.Data.List.Sigma

/-!
# Proofs: signals invoke what their history says

The state of a program is a function of its history (`Tracks`): the handles, the locks and the joints of
every signal are read off the calls made. What an emission invokes and what a disconnect does follows.
-/

namespace Lnetlib.Lsignal

open Transition

variable {κ μ π : Type} {bind : μ → π → κ} {as : List (SubscriptionAct κ μ π)}
  {a : SubscriptionAct κ μ π} {s s' : Subscriptions κ}

/-! ## Histories -/

theorem connected_snoc :
    connected bind (as ++ [a]) = connected bind as ++ (a.connects bind).toList := by
  unfold connected
  cases h : a.connects bind <;> simp [h]

theorem disconnected_snoc (sg i : Nat) :
    disconnected (as ++ [a]) sg i = (disconnected as sg i || a.disconnects sg i) := by
  simp [disconnected]

theorem locked_snoc (i : Nat) : locked (as ++ [a]) i = (a.locks i).getD (locked as i) := by
  unfold locked
  cases h : a.locks i <;> simp [h]

theorem signalLocked_snoc (sg : Nat) :
    signalLocked (as ++ [a]) sg = (a.locksSignal sg).getD (signalLocked as sg) := by
  unfold signalLocked
  cases h : a.locksSignal sg <;> simp [h]

/-- A call that connects nothing. -/
theorem registered_of_connects_none (hc : a.connects bind = none) (sg : Nat) :
    registered bind (as ++ [a]) sg =
      (registered bind as sg).filter fun (_, i) => !a.disconnects sg i := by
  unfold registered
  rw [connected_snoc, hc, Option.toList_none, List.append_nil, List.filter_filter]
  refine List.filter_congr ?_
  rintro ⟨r, i⟩ -
  simp only [disconnected_snoc, Bool.not_or]
  cases a.disconnects sg i <;> simp

/-- A call of `connect`. -/
theorem registered_of_connects_some {r : Nat × κ} (hc : a.connects bind = some r)
    (hnone : ∀ sg i, a.disconnects sg i = false)
    (hfresh : ∀ sg, disconnected as sg (connected bind as).length = false) (sg : Nat) :
    registered bind (as ++ [a]) sg = registered bind as sg ++
      if r.1 = sg then [(r, (connected bind as).length)] else [] := by
  unfold registered
  rw [connected_snoc, hc, Option.toList_some, List.zipIdx_append, List.filter_append]
  congr 1
  · refine List.filter_congr ?_
    rintro ⟨r, i⟩ -
    simp only [disconnected_snoc, hnone, Bool.or_false]
  · by_cases heq : r.1 = sg
    · simp [heq, disconnected_snoc, hnone, hfresh]
    · simp [heq]

/-- A call that neither connects nor disconnects. -/
theorem registered_of_silent (hc : a.connects bind = none) (hd : ∀ sg i, a.disconnects sg i = false)
    (sg : Nat) : registered bind (as ++ [a]) sg = registered bind as sg := by
  rw [registered_of_connects_none hc]
  simp [hd]

theorem connected_of_none (as : List (SubscriptionAct κ μ π)) (hc : a.connects bind = none) :
    connected bind (as ++ [a]) = connected bind as := by
  rw [connected_snoc, hc, Option.toList_none, List.append_nil]

/-- The connections of a signal are distinct. -/
theorem nodup_registered (sg : Nat) : ((registered bind as sg).map (·.2)).Nodup :=
  (List.nodup_zipIdx_map_snd (connected bind as)).sublist (List.filter_sublist.map _)

theorem of_mem_registered {sg : Nat} {p : (Nat × κ) × Nat} (hp : p ∈ registered bind as sg) :
    (connected bind as)[p.2]? = some p.1 ∧ p.1.1 = sg := by
  obtain ⟨hmem, hp⟩ := List.mem_filter.mp hp
  refine ⟨List.mk_mem_zipIdx_iff_getElem?.mp hmem, ?_⟩
  have : p.1.1 = sg ∧ disconnected as sg p.2 = false := by simpa using hp
  exact this.1

/-! ## The state as a function of the history -/

/-- The joint of a connection. -/
def jointOf (p : (Nat × κ) × Nat) : Joint κ :=
  { callback := p.1.2, connection := p.2, owner := none }

/-- A signal as its history has it. -/
def signalOf (bind : μ → π → κ) (as : List (SubscriptionAct κ μ π)) (sg : Nat) : Signal κ :=
  { locked := signalLocked as sg, callbacks := (registered bind as sg).map jointOf
    signals := [], deleters := [] }

/-- The state is the one that the history tells. -/
structure Tracks (bind : μ → π → κ) (as : List (SubscriptionAct κ μ π)) (s : Subscriptions κ) :
    Prop where
  connections : s.connections =
    (connected bind as).zipIdx.map fun (r, i) => Heap.prepareConnection r.1 i
  data : s.heap.data = (connected bind as).zipIdx.map fun (_, i) => locked as i
  signals : ∀ sg signal, s.heap.signal? sg = some signal → signal = signalOf bind as sg
  /-- Nothing has been done to a signal that does not exist. -/
  unborn : ∀ sg, s.heap.signal? sg = none → signalLocked as sg = false ∧ registered bind as sg = []
  /-- Nothing has been done to a connection that does not exist. -/
  fresh : ∀ i, (connected bind as).length ≤ i →
    locked as i = false ∧ ∀ sg, disconnected as sg i = false

namespace Tracks

theorem init : Tracks bind ([] : List (SubscriptionAct κ μ π)) (Subscriptions.init κ) where
  connections := rfl
  data := rfl
  signals := by simp [Subscriptions.init, Heap.init, Heap.signal?]
  unborn _ _ := ⟨rfl, rfl⟩
  fresh _ _ := ⟨rfl, fun _ => rfl⟩

theorem length_data (ht : Tracks bind as s) : s.heap.data.length = (connected bind as).length := by
  rw [ht.data]
  simp

/-- The handle of a connection. -/
theorem getElem?_connections (ht : Tracks bind as s) {i : Nat} {conn : Connection}
    (hc : s.connections[i]? = some conn) :
    ∃ r, (connected bind as)[i]? = some r ∧ conn = Heap.prepareConnection r.1 i := by
  rw [ht.connections, List.getElem?_map, List.getElem?_zipIdx] at hc
  cases hr : (connected bind as)[i]? with
  | none =>
    rw [hr] at hc
    cases hc
  | some r =>
    rw [hr] at hc
    exact ⟨r, rfl, by simpa using hc.symm⟩

theorem isLocked (ht : Tracks bind as s) (i : Nat) : s.heap.isLocked i = locked as i := by
  unfold Heap.isLocked
  rw [ht.data, List.getElem?_map, List.getElem?_zipIdx]
  rcases Nat.lt_or_ge i (connected bind as).length with hlt | hge
  · simp [List.getElem?_eq_getElem hlt]
  · simp [List.getElem?_eq_none hge, (ht.fresh i hge).1]

theorem callbacks (ht : Tracks bind as s) (sg : Nat) :
    s.heap.callbacks sg = (registered bind as sg).map jointOf := by
  cases hsig : s.heap.signal? sg with
  | none =>
    rw [(ht.unborn sg hsig).2]
    simp [Heap.callbacks, hsig]
  | some signal =>
    rw [Heap.callbacks_eq hsig, ht.signals sg signal hsig]
    rfl

theorem distinct (ht : Tracks bind as s) : s.heap.Distinct where
  nodup sg := by
    rw [ht.callbacks sg, List.map_map]
    exact nodup_registered sg
  exists_data sg jnt hj := by
    rw [ht.callbacks sg] at hj
    obtain ⟨p, hp, rfl⟩ := List.mem_map.mp hj
    obtain ⟨hlt, -⟩ := List.getElem?_eq_some_iff.mp (of_mem_registered hp).1
    rw [ht.length_data]
    exact hlt

theorem newSignal (ht : Tracks bind as s) :
    Tracks bind (as ++ [.newSignal]) { s with heap := s.heap.newSignal } := by
  have hreg : ∀ sg, registered bind (as ++ [.newSignal]) sg = registered bind as sg :=
    registered_of_silent rfl fun _ _ => rfl
  have hconn : connected bind (as ++ [.newSignal]) = connected bind as := connected_of_none as rfl
  have hlock : ∀ sg, signalLocked (as ++ [.newSignal]) sg = signalLocked as sg :=
    fun sg => signalLocked_snoc sg
  have hlocked : ∀ i, locked (as ++ [.newSignal]) i = locked as i := fun i => locked_snoc i
  have hgone : ∀ sg i, disconnected (as ++ [.newSignal]) sg i = disconnected as sg i := by
    intro sg i
    rw [disconnected_snoc]
    exact Bool.or_false _
  refine ⟨?_, ?_, ?_, ?_, ?_⟩
  · rw [hconn]
    exact ht.connections
  · simp only [hconn, hlocked]
    exact ht.data
  · intro sg signal hsig
    rw [Heap.signal?_newSignal] at hsig
    unfold signalOf
    rw [hlock, hreg]
    split_ifs at hsig with heq
    · have hnone : s.heap.signal? sg = none := by simp [Heap.signal?, heq]
      obtain ⟨hl, hr⟩ := ht.unborn sg hnone
      rw [hl, hr]
      exact (Option.some.inj hsig).symm
    · exact ht.signals sg signal hsig
  · intro sg hsig
    rw [Heap.signal?_newSignal] at hsig
    rw [hlock, hreg]
    split_ifs at hsig
    exact ht.unborn sg hsig
  · intro i hi
    rw [hconn] at hi
    simp only [hlocked, hgone]
    exact ht.fresh i hi

/-- A call that connects nothing and constructs nothing, of a connection or a signal that exists. -/
theorem of_connects_none (ht : Tracks bind as s) (hc : a.connects bind = none)
    (hlocks : ∀ i, (connected bind as).length ≤ i → a.locks i = none)
    (hgone : ∀ i, (connected bind as).length ≤ i → ∀ sg, a.disconnects sg i = false)
    (hborn : ∀ sg, s.heap.signal? sg = none → a.locksSignal sg = none)
    (hconns : s'.connections = s.connections)
    (hdata : s'.heap.data = (connected bind as).zipIdx.map fun (_, i) => locked (as ++ [a]) i)
    (hsigs : ∀ sg, s'.heap.signal? sg =
      (s.heap.signal? sg).map fun _ => signalOf bind (as ++ [a]) sg) :
    Tracks bind (as ++ [a]) s' := by
  have hconn := connected_of_none as hc
  refine ⟨?_, ?_, ?_, ?_, ?_⟩
  · rw [hconns, hconn]
    exact ht.connections
  · rw [hdata, hconn]
  · intro sg signal hsig
    rw [hsigs sg] at hsig
    obtain ⟨_, -, rfl⟩ := Option.map_eq_some_iff.mp hsig
    rfl
  · intro sg hsig
    rw [hsigs sg, Option.map_eq_none_iff] at hsig
    obtain ⟨hl, hr⟩ := ht.unborn sg hsig
    rw [signalLocked_snoc, hborn sg hsig, registered_of_connects_none hc, hr]
    exact ⟨hl, rfl⟩
  · intro i hi
    rw [hconn] at hi
    obtain ⟨hl, hd⟩ := ht.fresh i hi
    rw [locked_snoc, hlocks i hi]
    refine ⟨hl, fun sg => ?_⟩
    rw [disconnected_snoc, hd sg, hgone i hi sg]
    rfl

theorem emit (ht : Tracks bind as s) (sg : Nat) : Tracks bind (as ++ [.emit sg]) s := by
  have hlock : ∀ i, locked (as ++ [.emit sg]) i = locked as i := fun i => locked_snoc i
  refine ht.of_connects_none rfl (fun _ _ => rfl) (fun _ _ _ => rfl) (fun _ _ => rfl) rfl ?_ ?_
  · simp only [hlock]
    exact ht.data
  · intro sg'
    cases hsig : s.heap.signal? sg' with
    | none => rfl
    | some signal =>
      rw [ht.signals sg' signal hsig, Option.map_some]
      unfold signalOf
      rw [registered_of_silent rfl fun _ _ => rfl, signalLocked_snoc]
      rfl

theorem setLock (ht : Tracks bind as s) {i : Nat} {lock : Bool} {conn : Connection} {heap : Heap κ}
    (hc : s.connections[i]? = some conn) (hs : s.heap.setLock conn lock = some heap) :
    Tracks bind (as ++ [.setLock i lock]) { s with heap := heap } := by
  obtain ⟨r, hr, rfl⟩ := ht.getElem?_connections hc
  obtain rfl : _ = heap := Option.some.inj hs
  obtain ⟨hlt, -⟩ := List.getElem?_eq_some_iff.mp hr
  refine ht.of_connects_none rfl ?_ (fun _ _ _ => rfl) (fun _ _ => rfl) rfl ?_ ?_
  · intro j hj
    exact if_neg (by omega)
  · refine List.ext_getElem? fun j => ?_
    simp only [ht.data, List.getElem?_set, List.getElem?_map, List.getElem?_zipIdx, List.length_map,
      List.length_zipIdx, locked_snoc, SubscriptionAct.locks, hlt]
    by_cases hij : i = j
    · subst hij
      simp [hr]
    · cases (connected bind as)[j]? <;> simp [hij]
  · intro sg
    show s.heap.signal? sg = _
    cases hsig : s.heap.signal? sg with
    | none => rfl
    | some signal =>
      rw [ht.signals sg signal hsig, Option.map_some]
      unfold signalOf
      rw [registered_of_silent rfl fun _ _ => rfl, signalLocked_snoc]
      rfl

theorem setSignalLock (ht : Tracks bind as s) {sg : Nat} {lock : Bool} {heap : Heap κ}
    (hs : s.heap.setSignalLock sg lock = some heap) :
    Tracks bind (as ++ [.setSignalLock sg lock]) { s with heap := heap } := by
  obtain ⟨signal, hsig, rfl⟩ := Option.map_eq_some_iff.mp hs
  have hlock : ∀ i, locked (as ++ [.setSignalLock sg lock]) i = locked as i := fun i => locked_snoc i
  refine ht.of_connects_none rfl (fun _ _ => rfl) (fun _ _ _ => rfl) ?_ rfl ?_ ?_
  · intro sg' hnone
    refine if_neg ?_
    rintro rfl
    rw [hsig] at hnone
    cases hnone
  · simp only [hlock]
    exact ht.data
  · intro sg'
    show (s.heap.setSignal sg _).signal? sg' = _
    rw [Heap.signal?_setSignal hsig]
    unfold signalOf
    rw [registered_of_silent rfl fun _ _ => rfl, signalLocked_snoc]
    by_cases heq : sg' = sg
    · subst heq
      rw [hsig, ht.signals sg' signal hsig]
      simp [SubscriptionAct.locksSignal, signalOf]
    · cases hsig' : s.heap.signal? sg' with
      | none => simp [heq]
      | some signal' =>
        rw [ht.signals sg' signal' hsig']
        simp [heq, Ne.symm heq, SubscriptionAct.locksSignal, signalOf]

/-- A call of `connect`, by any of its overloads. -/
theorem connect (ht : Tracks bind as s) {sg : Nat} {fn : κ} {conn : Connection} {heap : Heap κ}
    (hc : a.connects bind = some (sg, fn)) (hlocks : ∀ i, a.locks i = none)
    (hgone : ∀ sg i, a.disconnects sg i = false) (hborn : ∀ sg, a.locksSignal sg = none)
    (hs : s.heap.connect sg fn none = some (conn, heap)) :
    Tracks bind (as ++ [a]) (s.keep (conn, heap)) := by
  obtain ⟨signal, hsig, rfl, -, rfl⟩ := Heap.connect_eq_some hs
  obtain ⟨hl, hd⟩ := ht.fresh _ (Nat.le_refl _)
  have hconn : connected bind (as ++ [a]) = connected bind as ++ [(sg, fn)] := by
    rw [connected_snoc, hc, Option.toList_some]
  have hreg := registered_of_connects_some hc hgone hd
  have hlock : ∀ i, locked (as ++ [a]) i = locked as i := by
    intro i
    rw [locked_snoc, hlocks i]
    rfl
  have hslock : ∀ sg, signalLocked (as ++ [a]) sg = signalLocked as sg := by
    intro sg
    rw [signalLocked_snoc, hborn sg]
    rfl
  obtain ⟨hlt, -⟩ := List.getElem?_eq_some_iff.mp (Heap.signal?_eq_some.mp hsig)
  refine ⟨?_, ?_, ?_, ?_, ?_⟩
  · show s.connections ++ [Heap.prepareConnection sg s.heap.data.length] = _
    rw [hconn, List.zipIdx_append, List.map_append, ← ht.connections, ht.length_data]
    simp
  · show s.heap.data ++ [false] = _
    rw [hconn, List.zipIdx_append, List.map_append]
    simp only [hlock, ← ht.data]
    simp [hl]
  · intro sg' signal' hsig'
    unfold signalOf
    rw [hslock, hreg]
    by_cases heq : sg' = sg
    · subst heq
      simp only [Subscriptions.keep, Heap.signal?, List.getElem?_set_self hlt, Option.join_some,
        Option.some.injEq] at hsig'
      rw [← hsig', ht.signals sg' signal hsig, ht.length_data, if_pos rfl, List.map_append]
      rfl
    · have hold : s.heap.signal? sg' = some signal' := by
        simpa only [Subscriptions.keep, Heap.signal?, List.getElem?_set_ne (Ne.symm heq)] using hsig'
      rw [ht.signals sg' signal' hold, if_neg (Ne.symm heq), List.append_nil]
      rfl
  · intro sg' hnone
    have hne : sg ≠ sg' := by
      rintro rfl
      simp [Subscriptions.keep, Heap.signal?, hlt] at hnone
    have hold : s.heap.signal? sg' = none := by
      simpa only [Subscriptions.keep, Heap.signal?, List.getElem?_set_ne hne] using hnone
    rw [hslock, hreg, if_neg hne, List.append_nil]
    exact ht.unborn sg' hold
  · intro i hi
    rw [hconn, List.length_append, List.length_singleton] at hi
    obtain ⟨hl', hd'⟩ := ht.fresh i (by omega)
    rw [hlock]
    refine ⟨hl', fun sg' => ?_⟩
    rw [disconnected_snoc, hd', hgone]
    rfl

/-- The two operations that disconnect. -/
theorem asks_eq_some {sg i : Nat} (ha : s.asks a = some (sg, i)) :
    ∃ conn, s.connections[i]? = some conn ∧
      (a = .disconnect i ∧ conn.deleter = some sg ∨ a = .disconnectConnection sg i) := by
  cases a with
  | disconnect j =>
    obtain ⟨conn, hc, ha⟩ := Option.bind_eq_some_iff.mp ha
    obtain ⟨sg', hd, ha⟩ := Option.map_eq_some_iff.mp ha
    obtain ⟨rfl, rfl⟩ := Prod.mk.inj ha
    exact ⟨conn, hc, .inl ⟨rfl, hd⟩⟩
  | disconnectConnection sg' j =>
    obtain ⟨conn, hc, ha⟩ := Option.map_eq_some_iff.mp ha
    obtain ⟨rfl, rfl⟩ := Prod.mk.inj ha
    exact ⟨conn, hc, .inr rfl⟩
  | newSignal => cases ha
  | connect => cases ha
  | connectMove => cases ha
  | connectMemFn => cases ha
  | setLock => cases ha
  | setSignalLock => cases ha
  | emit => cases ha

/-- What a disconnect asks for, as its history has it. -/
theorem disconnects_of_asks (ht : Tracks bind as s) {sg i : Nat} (ha : s.asks a = some (sg, i)) :
    i < (connected bind as).length ∧
      ∀ sg', ∀ p ∈ registered bind as sg', a.disconnects sg' p.2 = (sg' == sg && p.2 == i) := by
  obtain ⟨conn, hc, hdisc⟩ := asks_eq_some ha
  obtain ⟨r, hr, rfl⟩ := ht.getElem?_connections hc
  refine ⟨(List.getElem?_eq_some_iff.mp hr).1, fun sg' p hp => ?_⟩
  rcases hdisc with ⟨rfl, hd⟩ | rfl
  · obtain rfl : r.1 = sg := Option.some.inj hd
    obtain ⟨hp, hsg⟩ := of_mem_registered hp
    by_cases hj : i = p.2
    · subst hj
      obtain rfl := Option.some.inj (hr.symm.trans hp)
      simp [SubscriptionAct.disconnects, hsg]
    · simp [SubscriptionAct.disconnects, beq_false_of_ne hj, beq_false_of_ne (Ne.symm hj)]
  · simp only [SubscriptionAct.disconnects, BEq.comm (a := sg), BEq.comm (a := i)]

/-- A disconnect goes to `destroy_connection` of the signal asked. -/
theorem step_of_asks (ht : Tracks bind as s) {sg i : Nat} (ha : s.asks a = some (sg, i)) :
    s.step bind a =
      (s.heap.destroyConnection sg (some i)).map fun heap => { s with heap := heap } := by
  obtain ⟨conn, hc, hdisc⟩ := asks_eq_some ha
  obtain ⟨r, hr, rfl⟩ := ht.getElem?_connections hc
  rcases hdisc with ⟨rfl, hd⟩ | rfl
  · obtain rfl : r.1 = sg := Option.some.inj hd
    simp [Subscriptions.step, hc, Heap.disconnect, Heap.prepareConnection]
  · simp [Subscriptions.step, hc, Heap.disconnectConnection, Heap.prepareConnection]

/-- `destroy_connection` of joints without owners changes the signal alone. -/
theorem destroyConnection_eq (ht : Tracks bind as s) {sg : Nat} {signal : Signal κ}
    (hsig : s.heap.signal? sg = some signal) (c : Option Nat) :
    s.heap.destroyConnection sg c = some (s.heap.setSignal sg (signal.without c)) := by
  have hcalls : signal.callbacks = (registered bind as sg).map jointOf := by
    rw [ht.signals sg signal hsig]
    rfl
  have hnd : (signal.callbacks.map (·.connection)).Nodup := by
    rw [← Heap.callbacks_eq hsig]
    exact ht.distinct.nodup sg
  unfold Heap.destroyConnection
  rw [hsig]
  simp only [Option.bind_eq_bind, Option.bind_some]
  cases hf : signal.callbacks.find? fun jnt => some jnt.connection == c with
  | none =>
    have hself : signal.without c = signal := by
      have hnone := List.find?_eq_none.mp hf
      unfold Signal.without
      rw [List.filter_eq_self.mpr fun jnt hj => by simpa using hnone jnt hj]
    rw [hself, Heap.setSignal_self hsig]
    rfl
  | some jnt =>
    have howner : jnt.owner = none := by
      have hmem := List.mem_of_find?_eq_some hf
      rw [hcalls] at hmem
      obtain ⟨p, -, rfl⟩ := List.mem_map.mp hmem
      rfl
    simp only [Heap.clearOwner, howner, Option.bind_some]
    rw [Heap.eraseP_eq_filter hnd]
    rfl

/-- A disconnect connects nothing and sets no lock. -/
theorem silent_of_asks (bind : μ → π → κ) {p : Nat × Nat} (ha : s.asks a = some p) :
    a.connects bind = none ∧ (∀ i, a.locks i = none) ∧ ∀ sg, a.locksSignal sg = none := by
  obtain ⟨conn, -, ⟨rfl, -⟩ | rfl⟩ := asks_eq_some ha
  · exact ⟨rfl, fun _ => rfl, fun _ => rfl⟩
  · exact ⟨rfl, fun _ => rfl, fun _ => rfl⟩

/-- A disconnect names a connection that exists. -/
theorem disconnects_of_length_le (ht : Tracks bind as s) {sg i j : Nat}
    (ha : s.asks a = some (sg, i)) (hj : (connected bind as).length ≤ j) (sg' : Nat) :
    a.disconnects sg' j = false := by
  have hlt := (ht.disconnects_of_asks ha).1
  have hne : i ≠ j := by omega
  obtain ⟨conn, -, ⟨rfl, -⟩ | rfl⟩ := asks_eq_some ha
  · exact beq_false_of_ne hne
  · simp [SubscriptionAct.disconnects, hne]

/-- What a disconnect leaves of a signal. -/
theorem without_signalOf (ht : Tracks bind as s) {sg i : Nat} (ha : s.asks a = some (sg, i))
    (sg' : Nat) : signalOf bind (as ++ [a]) sg' =
      if sg' = sg then (signalOf bind as sg').without (some i) else signalOf bind as sg' := by
  obtain ⟨hc, -, hborn⟩ := silent_of_asks bind ha
  have hdisc := (ht.disconnects_of_asks ha).2 sg'
  have hlock : signalLocked (as ++ [a]) sg' = signalLocked as sg' := by
    rw [signalLocked_snoc, hborn]
    rfl
  unfold signalOf Signal.without
  rw [hlock, registered_of_connects_none hc]
  by_cases heq : sg' = sg
  · subst heq
    rw [if_pos rfl, List.filter_map]
    congr 2
    refine List.filter_congr ?_
    rintro ⟨r, j⟩ hp
    have := hdisc _ hp
    simp only at this
    simp [this, jointOf]
  · rw [if_neg heq]
    congr 2
    refine List.filter_eq_self.mpr ?_
    rintro ⟨r, j⟩ hp
    have := hdisc _ hp
    simp only at this
    simp [this, heq]

theorem disconnect (ht : Tracks bind as s) {sg i : Nat} (ha : s.asks a = some (sg, i))
    (hs : s.step bind a = some s') : Tracks bind (as ++ [a]) s' := by
  rw [ht.step_of_asks ha] at hs
  obtain ⟨heap, hd, rfl⟩ := Option.map_eq_some_iff.mp hs
  obtain ⟨signal, hsig, -⟩ := Option.bind_eq_some_iff.mp hd
  rw [ht.destroyConnection_eq hsig, Option.some.injEq] at hd
  subst hd
  obtain ⟨hc, hlocks, hborn⟩ := silent_of_asks bind ha
  have hlock : ∀ i, locked (as ++ [a]) i = locked as i := by
    intro j
    rw [locked_snoc, hlocks j]
    rfl
  refine ht.of_connects_none hc (fun j _ => hlocks j) (fun j hj => ht.disconnects_of_length_le ha hj)
    (fun sg' _ => hborn sg') rfl ?_ ?_
  · simp only [hlock]
    exact ht.data
  · intro sg'
    show (s.heap.setSignal sg _).signal? sg' = _
    rw [Heap.signal?_setSignal hsig, ht.without_signalOf ha]
    by_cases heq : sg' = sg
    · subst heq
      rw [if_pos rfl, if_pos rfl, hsig, ht.signals sg' signal hsig]
      rfl
    · rw [if_neg heq, if_neg heq]
      cases hsig' : s.heap.signal? sg' with
      | none => rfl
      | some signal' =>
        rw [ht.signals sg' signal' hsig']
        rfl

/-- What one step preserves. -/
theorem step (ht : Tracks bind as s) (hs : s.step bind a = some s') : Tracks bind (as ++ [a]) s' := by
  cases a with
  | newSignal =>
    obtain rfl := Option.some.inj hs
    exact ht.newSignal
  | connect sg fn =>
    obtain ⟨⟨conn, heap⟩, hc, rfl⟩ := Option.map_eq_some_iff.mp hs
    exact ht.connect rfl (fun _ => rfl) (fun _ _ => rfl) (fun _ => rfl) hc
  | connectMove sg fn =>
    obtain ⟨⟨conn, heap⟩, hc, rfl⟩ := Option.map_eq_some_iff.mp hs
    exact ht.connect rfl (fun _ => rfl) (fun _ _ => rfl) (fun _ => rfl) hc
  | connectMemFn sg p fn =>
    obtain ⟨⟨conn, heap⟩, hc, rfl⟩ := Option.map_eq_some_iff.mp hs
    exact ht.connect rfl (fun _ => rfl) (fun _ _ => rfl) (fun _ => rfl) hc
  | disconnect i =>
    obtain ⟨conn, hc, -⟩ := Option.bind_eq_some_iff.mp hs
    obtain ⟨r, hr, rfl⟩ := ht.getElem?_connections hc
    have ha : s.asks (.disconnect i : SubscriptionAct κ μ π) = some (r.1, i) := by
      simp [Subscriptions.asks, hc, Heap.prepareConnection]
    exact ht.disconnect ha hs
  | disconnectConnection sg i =>
    obtain ⟨conn, hc, -⟩ := Option.bind_eq_some_iff.mp hs
    have ha : s.asks (.disconnectConnection sg i : SubscriptionAct κ μ π) = some (sg, i) := by
      simp [Subscriptions.asks, hc]
    exact ht.disconnect ha hs
  | setLock i lock =>
    obtain ⟨conn, hc, hs⟩ := Option.bind_eq_some_iff.mp hs
    obtain ⟨heap, hl, rfl⟩ := Option.map_eq_some_iff.mp hs
    exact ht.setLock hc hl
  | setSignalLock sg lock =>
    obtain ⟨heap, hl, rfl⟩ := Option.map_eq_some_iff.mp hs
    exact ht.setSignalLock hl
  | emit sg =>
    obtain ⟨calls, -, rfl⟩ := Option.map_eq_some_iff.mp hs
    exact ht.emit sg

/-- What a whole run preserves. -/
theorem of_run (hr : run (Subscriptions.step bind) (Subscriptions.init κ) as = some s) :
    Tracks bind as s :=
  run_induction (P := fun as s => Tracks bind as s) init (fun _ _ _ _ ht hs => ht.step hs) hr

theorem unlinked (ht : Tracks bind as s) : s.heap.Unlinked := by
  intro sg signal hsig
  rw [ht.signals sg signal hsig]
  exact ⟨rfl, rfl⟩

/-- An emission invokes what the history expects. -/
theorem emission (ht : Tracks bind as s) {sg : Nat} {signal : Signal κ}
    (hsig : s.heap.signal? sg = some signal) :
    ∃ calls, s.heap.emission sg = some calls ∧
      calls.invoked.map (·.callback) = expected bind as sg := by
  refine ⟨_, Heap.emission_own hsig (ht.unlinked sg signal hsig).1, ?_⟩
  rw [ht.signals sg signal hsig]
  unfold expected signalOf
  by_cases hl : signalLocked as sg = true
  · simp [hl]
  · have hlock : ∀ i, s.heap.isLocked i = locked as i := ht.isLocked
    rw [if_neg hl, if_neg hl, callLoop_invoked, List.filter_map, List.map_map]
    simp only [Function.comp_def, hlock, jointOf]

end Tracks

namespace Subscriptions

/-- An emission of a signal invokes the callbacks connected to it, less those disconnected or locked, in the
    order in which they were connected and each once. A disconnect takes the joint of its connection out of
    the signal asked and changes nothing else; it changes nothing when it is repeated, or when the signal
    does not hold the connection. -/
theorem emission_registered (as : List (SubscriptionAct κ μ π))
    (hr : run (step bind) (init κ) as = some s) :
    (∀ sg signal, s.heap.signal? sg = some signal → ∃ calls, s.heap.emission sg = some calls ∧
      calls.invoked.map (·.callback) = expected bind as sg) ∧
    ∀ a sg i signal, s.asks a = some (sg, i) → s.heap.signal? sg = some signal →
      ∃ s', s.step bind a = some s' ∧
        s' = { s with heap := s.heap.setSignal sg (signal.without (some i)) } ∧
        s'.step bind a = some s' ∧
        ((∀ jnt ∈ signal.callbacks, jnt.connection ≠ i) → s' = s) := by
  have ht : Tracks bind as s := .of_run hr
  refine ⟨fun sg signal hsig => ht.emission hsig, fun a sg i signal ha hsig => ?_⟩
  have hstep : s.step bind a =
      some { s with heap := s.heap.setSignal sg (signal.without (some i)) } := by
    rw [ht.step_of_asks ha, ht.destroyConnection_eq hsig]
    rfl
  refine ⟨_, hstep, rfl, ?_, fun hnone => ?_⟩
  · have ht' := ht.step hstep
    have hsig' : (s.heap.setSignal sg (signal.without (some i))).signal? sg =
        some (signal.without (some i)) := by
      rw [Heap.signal?_setSignal hsig, if_pos rfl]
    have hagain : (signal.without (some i)).without (some i) = signal.without (some i) := by
      simp [Signal.without]
    have ha' : ({ s with heap := s.heap.setSignal sg (signal.without (some i)) } :
        Subscriptions κ).asks a = some (sg, i) := ha
    rw [ht'.step_of_asks ha', ht'.destroyConnection_eq hsig', hagain, Heap.setSignal_self hsig']
    rfl
  · have hself : signal.without (some i) = signal := by
      unfold Signal.without
      rw [List.filter_eq_self.mpr fun jnt hj => by simpa using hnone jnt hj]
    rw [hself, Heap.setSignal_self hsig]

/-- Three callbacks of two signals, one of them a member function: the first is disconnected through its
    handle, twice, and asked of the wrong signal; the last is locked. -/
theorem emission_registered_three :
    expected (fun (m p : Nat) => m * 10 + p)
        [.newSignal, .newSignal, .connect 0 1, .connectMemFn 0 2 3, .connect 1 4, .connectMove 0 5,
          .disconnect 0, .disconnectConnection 1 1, .disconnect 0, .setLock 3 true, .emit 0] 0 = [32] ∧
      ∃ s, run (step fun (m p : Nat) => m * 10 + p) (init Nat)
          [.newSignal, .newSignal, .connect 0 1, .connectMemFn 0 2 3, .connect 1 4, .connectMove 0 5,
            .disconnect 0, .disconnectConnection 1 1, .disconnect 0, .setLock 3 true, .emit 0] = some s ∧
        ∃ calls, s.heap.emission 0 = some calls ∧
          calls.invoked.map (·.callback) = expected (fun (m p : Nat) => m * 10 + p)
            [.newSignal, .newSignal, .connect 0 1, .connectMemFn 0 2 3, .connect 1 4, .connectMove 0 5,
              .disconnect 0, .disconnectConnection 1 1, .disconnect 0, .setLock 3 true, .emit 0] 0 :=
  ⟨by decide, _, rfl, (emission_registered _ rfl).1 0 _ rfl⟩

end Subscriptions

end Lnetlib.Lsignal
