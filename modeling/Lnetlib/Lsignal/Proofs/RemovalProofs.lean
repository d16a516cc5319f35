import Lnetlib.Lsignal.Removal
import Lnetlib.Lsignal.Proofs.HeapProofs

/-!
# Proofs: removing all connections of a signal

`disconnect_all` leaves the joints of the signal where they are. A program that unlinks the signal, takes the
locks off it and off one of its connections and emits sees that.
-/

namespace Lnetlib.Lsignal.Heap

variable {κ : Type} {h h' : Heap κ} {sg : Nat} {signal : Signal κ}

/-- `disconnect_all` changes the slots only. -/
theorem disconnectAll_signals (hd : h.disconnectAll sg = some h') : h'.signals = h.signals := by
  obtain ⟨signal, -, hclear⟩ := Option.bind_eq_some_iff.mp hd
  exact (clearOwners_eq_some hclear).1

/-- The signal after a connection of it has been destroyed. -/
theorem signal?_destroyConnection {connection : Nat} (hsig : h.signal? sg = some signal)
    (hd : h.destroyConnection sg (some connection) = some h') :
    h'.signal? sg = some { signal with
      callbacks := signal.callbacks.eraseP fun jnt => some jnt.connection == some connection } := by
  obtain ⟨signal', hsig', hd⟩ := Option.bind_eq_some_iff.mp hd
  obtain rfl := Option.some.inj (hsig.symm.trans hsig')
  cases hf : signal.callbacks.find? fun jnt => some jnt.connection == some connection with
  | none =>
    rw [hf] at hd
    obtain rfl := Option.some.inj hd
    have hself := List.eraseP_of_forall_not (List.find?_eq_none.mp hf)
    rw [hsig, hself]
  | some jnt =>
    rw [hf] at hd
    obtain ⟨h₁, hclear, hd⟩ := Option.bind_eq_some_iff.mp hd
    obtain rfl := Option.some.inj hd
    have hone : h.clearOwners [jnt] = some h₁ := by simp [clearOwners, hclear]
    have hsig₁ : h₁.signal? sg = some signal :=
      (signal?_congr (clearOwners_eq_some hone).1 sg).trans hsig
    rw [signal?_setSignal hsig₁, if_pos rfl]

theorem map_eraseP (js : List (Joint κ)) (connection : Nat) :
    (js.eraseP fun jnt => some jnt.connection == some connection).map (·.connection) =
      (js.map (·.connection)).erase connection := by
  induction js with
  | nil => rfl
  | cons jnt js ih =>
    by_cases hc : jnt.connection = connection
    · simp [hc]
    · simpa [hc] using ih

/-- Once each connection has been disconnected, no joint is left, and nothing else of the signal has
    changed. -/
theorem disconnectEach_signal {connections : List Nat} (hsig : h.signal? sg = some signal)
    (hperm : List.Perm (signal.callbacks.map (·.connection)) connections)
    (hd : h.disconnectEach sg connections = some h') :
    h'.signal? sg = some { signal with callbacks := [] } := by
  induction connections generalizing h signal with
  | nil =>
    obtain rfl := Option.some.inj hd
    have hnil : signal.callbacks = [] := List.map_eq_nil_iff.mp hperm.eq_nil
    rw [hsig, ← hnil]
  | cons connection connections ih =>
    obtain ⟨h₁, hone, hrest⟩ := Option.bind_eq_some_iff.mp
      (hd : (h.disconnectConnection sg (prepareConnection sg connection)).bind _ = some h')
    have hsig₁ := signal?_destroyConnection hsig hone
    have herase := hperm.erase connection
    rw [List.erase_cons_head, ← map_eraseP] at herase
    have hsig' := ih hsig₁ herase hrest
    exact hsig'

/-- The operations after which an emission shows whether the signal has a joint with the connection. -/
def probe (sg : Nat) (linked : List Nat) (connection : Nat) : List (HeapAct κ) :=
  linked.map (.disconnectSignal sg) ++
    [.setSignalLock sg false, .setLock (prepareConnection sg connection) false, .emit sg]

/-- All links of a signal are removed one by one. -/
theorem observe_unlink (linked : List Nat) (hsig : h.signal? sg = some signal)
    (hlinked : signal.signals = linked) (as : List (HeapAct κ)) :
    h.observe (linked.map (.disconnectSignal sg) ++ as) =
      (linked.map fun _ => Seen.done) ++
        (h.setSignal sg { signal with signals := [] }).observe as := by
  induction linked generalizing h signal with
  | nil =>
    have hself : ({ signal with signals := [] } : Signal κ) = signal := by rw [← hlinked]
    rw [hself, setSignal_self hsig]
    rfl
  | cons child linked ih =>
    have hact : h.act (.disconnectSignal sg child) =
        some (h.setSignal sg { signal with signals := linked }, .done) := by
      simp [act, disconnectSignal, hsig, hlinked]
    have hsig₁ : (h.setSignal sg { signal with signals := linked }).signal? sg =
        some { signal with signals := linked } := by
      rw [signal?_setSignal hsig, if_pos rfl]
    have hrest := ih hsig₁ rfl
    rw [List.map_cons, List.cons_append, observe, hact]
    dsimp only
    rw [hrest]
    simp [setSignal, List.set_set]

/-- What the probe sees: the callbacks of the signal that are not locked once the connection has been
    unlocked. -/
theorem observe_probe (hsig : h.signal? sg = some signal) (connection : Nat) :
    h.observe (probe sg signal.signals connection) = (signal.signals.map fun _ => Seen.done) ++
      [.done, .done, .emitted
        ((signal.callbacks.filter fun jnt =>
          !((h.data.set connection false)[jnt.connection]?.getD false)).map (·.callback))
        ((callLoop (fun c => (h.data.set connection false)[c]?.getD false) signal.callbacks).result.map
          (·.callback))] := by
  rw [probe, observe_unlink signal.signals hsig rfl]
  let unlinked := h.setSignal sg { signal with signals := [] }
  have hsig₁ : unlinked.signal? sg = some { signal with signals := [] } := by
    rw [signal?_setSignal hsig, if_pos rfl]
  let opened := unlinked.setSignal sg { signal with signals := [], locked := false }
  have hsig₂ : opened.signal? sg = some { signal with signals := [], locked := false } := by
    rw [signal?_setSignal hsig₁, if_pos rfl]
  let ready : Heap κ := { opened with data := h.data.set connection false }
  have hsig₃ : ready.signal? sg = some { signal with signals := [], locked := false } := hsig₂
  have hemit : ready.emission sg = some (callLoop ready.isLocked signal.callbacks) :=
    emission_own hsig₃ rfl
  have h₁ : unlinked.act (.setSignalLock sg false) = some (opened, .done) := by
    simp only [act, setSignalLock, hsig₁, Option.map_some]
    rfl
  have h₂ : opened.act (.setLock (prepareConnection sg connection) false) = some (ready, .done) := rfl
  have h₃ : ready.act (.emit sg) = some (ready, .emitted
      ((callLoop ready.isLocked signal.callbacks).invoked.map (·.callback))
      ((callLoop ready.isLocked signal.callbacks).result.map (·.callback))) := by
    simp only [act, hemit, Option.map_some]
  congr 1
  show unlinked.observe _ = _
  simp only [observe, h₁, h₂, h₃, callLoop_invoked]
  rfl

/-- **Removing all connections.** `disconnect_all` does the same as disconnecting the connections one by one,
    as far as any later operation can tell, exactly if the signal has no connection. -/
theorem sameAsEach_iff (hsig : h.signal? sg = some signal) :
    h.SameAsEach sg ↔ signal.callbacks = [] := by
  have hjs := callbacks_eq hsig
  constructor
  · intro hsame
    by_contra hne
    obtain ⟨jnt, hj⟩ := List.exists_mem_of_ne_nil _ hne
    obtain ⟨all, each, hall, heach, -, hobs⟩ := hsame _ (List.Perm.refl _)
    rw [hjs] at heach
    have hsig_all : all.signal? sg = some signal :=
      (signal?_congr (disconnectAll_signals hall) sg).trans hsig
    have hsig_each := disconnectEach_signal hsig (List.Perm.refl _) heach
    -- the emission of the probe invokes the callback of the joint that is left
    have hseen := hobs (probe sg signal.signals jnt.connection)
    have hseen_each := observe_probe hsig_each jnt.connection
    rw [observe_probe hsig_all] at hseen
    rw [hseen_each] at hseen
    have hinvoked := (Seen.emitted.inj (List.cons.inj (List.cons.inj (List.cons.inj
      (List.append_cancel_left hseen)).2).2).1).1
    have hmem : jnt.callback ∈ (signal.callbacks.filter fun j =>
        !((all.data.set jnt.connection false)[j.connection]?.getD false)).map (·.callback) := by
      apply List.mem_map_of_mem
      refine List.mem_filter.mpr ⟨hj, ?_⟩
      by_cases hlt : jnt.connection < all.data.length
      · simp [hlt]
      · simp [hlt]
    rw [hinvoked] at hmem
    exact absurd hmem List.not_mem_nil
  · intro hnil connections hperm
    rw [hjs, hnil] at hperm
    obtain rfl := hperm.nil_eq
    refine ⟨h, h, ?_, rfl, rfl, fun _ => rfl⟩
    simp [disconnectAll, hsig, hnil, clearOwners]

/-- A signal with three connections, one of them owned and one locked, and a locked signal that has a link to
    it and no connections. -/
def severalConnections : Heap String :=
  { signals :=
      [some ⟨false, [⟨"a", 0, none⟩, ⟨"b", 1, some 0⟩, ⟨"c", 2, none⟩], [], [1]⟩, some ⟨true, [], [0], []⟩]
    slots := [some ⟨some 1, some 0⟩]
    data := [false, false, true] }

theorem sameAsEach_iff_severalConnections :
    ¬ severalConnections.SameAsEach 0 ∧ severalConnections.SameAsEach 1 := by
  have hfirst : severalConnections.signal? 0 =
      some ⟨false, [⟨"a", 0, none⟩, ⟨"b", 1, some 0⟩, ⟨"c", 2, none⟩], [], [1]⟩ := rfl
  have hsecond : severalConnections.signal? 1 = some ⟨true, [], [0], []⟩ := rfl
  refine ⟨fun hsame => ?_, (sameAsEach_iff hsecond).mpr rfl⟩
  exact absurd ((sameAsEach_iff hfirst).mp hsame) (List.cons_ne_nil _ _)

/-- A signal with one connection, which has no owner. -/
def oneConnection : Heap String :=
  { signals := [some ⟨false, [⟨"a", 0, none⟩], [], []⟩], slots := [], data := [false] }

/-- After `disconnect_all` the callback is still invoked. -/
theorem disconnectAll_keeps_callback :
    (((Heap.init String).newSignal.connect 0 "a" none).bind fun (_, h) => h.disconnectAll 0) =
      some oneConnection ∧
    oneConnection.observe [.emit 0] = [.emitted ["a"] (some "a")] ∧ ¬ oneConnection.SameAsEach 0 := by
  refine ⟨rfl, rfl, fun hsame => ?_⟩
  obtain ⟨all, each, hall, heach, -, hobs⟩ := hsame [0] (List.Perm.refl _)
  have hall' : oneConnection.disconnectAll 0 = some oneConnection := rfl
  obtain rfl := Option.some.inj (hall'.symm.trans hall)
  obtain rfl := Option.some.inj heach
  exact absurd (hobs [.emit 0]) (by decide)

end Lnetlib.Lsignal.Heap
