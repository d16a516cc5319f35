import Lnetlib.Lsignal.Model
import Mathlib.Data.List.Nodup

/-!
# Proofs: the operations of `lsignal` on the objects

What each operation does to the joints of every signal and to the links of every slot.
-/

namespace Lnetlib.Lsignal

variable {κ : Type} {h h' : Heap κ} {sg owner : Nat} {signal : Signal κ}

namespace Heap

@[simp] theorem setSignal_slots : (h.setSignal sg signal).slots = h.slots := rfl

@[simp] theorem setSignal_signals :
    (h.setSignal sg signal).signals = h.signals.set sg (some signal) := rfl

theorem signal?_eq_some : h.signal? sg = some signal ↔ h.signals[sg]? = some (some signal) := by
  unfold signal?
  rw [Option.join_eq_some_iff]

theorem lt_length_of_signal? (hsig : h.signal? sg = some signal) : sg < h.signals.length := by
  obtain ⟨hlt, -⟩ := List.getElem?_eq_some_iff.mp (signal?_eq_some.mp hsig)
  exact hlt

/-- There is fuel for an emission of a signal that exists. -/
theorem length_of_signal? (hsig : h.signal? sg = some signal) : ∃ n, h.signals.length = n + 1 :=
  Nat.exists_eq_add_one.mpr (Nat.zero_lt_of_lt (lt_length_of_signal? hsig))

/-- Only the list of signals counts. -/
theorem signal?_congr (hsigs : h'.signals = h.signals) (sg : Nat) : h'.signal? sg = h.signal? sg := by
  unfold signal?
  rw [hsigs]

theorem slot?_eq_some {conn : Connection} :
    h.slot? owner = some conn ↔ h.slots[owner]? = some (some conn) := by
  unfold slot?
  rw [Option.join_eq_some_iff]

/-- A signal replaced by itself. -/
theorem setSignal_self (hs : h.signal? sg = some signal) : h.setSignal sg signal = h := by
  obtain ⟨hlt, heq⟩ := List.getElem?_eq_some_iff.mp (signal?_eq_some.mp hs)
  unfold setSignal
  rw [← heq, List.set_getElem_self]

/-- The signals after one of them has been replaced. -/
theorem signal?_setSignal {old : Signal κ} (hs : h.signal? sg = some old) (sg' : Nat) :
    (h.setSignal sg signal).signal? sg' = if sg' = sg then some signal else h.signal? sg' := by
  have hlt := lt_length_of_signal? hs
  by_cases heq : sg' = sg
  · subst heq
    simp [signal?, hlt]
  · simp [signal?, heq, List.getElem?_set_ne (Ne.symm heq)]

/-- A destroyed signal is gone, and no other one is. -/
theorem signal?_destroyed (h : Heap κ) (sg sg' : Nat) :
    ({ h with signals := h.signals.set sg none } : Heap κ).signal? sg' =
      if sg' = sg then none else h.signal? sg' := by
  by_cases heq : sg' = sg
  · subst heq
    by_cases hlt : sg' < h.signals.length
    · simp [signal?, hlt]
    · simp [signal?, hlt]
  · simp [signal?, heq, List.getElem?_set_ne (Ne.symm heq)]

/-- The signals after one more has been constructed. -/
theorem signal?_newSignal (h : Heap κ) (sg : Nat) :
    h.newSignal.signal? sg =
      if sg = h.signals.length then some (Signal.construct κ) else h.signal? sg := by
  unfold newSignal signal?
  rcases Nat.lt_trichotomy sg h.signals.length with hlt | heq | hgt
  · simp [List.getElem?_append_left hlt, Nat.ne_of_lt hlt]
  · simp [heq]
  · simp [Nat.ne_of_gt hgt, List.getElem?_eq_none (show h.signals.length ≤ sg by omega),
      List.getElem?_append_right (show h.signals.length ≤ sg by omega),
      List.getElem?_eq_none (show [some (Signal.construct κ)].length ≤ sg - h.signals.length by
        simp; omega)]

/-- Clearing the owners of joints changes slots only: those that own one of the joints. -/
theorem clearOwners_eq_some {js : List (Joint κ)} (hc : h.clearOwners js = some h') :
    h'.signals = h.signals ∧ h'.data = h.data ∧ h'.slots.length = h.slots.length ∧
      (∀ jnt ∈ js, ∀ owner, jnt.owner = some owner → (h.slot? owner).isSome) ∧
      ∀ owner, h'.slots[owner]? =
        if ∃ jnt ∈ js, jnt.owner = some owner then some (some { data := none, deleter := none })
        else h.slots[owner]? := by
  induction js generalizing h with
  | nil =>
    obtain rfl : h = h' := Option.some.inj hc
    simp
  | cons jnt js ih =>
    obtain ⟨h₁, h₁eq, hrest⟩ := Option.bind_eq_some_iff.mp (hc : (h.clearOwner jnt).bind _ = _)
    obtain ⟨hsig, hdata, hlen, hlive, hslots⟩ := ih hrest
    unfold clearOwner at h₁eq
    cases ho : jnt.owner with
    | none =>
      rw [ho] at h₁eq
      obtain rfl : h = h₁ := Option.some.inj h₁eq
      refine ⟨hsig, hdata, hlen, ?_, ?_⟩
      · intro j hj
        rcases List.mem_cons.mp hj with rfl | hj
        · simp [ho]
        · exact hlive j hj
      · intro w
        rw [hslots w]
        simp [ho]
    | some o =>
      rw [ho] at h₁eq
      obtain ⟨conn, hconn, rfl⟩ := Option.map_eq_some_iff.mp h₁eq
      obtain ⟨hlt, -⟩ := List.getElem?_eq_some_iff.mp (slot?_eq_some.mp hconn)
      refine ⟨hsig, hdata, by rw [hlen]; simp [setSlot], ?_, ?_⟩
      · intro j hj w hw
        by_cases hwo : w = o
        · subst hwo
          rw [hconn]
          rfl
        · rcases List.mem_cons.mp hj with rfl | hj
          · exact absurd (Option.some.inj (hw.symm.trans ho)) hwo
          · have := hlive j hj w hw
            simpa [slot?, setSlot, List.getElem?_set_ne (Ne.symm hwo)] using this
      · intro w
        rw [hslots w]
        by_cases hwo : w = o
        · subst hwo
          simp [ho, setSlot, hlt]
        · simp [ho, setSlot, List.getElem?_set_ne (Ne.symm hwo), Ne.symm hwo]

theorem callbacks_eq (hs : h.signal? sg = some signal) : h.callbacks sg = signal.callbacks := by
  simp [callbacks, hs]

/-- No two joints of a signal share a `connection_data`, and each has one that exists. -/
structure Distinct (h : Heap κ) : Prop where
  nodup : ∀ sg, ((h.callbacks sg).map (·.connection)).Nodup
  exists_data : ∀ sg, ∀ jnt ∈ h.callbacks sg, jnt.connection < h.data.length

/-- A new connection: its joint is the last of its signal, its owner refers to it. -/
theorem connect_eq_some {fn : κ} {o : Option Nat} {conn : Connection}
    (hc : h.connect sg fn o = some (conn, h')) :
    ∃ signal, h.signal? sg = some signal ∧ conn = prepareConnection sg h.data.length ∧
      (∀ owner, o = some owner → (h.slot? owner).isSome) ∧
      h' = { signals := h.signals.set sg (some { signal with callbacks := signal.callbacks ++
                [{ callback := fn, connection := h.data.length, owner := o }] })
             slots := o.elim h.slots fun owner => h.slots.set owner (some conn)
             data := h.data ++ [false] } := by
  obtain ⟨⟨c, h₁⟩, hcreate, heq⟩ := Option.map_eq_some_iff.mp hc
  obtain ⟨rfl, rfl⟩ := Prod.mk.inj heq
  unfold createConnection at hcreate
  obtain ⟨h₂, hown, hcreate⟩ := Option.bind_eq_some_iff.mp hcreate
  obtain ⟨signal, hsig, hcreate⟩ := Option.bind_eq_some_iff.mp hcreate
  obtain ⟨rfl, rfl⟩ := Prod.mk.inj (Option.some.inj hcreate)
  unfold linkOwner at hown
  cases o with
  | none =>
    obtain rfl := Option.some.inj hown
    exact ⟨signal, hsig, rfl, by simp, rfl⟩
  | some owner =>
    obtain ⟨conn, hconn, rfl⟩ := Option.map_eq_some_iff.mp hown
    refine ⟨signal, hsig, rfl, ?_, rfl⟩
    intro w hw
    obtain rfl := Option.some.inj hw
    exact Option.isSome_iff_exists.mpr ⟨conn, hconn⟩

/-- Erasing the joint of a connection leaves the joints of the other connections. -/
theorem eraseP_eq_filter {js : List (Joint κ)} {c : Option Nat}
    (hnd : (js.map (·.connection)).Nodup) :
    (js.eraseP fun jnt => some jnt.connection == c) =
      js.filter fun jnt => !(some jnt.connection == c) := by
  induction js with
  | nil => rfl
  | cons jnt js ih =>
    obtain ⟨hnot, hnd⟩ := List.nodup_cons.mp (by simpa only [List.map_cons] using hnd)
    by_cases hj : some jnt.connection = c
    · subst hj
      have hrest : ∀ j ∈ js, (!(some j.connection == some jnt.connection)) = true := by
        intro j hj
        have hne : j.connection ≠ jnt.connection := fun heq => hnot (List.mem_map.mpr ⟨j, hj, heq⟩)
        simpa using hne
      rw [List.eraseP_cons_of_pos (by simp), List.filter_cons_of_neg (by simp),
        List.filter_eq_self.mpr hrest]
    · simp [hj, ih hnd]

/-- `destroy_connection` takes the joint of the connection out of the signal, and clears the link of its
    owner. -/
theorem destroyConnection_eq_some {c : Option Nat} (hd : h.Distinct)
    (hs : h.destroyConnection sg c = some h') :
    (∃ signal, h.signal? sg = some signal ∧ ∀ sg', h'.signal? sg' =
      if sg' = sg then some (signal.without c) else h.signal? sg') ∧
    h'.data = h.data ∧ h'.slots.length = h.slots.length ∧
    ∀ owner, h'.slots[owner]? =
      if ∃ jnt ∈ h.callbacks sg, some jnt.connection = c ∧ jnt.owner = some owner then
        some (some { data := none, deleter := none })
      else h.slots[owner]? := by
  obtain ⟨signal, hsig, hs⟩ := Option.bind_eq_some_iff.mp hs
  have hnd := hd.nodup sg
  rw [callbacks_eq hsig] at hnd ⊢
  cases hf : signal.callbacks.find? fun jnt => some jnt.connection == c with
  | none =>
    rw [hf] at hs
    obtain rfl : h = h' := Option.some.inj hs
    have hnone : ∀ jnt ∈ signal.callbacks, some jnt.connection ≠ c := by
      simpa using List.find?_eq_none.mp hf
    have hself : (signal.callbacks.filter fun jnt => !(some jnt.connection == c)) = signal.callbacks :=
      List.filter_eq_self.mpr fun jnt hj => by simpa using hnone jnt hj
    refine ⟨⟨signal, hsig, fun sg' => ?_⟩, rfl, rfl, fun owner => ?_⟩
    · by_cases heq : sg' = sg
      · rw [if_pos heq, heq, hsig, Signal.without, hself]
      · rw [if_neg heq]
    · rw [if_neg]
      rintro ⟨jnt, hj, hc, -⟩
      exact hnone jnt hj hc
  | some jnt =>
    rw [hf] at hs
    obtain ⟨h₁, hclear, hs⟩ := Option.bind_eq_some_iff.mp hs
    obtain rfl := Option.some.inj hs
    have hmem := List.mem_of_find?_eq_some hf
    have hc : some jnt.connection = c := by simpa using List.find?_some hf
    have hone : h.clearOwners [jnt] = some h₁ := by
      simp [clearOwners, hclear]
    obtain ⟨hsigs, hdata, hlen, -, hslots⟩ := clearOwners_eq_some hone
    have hsig₁ : h₁.signal? sg = some signal := (signal?_congr hsigs sg).trans hsig
    refine ⟨⟨signal, hsig, fun sg' => ?_⟩, hdata, hlen, fun owner => ?_⟩
    · rw [signal?_setSignal hsig₁, eraseP_eq_filter hnd, Signal.without, signal?_congr hsigs]
    · rw [setSignal_slots, hslots owner]
      have huniq : ∀ j ∈ signal.callbacks, some j.connection = c → j = jnt := by
        intro j hj hjc
        have hconn : j.connection = jnt.connection := Option.some.inj (hjc.trans hc.symm)
        exact List.inj_on_of_nodup_map hnd hj hmem hconn
      refine if_congr ⟨?_, ?_⟩ rfl rfl
      · rintro ⟨j, hj, ho⟩
        obtain rfl := List.mem_singleton.mp hj
        exact ⟨j, hmem, hc, ho⟩
      · rintro ⟨j, hj, hjc, ho⟩
        exact ⟨j, List.mem_singleton.mpr (huniq j hj hjc), ho⟩

/-- No signal has been linked to another. -/
def Unlinked (h : Heap κ) : Prop :=
  ∀ sg signal, h.signal? sg = some signal → signal.signals = [] ∧ signal.deleters = []

/-- An emission of a signal without linked signals runs its own callbacks. -/
theorem emission_own (hsig : h.signal? sg = some signal) (hnone : signal.signals = []) :
    h.emission sg = some
      (if signal.locked then { invoked := [], result := none } else callLoop h.isLocked signal.callbacks) := by
  obtain ⟨n, hn⟩ := length_of_signal? hsig
  unfold emission
  rw [hn]
  unfold emit
  by_cases hl : signal.locked = true
  · simp [hsig, hl]
  · simp [hsig, hl, hnone]

end Heap

end Lnetlib.Lsignal
