import Lnetlib.Lsignal.SlotLife
import Lnetlib.Lsignal.Proofs.HeapProofs

/-!
# Proofs: when destroyed slots leave nothing behind

What takes joints away without destroying a slot (`Shrinks`) keeps every invariant at once, so only the
steps that construct something and the destruction of a slot are left to look at.
-/

namespace Lnetlib.Lsignal

open Transition

variable {κ : Type} {h h' h₁ : Heap κ} {sg owner : Nat} {signal : Signal κ}

namespace Heap

/-- No joint names a destroyed slot. -/
def NoneNames (h : Heap κ) : Prop :=
  ∀ owner, h.SlotDestroyed owner → ∀ sg, ∀ jnt ∈ h.callbacks sg, jnt.owner ≠ some owner

/-- Signals and joints may have gone, but no slot has been destroyed. -/
structure Shrinks (h h' : Heap κ) : Prop where
  signal : ∀ sg signal', h'.signal? sg = some signal' → ∃ signal, h.signal? sg = some signal ∧
    signal'.callbacks.Sublist signal.callbacks ∧ signal'.signals = signal.signals ∧
    signal'.deleters = signal.deleters
  data : h'.data = h.data
  slots : h'.slots.length = h.slots.length
  destroyed : ∀ owner, h'.SlotDestroyed owner → h.SlotDestroyed owner

namespace Shrinks

theorem callbacks (hs : Shrinks h h') (sg : Nat) : (h'.callbacks sg).Sublist (h.callbacks sg) := by
  cases hsig : h'.signal? sg with
  | none => simp [Heap.callbacks, hsig]
  | some signal' =>
    obtain ⟨signal, hsig', hsub, -⟩ := hs.signal sg signal' hsig
    rw [callbacks_eq hsig, callbacks_eq hsig']
    exact hsub

theorem distinct (hs : Shrinks h h') (hd : h.Distinct) : h'.Distinct where
  nodup sg := (hd.nodup sg).sublist ((hs.callbacks sg).map _)
  exists_data sg jnt hj := by
    rw [hs.data]
    exact hd.exists_data sg jnt ((hs.callbacks sg).subset hj)

theorem unlinked (hs : Shrinks h h') (hu : h.Unlinked) : h'.Unlinked := by
  intro sg signal' hsig'
  obtain ⟨signal, hsig, -, hsignals, hdeleters⟩ := hs.signal sg signal' hsig'
  rw [hsignals, hdeleters]
  exact hu sg signal hsig

theorem noneNames (hs : Shrinks h h') (hn : h.NoneNames) : h'.NoneNames :=
  fun owner hw sg jnt hj => hn owner (hs.destroyed owner hw) sg jnt ((hs.callbacks sg).subset hj)

theorem refl : Shrinks h h where
  signal _ signal hsig := ⟨signal, hsig, .refl _, rfl, rfl⟩
  data := rfl
  slots := rfl
  destroyed _ hw := hw

end Shrinks

/-- Slots do not matter to what holds of the joints. -/
theorem Distinct.congr (hd : h.Distinct) (hsigs : h'.signals = h.signals) (hdata : h'.data = h.data) :
    h'.Distinct := by
  have hcalls : ∀ sg, h'.callbacks sg = h.callbacks sg := by
    intro sg
    unfold callbacks signal?
    rw [hsigs]
  refine ⟨fun sg => ?_, fun sg => ?_⟩
  · rw [hcalls sg]
    exact hd.nodup sg
  · rw [hcalls sg, hdata]
    exact hd.exists_data sg

theorem Unlinked.congr (hu : h.Unlinked) (hsigs : h'.signals = h.signals) : h'.Unlinked := by
  intro sg signal hsig
  rw [signal?_congr hsigs] at hsig
  exact hu sg signal hsig

theorem shrinks_of_destroyConnection {c : Option Nat} (hd : h.Distinct)
    (hs : h.destroyConnection sg c = some h') : Shrinks h h' := by
  obtain ⟨⟨signal, hsig, hsigs⟩, hdata, hlen, hslots⟩ := destroyConnection_eq_some hd hs
  refine ⟨fun sg' signal' hsig' => ?_, hdata, hlen, fun owner hw => ?_⟩
  · rw [hsigs sg'] at hsig'
    by_cases heq : sg' = sg
    · subst heq
      rw [if_pos rfl, Option.some.injEq] at hsig'
      subst hsig'
      exact ⟨signal, hsig, List.filter_sublist, rfl, rfl⟩
    · rw [if_neg heq] at hsig'
      exact ⟨signal', hsig', .refl _, rfl, rfl⟩
  · unfold SlotDestroyed at hw
    rw [hslots owner] at hw
    split_ifs at hw
    · cases hw
    · exact hw

theorem shrinks_of_disconnect {conn : Connection} (hd : h.Distinct)
    (hs : h.disconnect conn = some h') : Shrinks h h' := by
  unfold disconnect at hs
  cases hc : conn.deleter with
  | none =>
    rw [hc] at hs
    obtain rfl := Option.some.inj hs
    exact .refl
  | some sg =>
    rw [hc] at hs
    exact shrinks_of_destroyConnection hd hs

theorem shrinks_of_clearOwners {js : List (Joint κ)} (hc : h.clearOwners js = some h') :
    Shrinks h h' := by
  obtain ⟨hsigs, hdata, hlen, -, hslots⟩ := clearOwners_eq_some hc
  refine ⟨fun sg signal hsig => ⟨signal, ?_, .refl _, rfl, rfl⟩, hdata, hlen, fun owner hw => ?_⟩
  · rwa [signal?_congr hsigs] at hsig
  · unfold SlotDestroyed at hw
    rw [hslots owner] at hw
    split_ifs at hw
    · cases hw
    · exact hw

theorem shrinks_of_destroySignal (hu : h.Unlinked) (hs : h.destroySignal sg = some h') :
    Shrinks h h' := by
  obtain ⟨signal, hsig, hs⟩ := Option.bind_eq_some_iff.mp hs
  obtain ⟨h₁, hclear, hs⟩ := Option.bind_eq_some_iff.mp hs
  obtain ⟨h₂, hdel, hs⟩ := Option.bind_eq_some_iff.mp hs
  rw [(hu sg signal hsig).2] at hdel
  obtain rfl : h₁ = h₂ := Option.some.inj hdel
  obtain rfl := Option.some.inj hs
  have hshrink := shrinks_of_clearOwners hclear
  refine ⟨fun sg' signal' hsig' => ?_, hshrink.data, hshrink.slots, hshrink.destroyed⟩
  rw [signal?_destroyed] at hsig'
  split_ifs at hsig' with heq
  exact hshrink.signal sg' signal' hsig'

theorem newSignal_callbacks (h : Heap κ) (sg : Nat) : h.newSignal.callbacks sg = h.callbacks sg := by
  unfold callbacks
  rw [signal?_newSignal]
  split_ifs with heq
  · simp [Signal.construct, signal?, heq]
  · rfl

theorem distinct_newSignal (hd : h.Distinct) : h.newSignal.Distinct := by
  refine ⟨fun sg => ?_, fun sg => ?_⟩
  · rw [newSignal_callbacks]
    exact hd.nodup sg
  · rw [newSignal_callbacks]
    exact hd.exists_data sg

theorem unlinked_newSignal (hu : h.Unlinked) : h.newSignal.Unlinked := by
  intro sg signal hsig
  rw [signal?_newSignal] at hsig
  split_ifs at hsig
  · obtain rfl := Option.some.inj hsig
    exact ⟨rfl, rfl⟩
  · exact hu sg signal hsig

theorem noneNames_newSignal (hn : h.NoneNames) : h.newSignal.NoneNames := by
  intro owner hw sg
  rw [newSignal_callbacks]
  exact hn owner hw sg

/-- A slot just constructed is not a destroyed one. -/
theorem slotDestroyed_newSlot (hw : h.newSlot.SlotDestroyed owner) : h.SlotDestroyed owner := by
  unfold SlotDestroyed newSlot at hw
  unfold SlotDestroyed
  simp only at hw
  rcases Nat.lt_or_ge owner h.slots.length with hlt | hge
  · rwa [List.getElem?_append_left hlt] at hw
  · rw [List.getElem?_append_right hge, List.getElem?_singleton] at hw
    split_ifs at hw
    cases hw

/-- The joints after `connect`. -/
theorem connect_callbacks {fn : κ} {o : Option Nat} {conn : Connection}
    (hc : h.connect sg fn o = some (conn, h')) (sg' : Nat) :
    h'.callbacks sg' = h.callbacks sg' ++
      if sg' = sg then [{ callback := fn, connection := h.data.length, owner := o }] else [] := by
  obtain ⟨signal, hsig, -, -, rfl⟩ := connect_eq_some hc
  by_cases heq : sg' = sg
  · subst heq
    rw [if_pos rfl, callbacks_eq hsig]
    have hlt := lt_length_of_signal? hsig
    simp [callbacks, signal?, hlt]
  · simp [callbacks, signal?, heq, List.getElem?_set_ne (Ne.symm heq)]

/-- The slots after `connect`. -/
theorem connect_slots {fn : κ} {o : Option Nat} {conn : Connection}
    (hc : h.connect sg fn o = some (conn, h')) (hw : h'.SlotDestroyed owner) :
    h.SlotDestroyed owner ∧ o ≠ some owner := by
  obtain ⟨signal, hsig, -, hlive, rfl⟩ := connect_eq_some hc
  cases o with
  | none => exact ⟨hw, by simp⟩
  | some o =>
    unfold SlotDestroyed at hw
    by_cases heq : o = owner
    · subst heq
      obtain ⟨old, hold⟩ := Option.isSome_iff_exists.mp (hlive o rfl)
      obtain ⟨hlt, -⟩ := List.getElem?_eq_some_iff.mp (slot?_eq_some.mp hold)
      simp [hlt] at hw
    · simp only [Option.elim_some, List.getElem?_set_ne heq] at hw
      exact ⟨hw, by simpa using heq⟩

theorem distinct_connect {fn : κ} {o : Option Nat} {conn : Connection} (hd : h.Distinct)
    (hc : h.connect sg fn o = some (conn, h')) : h'.Distinct := by
  have hdata : h'.data.length = h.data.length + 1 := by
    obtain ⟨signal, -, -, -, rfl⟩ := connect_eq_some hc
    simp
  constructor
  · intro sg'
    rw [connect_callbacks hc sg', List.map_append]
    split_ifs
    · refine (hd.nodup sg').append (List.nodup_singleton _) ?_
      rw [List.map_singleton, List.disjoint_singleton]
      intro hmem
      obtain ⟨jnt, hj, heq⟩ := List.mem_map.mp hmem
      have hlt := hd.exists_data sg' jnt hj
      rw [show jnt.connection = h.data.length from heq] at hlt
      exact Nat.lt_irrefl _ hlt
    · simpa using hd.nodup sg'
  · intro sg' jnt hj
    rw [connect_callbacks hc sg', List.mem_append] at hj
    rcases hj with hj | hj
    · have := hd.exists_data sg' jnt hj
      omega
    · split_ifs at hj
      · obtain rfl := List.mem_singleton.mp hj
        rw [hdata]
        exact Nat.lt_succ_self _
      · cases hj

theorem unlinked_connect {fn : κ} {o : Option Nat} {conn : Connection} (hu : h.Unlinked)
    (hc : h.connect sg fn o = some (conn, h')) : h'.Unlinked := by
  obtain ⟨signal, hsig, -, -, rfl⟩ := connect_eq_some hc
  intro sg' signal' hsig'
  by_cases heq : sg' = sg
  · subst heq
    have hlt := lt_length_of_signal? hsig
    simp only [signal?, List.getElem?_set_self hlt, Option.join_some, Option.some.injEq] at hsig'
    subst hsig'
    exact hu sg' signal hsig
  · simp only [signal?, List.getElem?_set_ne (Ne.symm heq)] at hsig'
    exact hu sg' signal' hsig'

theorem noneNames_connect {fn : κ} {o : Option Nat} {conn : Connection} (hn : h.NoneNames)
    (hc : h.connect sg fn o = some (conn, h')) : h'.NoneNames := by
  intro owner hw sg' jnt hj
  obtain ⟨hold, hne⟩ := connect_slots hc hw
  rw [connect_callbacks hc sg', List.mem_append] at hj
  rcases hj with hj | hj
  · exact hn owner hold sg' jnt hj
  · split_ifs at hj
    · obtain rfl := List.mem_singleton.mp hj
      exact hne
    · cases hj

/-- `disconnect` takes the joint of `_data` out of the signal of `_deleter`. -/
theorem disconnect_callbacks {conn : Connection} (hd : h.Distinct)
    (hs : h.disconnect conn = some h') (sg : Nat) :
    h'.callbacks sg = (h.callbacks sg).filter fun jnt =>
      !(conn.deleter == some sg && some jnt.connection == conn.data) := by
  unfold disconnect at hs
  cases hc : conn.deleter with
  | none =>
    rw [hc] at hs
    obtain rfl := Option.some.inj hs
    simp
  | some sg₀ =>
    rw [hc] at hs
    obtain ⟨⟨signal, hsig, hsigs⟩, -⟩ := destroyConnection_eq_some hd hs
    unfold callbacks
    rw [hsigs sg]
    by_cases heq : sg = sg₀
    · subst heq
      simp [hsig, Signal.without]
    · have hne : (some sg₀ == some sg) = false := by simpa using Ne.symm heq
      simp [heq, hne]

theorem mem_ownedBy {p : Nat × Nat} :
    p ∈ h.ownedBy owner ↔
      ∃ jnt ∈ h.callbacks p.1, jnt.owner = some owner ∧ jnt.connection = p.2 := by
  unfold ownedBy
  constructor
  · intro hp
    obtain ⟨sg, -, hp⟩ := List.mem_flatMap.mp hp
    obtain ⟨jnt, hj, rfl⟩ := List.mem_map.mp hp
    obtain ⟨hj, ho⟩ := List.mem_filter.mp hj
    exact ⟨jnt, hj, by simpa using ho, rfl⟩
  · rintro ⟨jnt, hj, ho, hc⟩
    have hlt : p.1 < h.signals.length := by
      by_contra hge
      simp [callbacks, signal?, List.getElem?_eq_none (Nat.le_of_not_lt hge)] at hj
    refine List.mem_flatMap.mpr ⟨p.1, List.mem_range.mpr hlt, List.mem_map.mpr ⟨jnt, ?_, ?_⟩⟩
    · exact List.mem_filter.mpr ⟨hj, by simp [ho]⟩
    · rw [hc]

/-- Destroying a slot leaves no joint that names it exactly when the one connection it remembers is all it
    owns. -/
theorem noneNames_destroySlot (hd : h.Distinct) (hn : h.NoneNames)
    (hs : h.destroySlot owner = some h') :
    h'.NoneNames ↔
      ∀ p ∈ h.ownedBy owner, h.slot? owner = some (prepareConnection p.1 p.2) := by
  obtain ⟨h₁, hdisc, hs⟩ := Option.bind_eq_some_iff.mp hs
  obtain ⟨conn, hconn, hdisc⟩ := Option.bind_eq_some_iff.mp hdisc
  obtain rfl := Option.some.inj hs
  have hcalls := disconnect_callbacks hd hdisc
  have hshrink := shrinks_of_disconnect hd hdisc
  constructor
  · intro hn' p hp
    obtain ⟨jnt, hj, ho, hc⟩ := mem_ownedBy.mp hp
    by_contra hne
    have hlt : owner < h₁.slots.length := by
      rw [hshrink.slots]
      exact (List.getElem?_eq_some_iff.mp (slot?_eq_some.mp hconn)).1
    have hgone : ({ h₁ with slots := h₁.slots.set owner none } : Heap κ).SlotDestroyed owner := by
      simp [SlotDestroyed, hlt]
    refine hn' owner hgone p.1 jnt ?_ ho
    show jnt ∈ h₁.callbacks p.1
    rw [hcalls p.1, List.mem_filter]
    refine ⟨hj, ?_⟩
    rw [hconn, Option.some.injEq] at hne
    by_contra hboth
    have hboth' : conn.deleter = some p.1 ∧ some jnt.connection = conn.data := by simpa using hboth
    refine hne ?_
    cases conn
    simp only at hboth'
    simp [prepareConnection, hboth'.1, ← hboth'.2, hc]
  · intro hall w hw sg jnt hj ho
    have hj' : jnt ∈ h₁.callbacks sg := hj
    rw [hcalls sg, List.mem_filter] at hj'
    obtain ⟨hjold, hkept⟩ := hj'
    by_cases heq : w = owner
    · subst heq
      have := hall (sg, jnt.connection) (mem_ownedBy.mpr ⟨jnt, hjold, ho, rfl⟩)
      rw [hconn, Option.some.injEq] at this
      subst this
      simp [prepareConnection] at hkept
    · have hw₁ : h₁.SlotDestroyed w := by
        simpa [SlotDestroyed, List.getElem?_set_ne (Ne.symm heq)] using hw
      exact hn w (hshrink.destroyed w hw₁) sg jnt hjold ho

end Heap

namespace SlotLife

variable {s s' : SlotLife κ}

/-- What holds in every state. -/
structure Inv (s : SlotLife κ) : Prop where
  distinct : s.heap.Distinct
  unlinked : s.heap.Unlinked

theorem inv_init : Inv (init κ) where
  distinct := ⟨by simp [init, Heap.init, Heap.callbacks, Heap.signal?],
    by simp [init, Heap.init, Heap.callbacks, Heap.signal?]⟩
  unlinked := by simp [init, Heap.init, Heap.Unlinked, Heap.signal?]

theorem Inv.of_shrinks {heap : Heap κ} (hi : Inv s) (hs : s.heap.Shrinks heap) :
    Inv { s with heap := heap } where
  distinct := hs.distinct hi.distinct
  unlinked := hs.unlinked hi.unlinked

/-- An emission invokes joints of the signal only, so it is enough to look at the joints. -/
theorem safe_iff (hi : Inv s) : s.Safe ↔ s.heap.NoneNames := by
  constructor
  · intro hsafe owner hw sg jnt hj
    cases hsig : s.heap.signal? sg with
    | none => simp [Heap.callbacks, hsig] at hj
    | some signal =>
      rw [Heap.callbacks_eq hsig] at hj
      exact (hsafe owner hw sg signal hsig).1 jnt hj
  · intro hn owner hw sg signal hsig
    have hnames : ∀ jnt ∈ signal.callbacks, jnt.owner ≠ some owner := by
      intro jnt hj
      exact hn owner hw sg jnt (by rwa [Heap.callbacks_eq hsig])
    refine ⟨hnames, _, Heap.emission_own hsig (hi.unlinked sg signal hsig).1, fun jnt hj => ?_⟩
    split_ifs at hj
    · cases hj
    · rw [callLoop_invoked] at hj
      exact hnames jnt (List.mem_filter.mp hj).1

/-- What a step takes away, and what one that destroys a slot leaves. -/
theorem noneNames_step {a : SlotLifeAct κ} (hi : Inv s) (hn : s.heap.NoneNames)
    (hs : step s a = some s') : Inv s' ∧
      (s'.heap.NoneNames ↔ s.Remembers a) := by
  have hshrinks : ∀ heap, s.heap.Shrinks heap → (Inv { s with heap := heap } ∧
      (heap.NoneNames ↔ True)) := by
    intro heap hshrink
    exact ⟨hi.of_shrinks hshrink, iff_true_intro (hshrink.noneNames hn)⟩
  cases a with
  | newSignal =>
    obtain rfl := Option.some.inj hs
    exact ⟨⟨Heap.distinct_newSignal hi.distinct, Heap.unlinked_newSignal hi.unlinked⟩,
      iff_true_intro (Heap.noneNames_newSignal hn)⟩
  | newSlot =>
    obtain rfl := Option.some.inj hs
    exact ⟨⟨hi.distinct.congr rfl rfl, hi.unlinked.congr rfl⟩,
      iff_true_intro fun owner hw => hn owner (Heap.slotDestroyed_newSlot hw)⟩
  | connect sg fn owner =>
    obtain ⟨⟨conn, heap⟩, hc, rfl⟩ := Option.map_eq_some_iff.mp hs
    exact ⟨⟨Heap.distinct_connect hi.distinct hc, Heap.unlinked_connect hi.unlinked hc⟩,
      iff_true_intro (Heap.noneNames_connect hn hc)⟩
  | disconnect i =>
    obtain ⟨conn, -, hs⟩ := Option.bind_eq_some_iff.mp hs
    obtain ⟨heap, hd, rfl⟩ := Option.map_eq_some_iff.mp hs
    exact hshrinks heap (Heap.shrinks_of_disconnect hi.distinct hd)
  | slotDisconnect owner =>
    obtain ⟨heap, hd, rfl⟩ := Option.map_eq_some_iff.mp hs
    obtain ⟨conn, -, hd⟩ := Option.bind_eq_some_iff.mp hd
    exact hshrinks heap (Heap.shrinks_of_disconnect hi.distinct hd)
  | disconnectConnection sg i =>
    obtain ⟨conn, -, hs⟩ := Option.bind_eq_some_iff.mp hs
    obtain ⟨heap, hd, rfl⟩ := Option.map_eq_some_iff.mp hs
    exact hshrinks heap (Heap.shrinks_of_destroyConnection hi.distinct hd)
  | disconnectSlot sg owner =>
    obtain ⟨heap, hd, rfl⟩ := Option.map_eq_some_iff.mp hs
    cases owner with
    | none =>
      obtain rfl := Option.some.inj hd
      exact hshrinks s.heap .refl
    | some owner =>
      obtain ⟨conn, -, hd⟩ := Option.bind_eq_some_iff.mp hd
      exact hshrinks heap (Heap.shrinks_of_destroyConnection hi.distinct hd)
  | disconnectAll sg =>
    obtain ⟨heap, hd, rfl⟩ := Option.map_eq_some_iff.mp hs
    obtain ⟨signal, -, hd⟩ := Option.bind_eq_some_iff.mp hd
    exact hshrinks heap (Heap.shrinks_of_clearOwners hd)
  | destroySignal sg =>
    obtain ⟨heap, hd, rfl⟩ := Option.map_eq_some_iff.mp hs
    exact hshrinks heap (Heap.shrinks_of_destroySignal hi.unlinked hd)
  | destroySlot owner =>
    obtain ⟨heap, hd, rfl⟩ := Option.map_eq_some_iff.mp hs
    refine ⟨?_, Heap.noneNames_destroySlot hi.distinct hn hd⟩
    obtain ⟨h₁, hdisc, hd⟩ := Option.bind_eq_some_iff.mp hd
    obtain ⟨conn, -, hdisc⟩ := Option.bind_eq_some_iff.mp hdisc
    obtain rfl := Option.some.inj hd
    have hshrink := Heap.shrinks_of_disconnect hi.distinct hdisc
    exact ⟨(hshrink.distinct hi.distinct).congr rfl rfl, (hshrink.unlinked hi.unlinked).congr rfl⟩

/-- Slots leave nothing behind in exactly the runs in which each of them, when it is destroyed, remembers
    every connection that it still owns. -/
theorem safe_throughout_iff_remembers (as : List (SlotLifeAct κ)) (hr : run step (init κ) as = some s) :
    Throughout step Safe (init κ) as ↔ Meets step Remembers (init κ) as := by
  refine throughout_iff_meets (I := Inv) ?_ inv_init ?_ hr
  · intro s a s' hi hsafe hs
    obtain ⟨hi', hiff⟩ := noneNames_step hi ((safe_iff hi).mp hsafe) hs
    exact ⟨(safe_iff hi').trans hiff, fun _ => hi'⟩
  · intro owner hw
    simp [init, Heap.init, Heap.SlotDestroyed] at hw

/-- A slot that owns a connection of one signal, has taken up one of another after the first was
    disconnected, and is destroyed. -/
theorem safe_throughout_moved_slot :
    Throughout step Safe (init Nat)
      [.newSignal, .newSignal, .newSlot, .connect 0 7 (some 0), .disconnect 0, .connect 1 8 (some 0),
        .destroySlot 0] :=
  (safe_throughout_iff_remembers _ rfl).mpr (by decide)

/-- A slot that owns two connections of one signal remembers the second only. -/
theorem unsafe_slot_of_two_connections :
    ¬ ∀ (as : List (SlotLifeAct Nat)) (s : SlotLife Nat),
      run step (init Nat) as = some s → Throughout step Safe (init Nat) as := by
  intro h
  have hrun := h [.newSignal, .newSlot, .connect 0 7 (some 0), .connect 0 8 (some 0), .destroySlot 0] _ rfl
  have hsafe := hrun.last rfl
  exact (hsafe 0 rfl 0 _ rfl).1 { callback := 7, connection := 0, owner := some 0 } (by decide) rfl

end SlotLife

end Lnetlib.Lsignal
