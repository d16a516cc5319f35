import Lnetlib.Lsignal.Emission
import Lnetlib.Lsignal.Proofs.HeapProofs
import Mathlib.Data.List.Perm.Subperm

/-!
# Proofs: emissions over linked signals

On the way down from the signal that is emitted no signal occurs twice, so the number of signals bounds
the depth, and no mutex is locked twice. What is invoked is the trace by induction on the depth left.
-/

namespace Lnetlib.Lsignal.Heap

open Relation

variable {κ : Type} {h : Heap κ} {sg : Nat} {signal : Signal κ}

/-- A signal has one trace. -/
theorem Trace.unique {js js' : List (Joint κ)} (ht : h.Trace sg js) (ht' : h.Trace sg js') :
    js = js' := by
  induction ht generalizing js' with
  | locked hsig hl =>
    cases ht' with
    | locked hsig' hl' => rfl
    | calls hsig' hl' below hbelow =>
      obtain rfl := Option.some.inj (hsig.symm.trans hsig')
      exact absurd (hl.symm.trans hl') Bool.noConfusion
  | calls hsig hl below hbelow ih =>
    cases ht' with
    | locked hsig' hl' =>
      obtain rfl := Option.some.inj (hsig.symm.trans hsig')
      exact absurd (hl'.symm.trans hl) Bool.noConfusion
    | calls hsig' hl' below' hbelow' =>
      obtain rfl := Option.some.inj (hsig.symm.trans hsig')
      have hmap : ∀ child ∈ _, below child = below' child := fun child hc =>
        ih child hc (hbelow' child hc)
      rw [List.flatMap_congr hmap]

theorem mapM_eq_some_map {α β : Type} {f : α → Option β} {g : α → β} {xs : List α}
    (hf : ∀ x ∈ xs, f x = some (g x)) : xs.mapM f = some (xs.map g) := by
  induction xs with
  | nil => rfl
  | cons x xs ih =>
    have hx := hf x List.mem_cons_self
    have hxs := ih fun y hy => hf y (List.mem_cons_of_mem x hy)
    rw [List.mapM_cons, hx, hxs]
    rfl

/-- The signals on a way down, without repetition, are at most all signals. -/
theorem length_way_le {way : List Nat} (hnd : way.Nodup) (hlt : ∀ sg ∈ way, sg < h.signals.length) :
    way.length ≤ h.signals.length := by
  have hsub : way ⊆ List.range h.signals.length := fun sg hsg => List.mem_range.mpr (hlt sg hsg)
  have hle := (List.subperm_of_subset hnd hsub).length_le
  rwa [List.length_range] at hle

/-- The mutexes in `held` are those of the signals on a way down to `sg`. -/
structure Way (h : Heap κ) (held : List Nat) (sg : Nat) : Prop where
  nodup : held.Nodup
  lt : ∀ x ∈ held, x < h.signals.length
  above : ∀ x ∈ held, TransGen h.Linked x sg

theorem Way.not_mem (hg : h.AcyclicLinks) {held : List Nat} (hw : h.Way held sg) : sg ∉ held :=
  fun hmem => hg.acyclic sg (hw.above sg hmem)

theorem Way.cons (hg : h.AcyclicLinks) {held : List Nat} (hw : h.Way held sg)
    (hsig : h.signal? sg = some signal) {child : Nat} (hc : child ∈ signal.signals) :
    h.Way (sg :: held) child := by
  have hlink : h.Linked sg child := ⟨signal, hsig, hc⟩
  constructor
  · exact List.nodup_cons.mpr ⟨hw.not_mem hg, hw.nodup⟩
  · intro x hx
    rcases List.mem_cons.mp hx with rfl | hx
    · exact lt_length_of_signal? hsig
    · exact hw.lt x hx
  · intro x hx
    rcases List.mem_cons.mp hx with rfl | hx
    · exact .single hlink
    · exact (hw.above x hx).tail hlink

/-- All signals cannot be above `sg`, which is not. -/
theorem Way.length_lt (hg : h.AcyclicLinks) {held : List Nat} (hw : h.Way held sg)
    (hsig : h.signal? sg = some signal) : held.length < h.signals.length := by
  have hnd : (sg :: held).Nodup := List.nodup_cons.mpr ⟨hw.not_mem hg, hw.nodup⟩
  have hle := length_way_le (h := h) hnd fun x hx => by
    rcases List.mem_cons.mp hx with rfl | hx
    · exact lt_length_of_signal? hsig
    · exact hw.lt x hx
  rwa [List.length_cons] at hle

theorem way_nil (h : Heap κ) (sg : Nat) : h.Way [] sg where
  nodup := List.nodup_nil
  lt := fun _ hx => absurd hx List.not_mem_nil
  above := fun _ hx => absurd hx List.not_mem_nil

/-- The calls of the linked signals, when each of them invokes its trace. -/
theorem mapM_traces {f : Nat → Option (Invocations κ)} {sgs : List Nat}
    (hf : ∀ child ∈ sgs, ∃ calls, f child = some calls ∧ h.Trace child calls.invoked) :
    ∃ below : Nat → List (Joint κ), (∀ child ∈ sgs, h.Trace child (below child)) ∧
      ∃ calls, sgs.mapM f = some calls ∧ calls.flatMap (·.invoked) = sgs.flatMap below := by
  let calls : Nat → Invocations κ := fun child => (f child).getD { invoked := [], result := none }
  have hcalls : ∀ child ∈ sgs, f child = some (calls child) ∧ h.Trace child (calls child).invoked := by
    intro child hc
    obtain ⟨r, hr, ht⟩ := hf child hc
    simp only [calls, hr, Option.getD_some]
    exact ⟨trivial, ht⟩
  refine ⟨fun child => (calls child).invoked, fun child hc => (hcalls child hc).2, sgs.map calls,
    mapM_eq_some_map fun child hc => (hcalls child hc).1, ?_⟩
  rw [List.flatMap_map]

/-- An emission of a locked signal invokes nothing. -/
theorem emit_locked {fuel : Nat} {held : List Nat} (hnot : sg ∉ held)
    (hsig : h.signal? sg = some signal) (hl : signal.locked = true) :
    h.emit (fuel + 1) held sg = some { invoked := [], result := none } := by
  simp [emit, hnot, hsig, hl]

/-- An emission of a signal that is not locked calls the linked signals and then its own callbacks. -/
theorem emit_unlocked {fuel : Nat} {held : List Nat} {calls : List (Invocations κ)} (hnot : sg ∉ held)
    (hsig : h.signal? sg = some signal) (hl : signal.locked = false)
    (hcalls : signal.signals.mapM (fun child => h.emit fuel (sg :: held) child) = some calls) :
    ∃ r, h.emit (fuel + 1) held sg = some r ∧
      r.invoked = calls.flatMap (·.invoked) ++ h.unlocked signal := by
  refine ⟨{ callLoop h.isLocked signal.callbacks with
    invoked := calls.flatMap (·.invoked) ++ (callLoop h.isLocked signal.callbacks).invoked }, ?_, ?_⟩
  · simp [emit, hnot, hsig, hl, hcalls]
  · rw [callLoop_invoked]
    rfl

/-- What an emission of a signal that exists does, the mutexes `held` being those of the signals above it:
    with a depth that is enough for all signals that are not above it, it invokes the trace. -/
theorem emit_trace (hg : h.AcyclicLinks) {fuel : Nat} {held : List Nat} (hw : h.Way held sg)
    (hsig : h.signal? sg = some signal) (hfuel : fuel + held.length = h.signals.length) :
    ∃ calls, h.emit fuel held sg = some calls ∧ h.Trace sg calls.invoked := by
  induction fuel generalizing held sg signal with
  | zero =>
    have := hw.length_lt hg hsig
    omega
  | succ fuel ih =>
    have hbelow : ∀ child ∈ signal.signals,
        ∃ calls, h.emit fuel (sg :: held) child = some calls ∧ h.Trace child calls.invoked := by
      intro child hc
      obtain ⟨signal', hsig'⟩ := hg.live sg child ⟨signal, hsig, hc⟩
      exact ih (hw.cons hg hsig hc) hsig' (by rw [List.length_cons]; omega)
    by_cases hl : signal.locked = true
    · exact ⟨_, emit_locked (hw.not_mem hg) hsig hl, .locked hsig hl⟩
    · have hl' : signal.locked = false := by simpa using hl
      obtain ⟨below, ht, calls, hcalls, hflat⟩ := mapM_traces hbelow
      obtain ⟨r, hr, hinv⟩ := emit_unlocked (hw.not_mem hg) hsig hl' hcalls
      refine ⟨r, hr, ?_⟩
      rw [hinv, hflat]
      exact .calls hsig hl' below ht

/-- **Emissions over linked signals.** In a graph of links without a cycle an emission of any signal ends
    without locking a mutex that is held. It invokes the trace of the signal, and so does the emission
    with an aggregator, which is given the results of the signal's own callbacks that are not locked. -/
theorem emission_trace (hg : h.AcyclicLinks) (hsig : h.signal? sg = some signal) :
    ∃ calls, h.emission sg = some calls ∧ h.Trace sg calls.invoked ∧
      h.aggregate sg = some (calls.invoked, h.results signal) := by
  obtain ⟨n, hn⟩ := length_of_signal? hsig
  have hbelow : ∀ child ∈ signal.signals,
      ∃ calls, h.emit n [sg] child = some calls ∧ h.Trace child calls.invoked := by
    intro child hc
    obtain ⟨signal', hsig'⟩ := hg.live sg child ⟨signal, hsig, hc⟩
    exact emit_trace hg ((way_nil h sg).cons hg hsig hc) hsig' (by rw [List.length_singleton]; omega)
  unfold emission
  rw [hn]
  by_cases hl : signal.locked = true
  · refine ⟨_, emit_locked List.not_mem_nil hsig hl, .locked hsig hl, ?_⟩
    simp [aggregate, results, hsig, hl]
  · have hl' : signal.locked = false := by simpa using hl
    obtain ⟨below, ht, calls, hcalls, hflat⟩ := mapM_traces hbelow
    obtain ⟨r, hr, hinv⟩ := emit_unlocked List.not_mem_nil hsig hl' hcalls
    refine ⟨r, hr, ?_, ?_⟩
    · rw [hinv, hflat]
      exact .calls hsig hl' below ht
    · rw [hinv]
      simp [aggregate, results, unlocked, hsig, hl', hn, hcalls]

/-- Signals that are linked to existing signals constructed after them only. -/
theorem acyclicLinks_of_increasing (hinc : ∀ parent ∈ List.range h.signals.length,
    ∀ child ∈ ((h.signal? parent).map (·.signals)).getD [],
      parent < child ∧ (h.signal? child).isSome = true) : h.AcyclicLinks := by
  have hlinked : ∀ parent child, h.Linked parent child →
      parent < child ∧ (h.signal? child).isSome = true := by
    rintro parent child ⟨signal, hsig, hc⟩
    apply hinc parent (List.mem_range.mpr (lt_length_of_signal? hsig)) child
    rw [hsig]
    exact hc
  constructor
  · intro parent child hlink
    exact Option.isSome_iff_exists.mp (hlinked parent child hlink).2
  · intro sg hway
    have hlt : ∀ {a b}, TransGen h.Linked a b → a < b := by
      intro a b hab
      induction hab with
      | single hlink => exact (hlinked _ _ hlink).1
      | tail _ hlink ih => exact Nat.lt_trans ih (hlinked _ _ hlink).1
    exact absurd (hlt hway) (Nat.lt_irrefl sg)

/-- A signal that calls the second and the third one, the second one twice, and the third through the
    second as well. -/
def sharedLinks : Heap String :=
  { signals := [some ⟨false, [⟨"a", 0, none⟩, ⟨"b", 1, none⟩], [1, 2, 1], []⟩,
      some ⟨false, [⟨"c", 2, none⟩], [2], [0, 0]⟩, some ⟨false, [⟨"d", 3, none⟩], [], [0, 1]⟩]
    slots := []
    data := [false, true, false, false] }

theorem emission_trace_shared :
    ∃ calls, sharedLinks.emission 0 = some calls ∧ sharedLinks.Trace 0 calls.invoked ∧
      sharedLinks.aggregate 0 = some (calls.invoked, [⟨"a", 0, none⟩]) :=
  emission_trace (acyclicLinks_of_increasing (by decide))
    (rfl : sharedLinks.signal? 0 = some ⟨false, [⟨"a", 0, none⟩, ⟨"b", 1, none⟩], [1, 2, 1], []⟩)

example : (sharedLinks.emission 0).map (fun calls => calls.invoked.map (·.callback)) =
    some ["d", "c", "d", "d", "c", "a"] := by decide

end Lnetlib.Lsignal.Heap
