import Lnetlib.Lsignal.Forwarding
import Lnetlib.Lsignal.Proofs.EmissionProofs

/-!
# Proofs: what the callbacks are given

The first that the arguments are handed to has them, all others have what moving from them leaves. From
there on moving changes nothing, so only the way over the first ones matters.
-/

namespace Lnetlib.Lsignal

variable {κ V : Type} [Movable V]

section

variable (locked : Nat → Bool) (v : V) (callbacks : List (Joint κ))

/-- The first callback is given the arguments, the others what moving from them leaves. -/
theorem forwardCalls_eq :
    forwardCalls locked v callbacks =
      match callbacks.filter fun jnt => !locked jnt.connection with
      | [] => ([], v)
      | jnt :: others => ((jnt, v) :: others.map fun other => (other, moved v), moved v) := by
  induction callbacks generalizing v with
  | nil => rfl
  | cons jnt callbacks ih =>
    by_cases hl : locked jnt.connection = true
    · rw [forwardCalls, if_pos hl, ih, List.filter_cons_of_neg (by simp [hl])]
    · rw [forwardCalls, if_neg hl, ih, List.filter_cons_of_pos (by simp [hl])]
      cases callbacks.filter fun jnt => !locked jnt.connection with
      | nil => rfl
      | cons other others => simp only [Movable.moved_moved, List.map_cons]

theorem forwardCalls_append (more : List (Joint κ)) :
    forwardCalls locked v (callbacks ++ more) =
      ((forwardCalls locked v callbacks).1 ++
          (forwardCalls locked (forwardCalls locked v callbacks).2 more).1,
        (forwardCalls locked (forwardCalls locked v callbacks).2 more).2) := by
  induction callbacks generalizing v with
  | nil => rfl
  | cons jnt callbacks ih =>
    by_cases hl : locked jnt.connection = true
    · rw [List.cons_append, forwardCalls, forwardCalls, if_pos hl, if_pos hl, ih]
    · rw [List.cons_append, forwardCalls, forwardCalls, if_neg hl, if_neg hl, ih]
      rfl

/-- The two loops forward the arguments alike. -/
theorem forwardLoop_eq : forwardLoop locked v callbacks = (forwardCalls locked v callbacks).1 := by
  induction callbacks using List.reverseRecOn with
  | nil => rfl
  | append_singleton callbacks jnt _ =>
    unfold forwardLoop
    rw [forwardCalls_append]
    by_cases hl : locked jnt.connection = true
    · simp [forwardCalls, hl]
    · simp [forwardCalls, hl]

theorem forwardCalls_map_fst :
    (forwardCalls locked v callbacks).1.map Prod.fst =
      callbacks.filter fun jnt => !locked jnt.connection := by
  rw [forwardCalls_eq]
  cases callbacks.filter fun jnt => !locked jnt.connection with
  | nil => rfl
  | cons jnt others => simp [Function.comp_def]

/-- All callbacks are given the arguments if moving changes nothing or there is one callback at most. -/
theorem forwardCalls_all_iff :
    (∀ call ∈ (forwardCalls locked v callbacks).1, call.2 = v) ↔
      moved v = v ∨ (callbacks.filter fun jnt => !locked jnt.connection).length ≤ 1 := by
  rw [forwardCalls_eq]
  cases callbacks.filter fun jnt => !locked jnt.connection with
  | nil => simp
  | cons jnt others =>
    cases others with
    | nil => simp
    | cons other others =>
      constructor
      · intro h
        exact .inl (h (other, moved v) (by simp))
      · rintro (hv | hlen)
        · simp [hv]
        · simp at hlen

end

namespace Heap

variable {h : Heap κ} {sg : Nat} {signal : Signal κ} {js : List (Joint κ)}

/-- The callbacks that an emission of the signal invokes. -/
def trace (h : Heap κ) (sg : Nat) : List (Joint κ) := ((h.emission sg).map (·.invoked)).getD []

theorem trace_spec (hg : h.AcyclicLinks) (hsig : h.signal? sg = some signal) :
    h.Trace sg (h.trace sg) := by
  obtain ⟨calls, hcalls, ht, -⟩ := emission_trace hg hsig
  unfold trace
  rw [hcalls]
  exact ht

theorem trace_eq (ht : h.Trace sg js) (hg : h.AcyclicLinks) (hsig : h.signal? sg = some signal) :
    h.trace sg = js :=
  (trace_spec hg hsig).unique ht

theorem trace_unlocked (hg : h.AcyclicLinks) (hsig : h.signal? sg = some signal)
    (hl : signal.locked = false) :
    h.trace sg = signal.signals.flatMap h.trace ++ h.unlocked signal := by
  refine trace_eq (.calls hsig hl h.trace fun child hc => ?_) hg hsig
  obtain ⟨signal', hsig'⟩ := hg.live sg child ⟨signal, hsig, hc⟩
  exact trace_spec hg hsig'

/-- The function `f` calls the signal `sg`: the callbacks of the trace are invoked, and all of them are given
    the arguments exactly if moving changes nothing or only the first ones invoke any. -/
def CallsSignal (h : Heap κ) (f : Nat → V → Option (List (Joint κ × V))) (sg : Nat) : Prop :=
  ∀ v, ∃ calls, f sg v = some calls ∧ calls.map Prod.fst = h.trace sg ∧
    ((∀ call ∈ calls, call.2 = v) ↔ moved v = v ∨ h.FirstOnly sg)

section

variable {f : Nat → V → Option (List (Joint κ × V))} {v : V}

/-- Where moving changes nothing, all linked signals are given the arguments. -/
theorem forwardSignals_settled {children : List Nat} (hf : ∀ child ∈ children, h.CallsSignal f child)
    (hv : moved v = v) :
    ∃ below, forwardSignals f v children = some (below, v) ∧
      below.map Prod.fst = children.flatMap h.trace ∧ ∀ call ∈ below, call.2 = v := by
  induction children with
  | nil => exact ⟨[], rfl, rfl, fun _ hc => absurd hc List.not_mem_nil⟩
  | cons child children ih =>
    obtain ⟨calls, hcalls, hfst, hall⟩ := hf child List.mem_cons_self v
    obtain ⟨rest, hrest, hfst', hall'⟩ := ih fun other ho => hf other (List.mem_cons_of_mem child ho)
    refine ⟨calls ++ rest, ?_, ?_, ?_⟩
    · simp only [forwardSignals, hcalls, hv, hrest]
      rfl
    · rw [List.map_append, hfst, hfst', List.flatMap_cons]
    · intro call hc
      rcases List.mem_append.mp hc with hc | hc
      · exact hall.mpr (.inl hv) call hc
      · exact hall' call hc

/-- Where moving changes something, the arguments must not be seen by anyone but the first. -/
theorem all_moved_iff {calls : List (Joint κ × V)} (hv : moved v ≠ v)
    (hmoved : ∀ call ∈ calls, call.2 = moved v) :
    (∀ call ∈ calls, call.2 = v) ↔ calls.map Prod.fst = [] := by
  rw [List.map_eq_nil_iff]
  constructor
  · intro hall
    apply List.eq_nil_iff_forall_not_mem.mpr
    intro call hc
    exact hv ((hmoved call hc).symm.trans (hall call hc))
  · intro hnil call hc
    rw [hnil] at hc
    exact absurd hc List.not_mem_nil

theorem forwardSignals_cons {child : Nat} {children : List Nat}
    (hf : ∀ other ∈ child :: children, h.CallsSignal f other) :
    ∃ below, forwardSignals f v (child :: children) = some (below, moved v) ∧
      below.map Prod.fst = (child :: children).flatMap h.trace ∧
      ((∀ call ∈ below, call.2 = v) ↔
        moved v = v ∨ h.FirstOnly child ∧ ∀ other ∈ children, h.trace other = []) := by
  obtain ⟨calls, hcalls, hfst, hall⟩ := hf child List.mem_cons_self v
  obtain ⟨rest, hrest, hfst', hall'⟩ := forwardSignals_settled
    (fun other ho => hf other (List.mem_cons_of_mem child ho)) (Movable.moved_moved v)
  refine ⟨calls ++ rest, ?_, ?_, ?_⟩
  · simp only [forwardSignals, hcalls, hrest]
    rfl
  · rw [List.map_append, hfst, hfst', List.flatMap_cons]
  · by_cases hv : moved v = v
    · rw [hv] at hall'
      refine ⟨fun _ => .inl hv, fun _ call hc => ?_⟩
      rcases List.mem_append.mp hc with hc | hc
      · exact hall.mpr (.inl hv) call hc
      · exact hall' call hc
    · have hrest_iff := all_moved_iff hv hall'
      rw [hfst', List.flatMap_eq_nil_iff] at hrest_iff
      simp only [List.forall_mem_append, hall, hrest_iff, hv, false_or]

end

/-- How a signal calls only the first. -/
theorem FirstOnly.cases (hf : h.FirstOnly sg) (hsig : h.signal? sg = some signal) :
    signal.locked = true ∨ (signal.signals = [] ∧ (h.unlocked signal).length ≤ 1) ∨
      ∃ child children, signal.signals = child :: children ∧ h.FirstOnly child ∧
        (∀ other ∈ children, h.Trace other []) ∧ h.unlocked signal = [] := by
  cases hf with
  | locked hsig' hl =>
    obtain rfl := Option.some.inj (hsig.symm.trans hsig')
    exact .inl hl
  | own hsig' hnone hone =>
    obtain rfl := Option.some.inj (hsig.symm.trans hsig')
    exact .inr (.inl ⟨hnone, hone⟩)
  | linked hsig' hcons hfirst hrest hown =>
    obtain rfl := Option.some.inj (hsig.symm.trans hsig')
    exact .inr (.inr ⟨_, _, hcons, hfirst, hrest, hown⟩)

theorem firstOnly_nil (hsig : h.signal? sg = some signal) (hl : signal.locked = false)
    (hs : signal.signals = []) : h.FirstOnly sg ↔ (h.unlocked signal).length ≤ 1 := by
  refine ⟨fun hf => ?_, .own hsig hs⟩
  rcases hf.cases hsig with hl' | ⟨-, hone⟩ | ⟨child, children, hcons, -⟩
  · exact absurd (hl.symm.trans hl') Bool.noConfusion
  · exact hone
  · exact absurd (hs.symm.trans hcons) (List.cons_ne_nil _ _).symm

theorem firstOnly_cons {child : Nat} {children : List Nat} (hsig : h.signal? sg = some signal)
    (hl : signal.locked = false) (hs : signal.signals = child :: children) :
    h.FirstOnly sg ↔
      (h.FirstOnly child ∧ ∀ other ∈ children, h.Trace other []) ∧ h.unlocked signal = [] := by
  constructor
  · intro hf
    rcases hf.cases hsig with hl' | ⟨hnone, -⟩ | ⟨first, others, hcons, hfirst, hrest, hown⟩
    · exact absurd (hl.symm.trans hl') Bool.noConfusion
    · exact absurd (hs.symm.trans hnone) (List.cons_ne_nil _ _)
    · obtain ⟨rfl, rfl⟩ := List.cons.inj (hs.symm.trans hcons)
      exact ⟨⟨hfirst, hrest⟩, hown⟩
  · rintro ⟨⟨hfirst, hrest⟩, hown⟩
    exact .linked hsig hs hfirst hrest hown

/-- A signal that is not locked calls the linked signals and its own callbacks. -/
theorem calls_unlocked (hg : h.AcyclicLinks) (hsig : h.signal? sg = some signal)
    (hl : signal.locked = false) {f : Nat → V → Option (List (Joint κ × V))}
    (hf : ∀ child ∈ signal.signals, h.CallsSignal f child) (v : V) :
    ∃ below left, forwardSignals f v signal.signals = some (below, left) ∧
      (below ++ (forwardCalls h.isLocked left signal.callbacks).1).map Prod.fst = h.trace sg ∧
      ((∀ call ∈ below ++ (forwardCalls h.isLocked left signal.callbacks).1, call.2 = v) ↔
        moved v = v ∨ h.FirstOnly sg) := by
  have htrace := trace_unlocked hg hsig hl
  cases hs : signal.signals with
  | nil =>
    rw [hs, List.flatMap_nil, List.nil_append] at htrace
    refine ⟨[], v, rfl, ?_, ?_⟩
    · rw [List.nil_append, htrace, forwardCalls_map_fst]
      rfl
    · rw [List.nil_append, forwardCalls_all_iff, firstOnly_nil hsig hl hs]
      rfl
  | cons child children =>
    rw [hs] at hf htrace
    obtain ⟨below, hbelow, hfst, hall⟩ := forwardSignals_cons (v := v) hf
    refine ⟨below, moved v, hbelow, ?_, ?_⟩
    · rw [List.map_append, hfst, htrace, forwardCalls_map_fst]
      rfl
    · have hown : ∀ call ∈ (forwardCalls h.isLocked (moved v) signal.callbacks).1,
          call.2 = moved v :=
        (forwardCalls_all_iff h.isLocked (moved v) signal.callbacks).mpr
          (.inl (Movable.moved_moved v))
      rw [List.forall_mem_append, hall, firstOnly_cons hsig hl hs]
      by_cases hv : moved v = v
      · rw [hv] at hown ⊢
        exact ⟨fun _ => .inl rfl, fun _ => ⟨.inl rfl, hown⟩⟩
      · have hown_iff := all_moved_iff hv hown
        rw [forwardCalls_map_fst] at hown_iff
        have hrest : (∀ other ∈ children, h.trace other = []) ↔
            ∀ other ∈ children, h.Trace other [] := by
          refine forall₂_congr fun other ho => ?_
          obtain ⟨signal', hsig'⟩ := hg.live sg other ⟨signal, hsig, by
            rw [hs]
            exact List.mem_cons_of_mem child ho⟩
          exact ⟨fun hnil => hnil ▸ trace_spec hg hsig', fun ht => trace_eq ht hg hsig'⟩
        rw [hown_iff, hrest]
        simp only [hv, false_or]
        rfl

/-- An emission of a signal that exists, with a depth that is enough for all signals that are not above
    it. -/
theorem emitWith_calls (hg : h.AcyclicLinks) {fuel : Nat} {held : List Nat} (hw : h.Way held sg)
    (hsig : h.signal? sg = some signal) (hfuel : fuel + held.length = h.signals.length) :
    h.CallsSignal (h.emitWith (V := V) fuel held) sg := by
  induction fuel generalizing held sg signal with
  | zero => exact absurd hfuel (by have := hw.length_lt hg hsig; omega)
  | succ fuel ih =>
    have hbelow : ∀ child ∈ signal.signals, h.CallsSignal (h.emitWith (V := V) fuel (sg :: held)) child := by
      intro child hc
      obtain ⟨signal', hsig'⟩ := hg.live sg child ⟨signal, hsig, hc⟩
      exact ih (hw.cons hg hsig hc) hsig' (by rw [List.length_cons]; omega)
    intro v
    by_cases hl : signal.locked = true
    · refine ⟨[], ?_, (trace_eq (.locked hsig hl) hg hsig).symm, ?_⟩
      · simp [emitWith, hw.not_mem hg, hsig, hl]
      · exact ⟨fun _ => .inr (.locked hsig hl), fun _ _ hc => absurd hc List.not_mem_nil⟩
    · have hl' : signal.locked = false := by simpa using hl
      obtain ⟨below, left, hcalls, hfst, hall⟩ := calls_unlocked hg hsig hl' hbelow v
      rw [← forwardLoop_eq] at hfst hall
      refine ⟨_, ?_, hfst, hall⟩
      simp [emitWith, hw.not_mem hg, hsig, hl', hcalls]

/-- Both emissions invoke the trace and give the callbacks the same arguments. -/
theorem emissionWith_calls (hg : h.AcyclicLinks) (hsig : h.signal? sg = some signal) (v : V) :
    ∃ calls, h.emissionWith sg v = some calls ∧ h.aggregateWith sg v = some calls ∧
      calls.map Prod.fst = h.trace sg ∧ ((∀ call ∈ calls, call.2 = v) ↔ moved v = v ∨ h.FirstOnly sg) := by
  obtain ⟨n, hn⟩ := length_of_signal? hsig
  by_cases hl : signal.locked = true
  · refine ⟨[], ?_, ?_, (trace_eq (.locked hsig hl) hg hsig).symm, ?_⟩
    · simp [emissionWith, hn, emitWith, hsig, hl]
    · simp [aggregateWith, hsig, hl]
    · exact ⟨fun _ => .inr (.locked hsig hl), fun _ _ hc => absurd hc List.not_mem_nil⟩
  · have hl' : signal.locked = false := by simpa using hl
    have hbelow : ∀ child ∈ signal.signals, h.CallsSignal (h.emitWith (V := V) n [sg]) child := by
      intro child hc
      obtain ⟨signal', hsig'⟩ := hg.live sg child ⟨signal, hsig, hc⟩
      exact emitWith_calls hg ((way_nil h sg).cons hg hsig hc) hsig' (by
        rw [List.length_singleton]
        omega)
    obtain ⟨below, left, hcalls, hfst, hall⟩ := calls_unlocked hg hsig hl' hbelow v
    refine ⟨_, ?_, ?_, hfst, hall⟩
    · simp [emissionWith, hn, emitWith, hsig, hl', hcalls, forwardLoop_eq]
    · simp [aggregateWith, hn, hsig, hl', hcalls]

/-- **What the callbacks are given.** In a graph of links without a cycle every callback that an emission
    invokes is given the arguments of the emission exactly if moving from them changes nothing, or at
    each signal on the way down only the first one that is handed the arguments invokes any callback. -/
theorem givesAll_iff (hg : h.AcyclicLinks) (hsig : h.signal? sg = some signal) (v : V) :
    h.GivesAll sg v ↔ moved v = v ∨ h.FirstOnly sg := by
  obtain ⟨calls, hemit, hagg, hfst, hall⟩ := emissionWith_calls hg hsig v
  rw [← hall]
  constructor
  · rintro ⟨calls', hemit', -, -, hall'⟩
    obtain rfl := Option.some.inj (hemit.symm.trans hemit')
    exact hall'
  · intro hall'
    refine ⟨calls, hemit, hagg, ?_, hall'⟩
    rw [hfst]
    exact trace_spec hg hsig

/-- Two signals share a link to a third one, which has an unlocked and a locked callback. The first has another
    link, to a locked signal, and a locked callback of its own, and the second has two unlocked callbacks. -/
def linkedSignals : Heap String :=
  { signals :=
      [some ⟨false, [⟨"a", 0, none⟩], [2, 3], []⟩,
        some ⟨false, [⟨"b", 1, none⟩, ⟨"c", 2, none⟩], [2], []⟩,
        some ⟨false, [⟨"d", 3, none⟩, ⟨"e", 4, none⟩], [], [0, 1]⟩,
        some ⟨true, [⟨"f", 5, none⟩], [], [0]⟩]
    slots := []
    data := [true, false, false, false, true, false] }

/-- An emission of the first signal gives the pointer to the only callback that is invoked; one of the second
    gives it to the first callback of three, so it must be null. -/
theorem givesAll_iff_linkedSignals : linkedSignals.GivesAll 0 (some 7 : SharedPtr) ∧
    ¬ linkedSignals.GivesAll 1 (some 7 : SharedPtr) ∧ linkedSignals.GivesAll 1 (none : SharedPtr) := by
  have hacyclic : linkedSignals.AcyclicLinks := acyclicLinks_of_increasing (by decide)
  have hthird : linkedSignals.signal? 2 = some ⟨false, [⟨"d", 3, none⟩, ⟨"e", 4, none⟩], [], [0, 1]⟩ := rfl
  have hfourth : linkedSignals.signal? 3 = some ⟨true, [⟨"f", 5, none⟩], [], [0]⟩ := rfl
  have hfirst : linkedSignals.signal? 0 = some ⟨false, [⟨"a", 0, none⟩], [2, 3], []⟩ := rfl
  have hsecond : linkedSignals.signal? 1 = some ⟨false, [⟨"b", 1, none⟩, ⟨"c", 2, none⟩], [2], []⟩ := rfl
  refine ⟨(givesAll_iff hacyclic hfirst _).mpr (.inr ?_), fun hgives => ?_,
    (givesAll_iff hacyclic hsecond _).mpr (.inl rfl)⟩
  · refine .linked hfirst rfl (.own hthird rfl (by decide)) (fun other hother => ?_) rfl
    obtain rfl := List.mem_singleton.mp hother
    exact .locked hfourth rfl
  · rcases (givesAll_iff hacyclic hsecond _).mp hgives with hmoved | hfirstOnly
    · cases hmoved
    · cases hfirstOnly with
      | locked hsig hl | own hsig hnone | linked hsig hcons hchild hrest hown =>
        obtain rfl := Option.some.inj (hsecond.symm.trans hsig)
        contradiction

/-- Two slots on `server::connected`. -/
def twoSlots : Heap String :=
  { signals := [some ⟨false, [⟨"a", 0, none⟩, ⟨"b", 1, none⟩], [], []⟩], slots := []
    data := [false, false] }

/-- The second slot is given a null pointer. -/
theorem second_slot_gets_null :
    twoSlots.emissionWith 0 (some 7 : SharedPtr) =
      some [(⟨"a", 0, none⟩, some 7), (⟨"b", 1, none⟩, none)] ∧
    ¬ twoSlots.GivesAll 0 (some 7 : SharedPtr) := by
  have hemit : twoSlots.emissionWith 0 (some 7 : SharedPtr) =
      some [(⟨"a", 0, none⟩, some 7), (⟨"b", 1, none⟩, none)] := rfl
  refine ⟨hemit, ?_⟩
  rintro ⟨calls, hcalls, -, -, hall⟩
  obtain rfl := Option.some.inj (hemit.symm.trans hcalls)
  exact absurd (hall (⟨"b", 1, none⟩, none) (by simp)) (by decide)

end Heap

end Lnetlib.Lsignal
