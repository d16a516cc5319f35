import Lnetlib.Lsignal.Links
import Lnetlib.Lsignal.Proofs.HeapProofs

/-!
# Proofs: when the links of signals stay valid

A child has at least as many closures for a parent as the parent has pointers to it (`Inv.counts`), so the
closures that a destroyed child runs remove every pointer to it. Nothing removes the closures that capture a
destroyed parent.
-/

namespace Lnetlib.Lsignal

open Transition

variable {κ : Type} {h h' : Heap κ} {sg parent child : Nat} {signal : Signal κ}

namespace Heap

/-- Unlinking takes one pointer out of the parent. -/
theorem signal?_disconnectSignal (hs : h.disconnectSignal parent sg = some h') (sg' : Nat) :
    h'.signal? sg' = (h.signal? sg').map fun signal =>
      if sg' = parent then { signal with signals := signal.signals.erase sg } else signal := by
  obtain ⟨signal, hsig, rfl⟩ := Option.map_eq_some_iff.mp hs
  rw [signal?_setSignal hsig]
  by_cases heq : sg' = parent
  · subst heq
    simp [hsig]
  · simp [heq]

/-- Linking adds a pointer to the parent and a closure to the child. -/
theorem signal?_connectSignal (hs : h.connectSignal parent child = some h') :
    parent ≠ child ∧ (h.signal? parent).isSome ∧ (h.signal? child).isSome ∧
    h'.signals.length = h.signals.length ∧
    ∀ sg', h'.signal? sg' = (h.signal? sg').map fun signal =>
      { signal with
        signals := signal.signals ++ (if sg' = parent then [child] else [])
        deleters := signal.deleters ++ (if sg' = child then [parent] else []) } := by
  unfold connectSignal at hs
  by_cases hne : parent = child
  · simp [hne] at hs
  simp only [hne, if_false] at hs
  obtain ⟨sc, hsc, hs⟩ := Option.bind_eq_some_iff.mp hs
  obtain ⟨sp, hsp, hs⟩ := Option.bind_eq_some_iff.mp hs
  obtain rfl := Option.some.inj hs
  have hsp₀ : h.signal? parent = some sp := by
    rwa [signal?_setSignal hsc, if_neg hne] at hsp
  refine ⟨hne, by simp [hsp₀], by simp [hsc], by simp, fun sg' => ?_⟩
  rw [signal?_setSignal hsp, signal?_setSignal hsc]
  by_cases hp : sg' = parent
  · subst hp
    simp [hsp₀, hne]
  · by_cases hc : sg' = child
    · subst hc
      simp [hp, hsc]
    · simp [hp, hc]

/-- What the closures of a signal that is being destroyed do to the other signals. -/
theorem signal?_callDeleters {ds : List Nat} (hs : ds.foldlM (callDeleter sg) h = some h') :
    h'.signals.length = h.signals.length ∧
    ∀ sg', ∃ left : List Nat,
      h'.signal? sg' = (h.signal? sg').map (fun signal => { signal with signals := left }) ∧
      ∀ signal, h.signal? sg' = some signal → ∀ c, left.count c =
        signal.signals.count c - if c = sg then ds.count sg' else 0 := by
  induction ds generalizing h with
  | nil =>
    obtain rfl : h = h' := Option.some.inj hs
    refine ⟨rfl, fun sg' => ?_⟩
    cases hsig : h.signal? sg' with
    | none => exact ⟨[], rfl, by simp⟩
    | some signal => exact ⟨signal.signals, rfl, by simp⟩
  | cons d ds ih =>
    obtain ⟨h₁, hd, hs⟩ := Option.bind_eq_some_iff.mp (hs : (callDeleter sg h d).bind _ = _)
    unfold callDeleter at hd
    split_ifs at hd with hne
    obtain ⟨hlen, hsigs⟩ := ih hs
    have hsigs₁ := signal?_disconnectSignal hd
    obtain ⟨sp, hsp, rfl⟩ := Option.map_eq_some_iff.mp hd
    refine ⟨by rw [hlen]; simp, fun sg' => ?_⟩
    obtain ⟨left, hleft, hcount⟩ := hsigs sg'
    refine ⟨left, ?_, fun signal hsig c => ?_⟩
    · rw [hleft, hsigs₁]
      cases h.signal? sg' with
      | none => rfl
      | some signal =>
        by_cases heq : sg' = d
        · simp [heq]
        · simp [heq]
    · rw [hcount _ (by rw [hsigs₁, hsig]; rfl)]
      by_cases heq : sg' = d
      · subst heq
        by_cases hc : c = sg
        · subst hc
          simp [List.count_erase_self]
          omega
        · simp [hc, List.count_erase_of_ne hc]
      · simp [heq, Ne.symm heq]

/-- The destructor of a signal without callbacks goes through when the parents that its closures capture
    exist. -/
theorem isSome_destroySignal (hsig : h.signal? sg = some signal) (hcalls : signal.callbacks = [])
    (hds : ∀ parent ∈ signal.deleters, parent ≠ sg ∧ (h.signal? parent).isSome) :
    (h.destroySignal sg).isSome := by
  have hfold : ∀ (ds : List Nat) (h : Heap κ),
      (∀ parent ∈ ds, parent ≠ sg ∧ (h.signal? parent).isSome) →
        (ds.foldlM (callDeleter sg) h).isSome := by
    intro ds
    induction ds with
    | nil => exact fun _ _ => rfl
    | cons d ds ih =>
      intro h hds
      obtain ⟨hne, hlive⟩ := hds d List.mem_cons_self
      obtain ⟨signal, hsig⟩ := Option.isSome_iff_exists.mp hlive
      have hd : h.disconnectSignal d sg =
          some (h.setSignal d { signal with signals := signal.signals.erase sg }) := by
        simp [disconnectSignal, hsig]
      rw [List.foldlM_cons, callDeleter, if_neg hne, hd]
      refine ih _ fun parent hp => ?_
      obtain ⟨hpne, hplive⟩ := hds parent (List.mem_cons_of_mem _ hp)
      refine ⟨hpne, ?_⟩
      rw [signal?_disconnectSignal hd, Option.isSome_map]
      exact hplive
  obtain ⟨h', hh'⟩ := Option.isSome_iff_exists.mp (hfold signal.deleters h hds)
  simp [destroySignal, hsig, hcalls, clearOwners, hh']

/-- What is left after the destruction of a signal without callbacks. -/
theorem signal?_destroySignal (hsig : h.signal? sg = some signal) (hcalls : signal.callbacks = [])
    (hs : h.destroySignal sg = some h') :
    h'.signals.length = h.signals.length ∧ h'.signal? sg = none ∧
    ∀ sg', sg' ≠ sg → ∃ left : List Nat,
      h'.signal? sg' = (h.signal? sg').map (fun other => { other with signals := left }) ∧
      ∀ other, h.signal? sg' = some other → ∀ c, left.count c =
        other.signals.count c - if c = sg then signal.deleters.count sg' else 0 := by
  obtain ⟨signal', hsig', hs⟩ := Option.bind_eq_some_iff.mp hs
  obtain rfl := Option.some.inj (hsig.symm.trans hsig')
  rw [hcalls] at hs
  obtain ⟨h₀, hclear, hs⟩ := Option.bind_eq_some_iff.mp hs
  obtain rfl : h = h₀ := Option.some.inj hclear
  obtain ⟨h₁, hdel, hs⟩ := Option.bind_eq_some_iff.mp hs
  obtain rfl := Option.some.inj hs
  obtain ⟨hlen, hsigs⟩ := signal?_callDeleters hdel
  refine ⟨by simp [hlen], by simp [signal?_destroyed], fun sg' hne => ?_⟩
  obtain ⟨left, hleft, hcount⟩ := hsigs sg'
  exact ⟨left, by rw [signal?_destroyed, if_neg hne, hleft], hcount⟩

end Heap

namespace Links

variable {s s' : Links κ}

/-- What holds in every state. -/
structure Inv (s : Links κ) : Prop where
  callbacks : ∀ sg signal, s.heap.signal? sg = some signal → signal.callbacks = []
  /-- Every pointer to a child is matched by a closure of the child. -/
  counts : ∀ parent child sp sc, s.heap.signal? parent = some sp → s.heap.signal? child = some sc →
    sp.signals.count child ≤ sc.deleters.count parent
  /-- A signal points to signals that exist. -/
  signals : ∀ sg signal, s.heap.signal? sg = some signal →
    ∀ child ∈ signal.signals, (s.heap.signal? child).isSome
  deleters : ∀ sg signal, s.heap.signal? sg = some signal →
    ∀ parent, parent ∈ signal.deleters ↔ (parent, sg) ∈ s.linked
  linked : ∀ link ∈ s.linked, link.1 ≠ link.2 ∧ link.2 < s.heap.signals.length

theorem inv_init : Inv (init κ) where
  callbacks := by simp [init, Heap.init, Heap.signal?]
  counts := by simp [init, Heap.init, Heap.signal?]
  signals := by simp [init, Heap.init, Heap.signal?]
  deleters := by simp [init, Heap.init, Heap.signal?]
  linked := by simp [init]

theorem inv_newSignal (hi : Inv s) : Inv { s with heap := s.heap.newSignal } := by
  have hnew : s.heap.signal? s.heap.signals.length = none := by simp [Heap.signal?]
  have hlive : ∀ sg, (s.heap.signal? sg).isSome → (s.heap.newSignal.signal? sg).isSome := by
    intro sg hsome
    rw [Heap.signal?_newSignal]
    split_ifs
    · rfl
    · exact hsome
  have hsigs := Heap.signal?_newSignal s.heap
  constructor
  · intro sg signal hsig
    rw [hsigs] at hsig
    split_ifs at hsig
    · obtain rfl := Option.some.inj hsig
      rfl
    · exact hi.callbacks sg signal hsig
  · intro parent child sp sc hsp hsc
    rw [hsigs] at hsp hsc
    split_ifs at hsp with hp
    · obtain rfl := Option.some.inj hsp
      exact Nat.zero_le _
    · by_cases hc : child = s.heap.signals.length
      · -- nothing points to a signal that does not exist yet
        have hnot : child ∉ sp.signals := by
          intro hmem
          have := hi.signals parent sp hsp child hmem
          rw [hc, hnew] at this
          cases this
        rw [List.count_eq_zero_of_not_mem hnot]
        exact Nat.zero_le _
      · rw [if_neg hc] at hsc
        exact hi.counts parent child sp sc hsp hsc
  · intro sg signal hsig child hc
    rw [hsigs] at hsig
    split_ifs at hsig
    · obtain rfl := Option.some.inj hsig
      cases hc
    · exact hlive child (hi.signals sg signal hsig child hc)
  · intro sg signal hsig parent
    rw [hsigs] at hsig
    split_ifs at hsig with heq
    · obtain rfl := Option.some.inj hsig
      refine ⟨fun hp => absurd hp List.not_mem_nil, fun hl => ?_⟩
      have := (hi.linked _ hl).2
      simp only [heq] at this
      omega
    · exact hi.deleters sg signal hsig parent
  · intro link hl
    obtain ⟨hne, hlt⟩ := hi.linked link hl
    refine ⟨hne, ?_⟩
    simp only [Heap.newSignal, List.length_append, List.length_singleton]
    omega

theorem inv_connect {heap : Heap κ} (hi : Inv s) (hs : s.heap.connectSignal parent sg = some heap) :
    Inv { heap := heap, linked := s.linked ++ [(parent, sg)] } := by
  obtain ⟨hne, hparent, hchild, hlen, hsigs⟩ := Heap.signal?_connectSignal hs
  have hlive : ∀ sg', (s.heap.signal? sg').isSome → (heap.signal? sg').isSome := by
    intro sg' hsome
    rwa [hsigs, Option.isSome_map]
  constructor
  · intro sg' signal hsig
    rw [hsigs] at hsig
    obtain ⟨old, hold, rfl⟩ := Option.map_eq_some_iff.mp hsig
    exact hi.callbacks sg' old hold
  · intro p c sp sc hsp hsc
    rw [hsigs] at hsp hsc
    obtain ⟨sp₀, hsp₀, rfl⟩ := Option.map_eq_some_iff.mp hsp
    obtain ⟨sc₀, hsc₀, rfl⟩ := Option.map_eq_some_iff.mp hsc
    have := hi.counts p c sp₀ sc₀ hsp₀ hsc₀
    simp only [List.count_append]
    by_cases hp : p = parent
    · by_cases hc : c = sg
      · simp [hp, hc] at this ⊢
        omega
      · simp [hp, hc, Ne.symm hc] at this ⊢
        omega
    · simp [hp] at this ⊢
      omega
  · intro sg' signal hsig child hc
    rw [hsigs] at hsig
    obtain ⟨old, hold, rfl⟩ := Option.map_eq_some_iff.mp hsig
    rcases List.mem_append.mp hc with hc | hc
    · exact hlive child (hi.signals sg' old hold child hc)
    · split_ifs at hc
      · obtain rfl := List.mem_singleton.mp hc
        exact hlive child hchild
      · cases hc
  · intro sg' signal hsig p
    rw [hsigs] at hsig
    obtain ⟨old, hold, rfl⟩ := Option.map_eq_some_iff.mp hsig
    rw [List.mem_append, List.mem_append, hi.deleters sg' old hold p]
    refine or_congr Iff.rfl ?_
    by_cases hc : sg' = sg
    · simp [hc]
    · simp [hc]
  · intro link hl
    simp only [hlen]
    rcases List.mem_append.mp hl with hl | hl
    · exact hi.linked link hl
    · obtain rfl := List.mem_singleton.mp hl
      obtain ⟨signal, hsig⟩ := Option.isSome_iff_exists.mp hchild
      exact ⟨hne, (List.getElem?_eq_some_iff.mp (Heap.signal?_eq_some.mp hsig)).1⟩

theorem inv_disconnect {heap : Heap κ} (hi : Inv s)
    (hs : s.heap.disconnectSignal parent sg = some heap) : Inv { s with heap := heap } := by
  have hsigs := Heap.signal?_disconnectSignal hs
  have hlen : heap.signals.length = s.heap.signals.length := by
    obtain ⟨signal, -, rfl⟩ := Option.map_eq_some_iff.mp hs
    simp
  have hlive : ∀ sg', (s.heap.signal? sg').isSome → (heap.signal? sg').isSome := by
    intro sg' hsome
    rwa [hsigs, Option.isSome_map]
  -- the list of signals loses at most one entry, and nothing else changes
  have hold : ∀ sg' signal, heap.signal? sg' = some signal → ∃ old, s.heap.signal? sg' = some old ∧
      signal.callbacks = old.callbacks ∧ signal.deleters = old.deleters ∧
      signal.signals.Sublist old.signals := by
    intro sg' signal hsig
    rw [hsigs] at hsig
    obtain ⟨old, hold, rfl⟩ := Option.map_eq_some_iff.mp hsig
    refine ⟨old, hold, ?_⟩
    split_ifs
    · exact ⟨rfl, rfl, List.erase_sublist⟩
    · exact ⟨rfl, rfl, .refl _⟩
  constructor
  · intro sg' signal hsig
    obtain ⟨old, hold, hc, -⟩ := hold sg' signal hsig
    rw [hc]
    exact hi.callbacks sg' old hold
  · intro p c sp sc hsp hsc
    obtain ⟨sp₀, hsp₀, -, -, hsub⟩ := hold p sp hsp
    obtain ⟨sc₀, hsc₀, -, hdel, -⟩ := hold c sc hsc
    rw [hdel]
    exact Nat.le_trans (hsub.count_le c) (hi.counts p c sp₀ sc₀ hsp₀ hsc₀)
  · intro sg' signal hsig child hc
    obtain ⟨old, hold, -, -, hsub⟩ := hold sg' signal hsig
    exact hlive child (hi.signals sg' old hold child (hsub.subset hc))
  · intro sg' signal hsig p
    obtain ⟨old, hold, -, hdel, -⟩ := hold sg' signal hsig
    rw [hdel]
    exact hi.deleters sg' old hold p
  · intro link hl
    simp only [hlen]
    exact hi.linked link hl

theorem inv_destroy {heap : Heap κ} (hi : Inv s) (hs : s.heap.destroySignal sg = some heap) :
    Inv { s with heap := heap } := by
  obtain ⟨signal, hsig, -⟩ := Option.bind_eq_some_iff.mp hs
  obtain ⟨hlen, hgone, hsigs⟩ := Heap.signal?_destroySignal hsig (hi.callbacks sg signal hsig) hs
  have hold : ∀ sg' new, heap.signal? sg' = some new → sg' ≠ sg ∧ ∃ old,
      s.heap.signal? sg' = some old ∧ new.callbacks = old.callbacks ∧ new.deleters = old.deleters ∧
      ∀ c, new.signals.count c = old.signals.count c - if c = sg then signal.deleters.count sg' else 0 := by
    intro sg' new hnew
    have hne : sg' ≠ sg := by
      rintro rfl
      rw [hgone] at hnew
      cases hnew
    obtain ⟨left, hleft, hcount⟩ := hsigs sg' hne
    rw [hleft] at hnew
    obtain ⟨old, hold, rfl⟩ := Option.map_eq_some_iff.mp hnew
    exact ⟨hne, old, hold, rfl, rfl, hcount old hold⟩
  have hlive : ∀ sg', sg' ≠ sg → (s.heap.signal? sg').isSome → (heap.signal? sg').isSome := by
    intro sg' hne hsome
    obtain ⟨left, hleft, -⟩ := hsigs sg' hne
    rwa [hleft, Option.isSome_map]
  constructor
  · intro sg' new hnew
    obtain ⟨-, old, hold, hc, -⟩ := hold sg' new hnew
    rw [hc]
    exact hi.callbacks sg' old hold
  · intro p c sp sc hsp hsc
    obtain ⟨-, sp₀, hsp₀, -, -, hcount⟩ := hold p sp hsp
    obtain ⟨hne, sc₀, hsc₀, -, hdel, -⟩ := hold c sc hsc
    have := hi.counts p c sp₀ sc₀ hsp₀ hsc₀
    rw [hdel, hcount c]
    omega
  · intro sg' new hnew child hc
    obtain ⟨hne, old, hsome, -, -, hcount⟩ := hold sg' new hnew
    have hpos := List.count_pos_iff.mpr hc
    rw [hcount child] at hpos
    by_cases heq : child = sg
    · -- the closures of the destroyed signal have removed every pointer to it
      subst heq
      have := hi.counts sg' child old signal hsome hsig
      rw [if_pos rfl] at hpos
      omega
    · exact hlive child heq (hi.signals sg' old hsome child (List.count_pos_iff.mp (by omega)))
  · intro sg' new hnew p
    obtain ⟨-, old, hold, -, hdel, -⟩ := hold sg' new hnew
    rw [hdel]
    exact hi.deleters sg' old hold p
  · intro link hl
    simp only [hlen]
    exact hi.linked link hl

/-- What one step preserves. -/
theorem inv_step {a : LinksAct} (hi : Inv s) (hs : step s a = some s') : Inv s' := by
  cases a with
  | newSignal =>
    obtain rfl := Option.some.inj hs
    exact inv_newSignal hi
  | connect parent sg =>
    obtain ⟨heap, hheap, rfl⟩ := Option.map_eq_some_iff.mp hs
    exact inv_connect hi hheap
  | disconnect parent sg =>
    obtain ⟨heap, hheap, rfl⟩ := Option.map_eq_some_iff.mp hs
    exact inv_disconnect hi hheap
  | destroy sg =>
    obtain ⟨heap, hheap, rfl⟩ := Option.map_eq_some_iff.mp hs
    exact inv_destroy hi hheap

/-- What is left of `Valid` to show: the closures of a signal capture parents that exist. -/
theorem valid_iff (hi : Inv s) : s.Valid ↔ ∀ sg signal, s.heap.signal? sg = some signal →
    ∀ parent ∈ signal.deleters, (s.heap.signal? parent).isSome := by
  constructor
  · exact fun hv sg signal hsig => (hv sg signal hsig).2.1
  · intro hd sg signal hsig
    refine ⟨hi.signals sg signal hsig, hd sg signal hsig,
      Heap.isSome_destroySignal hsig (hi.callbacks sg signal hsig) fun parent hp => ?_⟩
    have hlink := (hi.deleters sg signal hsig parent).mp hp
    exact ⟨(hi.linked _ hlink).1, hd sg signal hsig parent hp⟩

/-- One step from a state in which the links are valid. -/
theorem valid_step {a : LinksAct} (hi : Inv s) (hv : s.Valid) (hs : step s a = some s') :
    s'.Valid ↔ s.ChildrenFirst a := by
  have hi' := inv_step hi hs
  rw [valid_iff hi'] at *
  rw [valid_iff hi] at hv
  cases a with
  | newSignal =>
    obtain rfl := Option.some.inj hs
    refine iff_true_intro fun sg signal hsig parent hp => ?_
    rw [Heap.signal?_newSignal] at hsig ⊢
    split_ifs at hsig
    · obtain rfl := Option.some.inj hsig
      cases hp
    · split_ifs
      · rfl
      · exact hv sg signal hsig parent hp
  | connect parent sg =>
    obtain ⟨heap, hheap, rfl⟩ := Option.map_eq_some_iff.mp hs
    obtain ⟨-, hparent, -, -, hsigs⟩ := Heap.signal?_connectSignal hheap
    refine iff_true_intro fun sg' signal hsig p hp => ?_
    rw [hsigs] at hsig
    obtain ⟨old, hold, rfl⟩ := Option.map_eq_some_iff.mp hsig
    rw [hsigs, Option.isSome_map]
    rcases List.mem_append.mp hp with hp | hp
    · exact hv sg' old hold p hp
    · split_ifs at hp
      · obtain rfl := List.mem_singleton.mp hp
        exact hparent
      · cases hp
  | disconnect parent sg =>
    obtain ⟨heap, hheap, rfl⟩ := Option.map_eq_some_iff.mp hs
    have hsigs := Heap.signal?_disconnectSignal hheap
    refine iff_true_intro fun sg' signal hsig p hp => ?_
    rw [hsigs] at hsig
    obtain ⟨old, hold, rfl⟩ := Option.map_eq_some_iff.mp hsig
    rw [hsigs, Option.isSome_map]
    refine hv sg' old hold p ?_
    split_ifs at hp
    · exact hp
    · exact hp
  | destroy sg =>
    obtain ⟨heap, hheap, rfl⟩ := Option.map_eq_some_iff.mp hs
    obtain ⟨signal, hsig, -⟩ := Option.bind_eq_some_iff.mp hheap
    obtain ⟨-, hgone, hsigs⟩ := Heap.signal?_destroySignal hsig (hi.callbacks sg signal hsig) hheap
    constructor
    · rintro hv' ⟨parent, child⟩ hl heq
      obtain rfl : parent = sg := heq
      have hne := (hi.linked _ hl).1
      obtain ⟨left, hleft, -⟩ := hsigs child (Ne.symm hne)
      -- a child that is left has a closure that captures the destroyed parent
      by_contra hsome
      obtain ⟨old, hold⟩ := Option.ne_none_iff_exists'.mp hsome
      rw [hold, Option.map_some] at hleft
      have := hv' child _ hleft parent ((hi.deleters child old hold parent).mpr hl)
      rw [hgone] at this
      cases this
    · intro hfirst sg' new hnew p hp
      have hne : sg' ≠ sg := by
        rintro rfl
        rw [hgone] at hnew
        cases hnew
      obtain ⟨left, hleft, -⟩ := hsigs sg' hne
      rw [hleft] at hnew
      obtain ⟨old, hold, rfl⟩ := Option.map_eq_some_iff.mp hnew
      have hpne : p ≠ sg := by
        rintro rfl
        have hnone := hfirst (p, sg') ((hi.deleters sg' old hold p).mp hp) rfl
        rw [hold] at hnone
        cases hnone
      obtain ⟨leftp, hleftp, -⟩ := hsigs p hpne
      rw [hleftp, Option.isSome_map]
      exact hv sg' old hold p hp

/-- Links stay valid in exactly the runs that destroy no signal before every signal that was ever linked to
    it as a child. -/
theorem valid_throughout_iff_childrenFirst (as : List LinksAct) (hr : run step (init κ) as = some s) :
    Throughout step Valid (init κ) as ↔ Meets step ChildrenFirst (init κ) as := by
  refine throughout_iff_meets (I := Inv) ?_ inv_init ?_ hr
  · exact fun s a s' hi hv hs => ⟨valid_step hi hv hs, fun _ => inv_step hi hs⟩
  · exact (valid_iff inv_init).mpr (by simp [init, Heap.init, Heap.signal?])

/-- A child linked twice, unlinked once and destroyed before its parent. -/
theorem valid_throughout_child_first :
    Throughout step Valid (init Nat)
      [.newSignal, .newSignal, .connect 0 1, .connect 0 1, .disconnect 0 1, .destroy 1, .destroy 0] :=
  (valid_throughout_iff_childrenFirst _ rfl).mpr (by decide)

/-- A parent destroyed before its child stays in the deleters of the child. -/
theorem invalid_parent_first :
    ¬ ∀ (as : List LinksAct) (s : Links Nat), run step (init Nat) as = some s →
      Throughout step Valid (init Nat) as := by
  intro h
  have hrun := h [.newSignal, .newSignal, .connect 0 1, .destroy 0] _ rfl
  have hlive := ((hrun.last rfl) 1 _ rfl).2.1 0 (by decide)
  exact absurd hlive (by decide)

end Links

end Lnetlib.Lsignal
