import Lnetlib.Lib.Run
import Mathlib.Algebra.BigOperators.Finprod
import Mathlib.Algebra.BigOperators.Group.Finset.Basic

/-!
# Runs that come to an end

A set of actions that each make a natural number smaller can be taken only so often. A run of them is
bounded by the number it starts with, and every run of them can be continued until none is enabled.

The number is often a sum over infinitely many places of which only finitely many count; `finsum_update`
says how it changes with one of them.
-/

namespace Transition

variable {σ α : Type*} {step : σ → α → Option σ} {A : α → Prop} {I : σ → Prop} {m : σ → Nat} {s s' : σ}
  {as : List α}

/-- No action of `A` is enabled. -/
def Stuck (step : σ → α → Option σ) (A : α → Prop) (s : σ) : Prop := ∀ a, A a → step s a = none

/-- The actions of `A` keep `I` and make `m` smaller. -/
structure Decreases (step : σ → α → Option σ) (A : α → Prop) (I : σ → Prop) (m : σ → Nat) : Prop where
  invariant : ∀ s a s', I s → A a → step s a = some s' → I s'
  decreases : ∀ s a s', I s → A a → step s a = some s' → m s' < m s

namespace Decreases

/-- A run is no longer than the number it starts with. -/
theorem length_add_le (h : Decreases step A I m) (hI : I s) (has : ∀ a ∈ as, A a)
    (hr : run step s as = some s') : as.length + m s' ≤ m s ∧ I s' := by
  induction as generalizing s with
  | nil =>
    rw [run_nil, Option.some.injEq] at hr
    subst hr
    exact ⟨by rw [List.length_nil]; omega, hI⟩
  | cons a as ih =>
    obtain ⟨s₁, hs₁, hr₁⟩ := Option.bind_eq_some_iff.mp hr
    have ha : A a := has a List.mem_cons_self
    have hlt : m s₁ < m s := h.decreases s a s₁ hI ha hs₁
    obtain ⟨hle, hI'⟩ := ih (h.invariant s a s₁ hI ha hs₁)
      (fun b hb => has b (List.mem_cons_of_mem a hb)) hr₁
    refine ⟨?_, hI'⟩
    rw [List.length_cons]
    omega

/-- There is a run to a state in which no action is enabled. -/
theorem exists_stuck (h : Decreases step A I m) (hI : I s) :
    ∃ as s', (∀ a ∈ as, A a) ∧ run step s as = some s' ∧ Stuck step A s' := by
  induction hn : m s using Nat.strong_induction_on generalizing s with
  | _ n ih =>
  by_cases hstuck : Stuck step A s
  · exact ⟨[], s, fun a ha => absurd ha List.not_mem_nil, rfl, hstuck⟩
  · unfold Stuck at hstuck
    push Not at hstuck
    obtain ⟨a, ha, hne⟩ := hstuck
    obtain ⟨s₁, hs₁⟩ := Option.ne_none_iff_exists'.mp hne
    have hlt : m s₁ < m s := h.decreases s a s₁ hI ha hs₁
    obtain ⟨as, s', has, hr, hend⟩ := ih (m s₁) (hn ▸ hlt) (h.invariant s a s₁ hI ha hs₁) rfl
    refine ⟨a :: as, s', fun b hb => ?_, ?_, hend⟩
    · rcases List.mem_cons.mp hb with rfl | hb
      · exact ha
      · exact has b hb
    · rw [run_cons, hs₁, Option.bind_some]
      exact hr

end Decreases

/-- A sum in which one term is replaced. -/
theorem finsum_update {ι : Type*} [DecidableEq ι] (f : ι → Nat) (hf : f.support.Finite) (i : ι)
    (x : Nat) : ∑ᶠ j, Function.update f i x j + f i = ∑ᶠ j, f j + x := by
  have hsub : f.support ⊆ ↑(insert i hf.toFinset) := by
    intro j hj
    simp only [Finset.coe_insert, Set.Finite.coe_toFinset]
    exact Set.mem_insert_of_mem i hj
  have hsub' : (Function.update f i x).support ⊆ ↑(insert i hf.toFinset) := by
    intro j hj
    by_cases hji : j = i
    · subst hji
      exact Finset.mem_coe.mpr (Finset.mem_insert_self j _)
    · rw [Function.mem_support, Function.update_of_ne hji] at hj
      exact hsub hj
  have hi : i ∈ insert i hf.toFinset := Finset.mem_insert_self i _
  rw [finsum_eq_sum_of_support_subset _ hsub, finsum_eq_sum_of_support_subset _ hsub',
    Finset.sum_update_of_mem hi, ← Finset.add_sum_erase _ f hi, Finset.sdiff_singleton_eq_erase]
  omega

end Transition
