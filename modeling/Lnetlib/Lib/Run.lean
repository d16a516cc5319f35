import Mathlib.Tactic.Common
import Mathlib.Data.List.Induction

/-!
# Runs of a partial step function

A system is a step function `step : σ → α → Option σ`: the action `α` resolves every choice of the
environment and of the scheduler, and `none` says that the action is not enabled. A run is the list of
its actions.

Besides reachability and the invariant rule, two notions compare a condition on the steps taken with
a property of the states passed through: `Meets C` (each action is taken in a state in which it meets
`C`) and `Throughout P` (every state passed through has `P`). `throughout_of_meets` is the rule for a
sufficient condition, `throughout_iff_meets` the one for an exact condition.
-/

namespace Transition

variable {σ τ α : Type*}

/-- The state after the actions `as`, provided each is enabled when it is taken. -/
def run (step : σ → α → Option σ) : σ → List α → Option σ
  | s, [] => some s
  | s, a :: as => (step s a).bind fun s' => run step s' as

/-- The states that a run from `s₀` ends in. -/
def Reachable (step : σ → α → Option σ) (s₀ s : σ) : Prop := ∃ as, run step s₀ as = some s

/-- Every action of the run from `s` is taken in a state in which it meets `C`. -/
def Meets (step : σ → α → Option σ) (C : σ → α → Prop) : σ → List α → Prop
  | _, [] => True
  | s, a :: as => C s a ∧ ∀ s', step s a = some s' → Meets step C s' as

instance Meets.decidable (step : σ → α → Option σ) (C : σ → α → Prop) [∀ s a, Decidable (C s a)] :
    ∀ s as, Decidable (Meets step C s as)
  | _, [] => isTrue trivial
  | s, a :: as =>
    have := fun s' => Meets.decidable step C s' as
    inferInstanceAs (Decidable (C s a ∧ ∀ s' ∈ step s a, Meets step C s' as))

/-- `P` holds in every state the run from `s` passes through, its first and last state included. -/
def Throughout (step : σ → α → Option σ) (P : σ → Prop) : σ → List α → Prop
  | s, [] => P s
  | s, a :: as => P s ∧ ∀ s', step s a = some s' → Throughout step P s' as

section

variable {step : σ → α → Option σ} {s₀ s s' : σ} {a : α} {as bs : List α}

@[simp] theorem run_nil : run step s [] = some s := rfl

@[simp] theorem run_cons : run step s (a :: as) = (step s a).bind fun s' => run step s' as := rfl

@[simp] theorem run_singleton : run step s [a] = step s a := by
  rw [run_cons]
  cases step s a <;> rfl

theorem run_append : run step s (as ++ bs) = (run step s as).bind fun s' => run step s' bs := by
  induction as generalizing s with
  | nil => rfl
  | cons a as ih =>
    rw [List.cons_append, run_cons, run_cons]
    cases h : step s a with
    | none => rfl
    | some s' => exact ih

/-- The last step of a nonempty run. -/
theorem run_snoc_eq_some :
    run step s (as ++ [a]) = some s' ↔ ∃ m, run step s as = some m ∧ step m a = some s' := by
  rw [run_append, Option.bind_eq_some_iff]
  simp

/-- Induction on a run from its end: what holds of the empty run and is kept by one more step holds
    of every run. -/
theorem run_induction {P : List α → σ → Prop} (h₀ : P [] s₀)
    (hstep : ∀ as s a s', P as s → step s a = some s' → P (as ++ [a]) s')
    (h : run step s₀ as = some s) : P as s := by
  induction as using List.reverseRecOn generalizing s with
  | nil =>
    rw [run_nil, Option.some.injEq] at h
    exact h ▸ h₀
  | append_singleton as a ih =>
    obtain ⟨m, hm, hma⟩ := run_snoc_eq_some.mp h
    exact hstep as m a s (ih hm) hma

theorem Reachable.refl : Reachable step s₀ s₀ := ⟨[], rfl⟩

theorem Reachable.tail (h : Reachable step s₀ s) (hs : step s a = some s') :
    Reachable step s₀ s' := by
  obtain ⟨as, has⟩ := h
  exact ⟨as ++ [a], run_snoc_eq_some.mpr ⟨s, has, hs⟩⟩

theorem Reachable.trans (h : Reachable step s₀ s) (h' : Reachable step s s') :
    Reachable step s₀ s' := by
  obtain ⟨as, has⟩ := h
  obtain ⟨bs, hbs⟩ := h'
  exact ⟨as ++ bs, by rw [run_append, has]; exact hbs⟩

theorem Reachable.single (hs : step s a = some s') : Reachable step s s' := Reachable.refl.tail hs

/-- The invariant rule. -/
theorem Reachable.invariant {I : σ → Prop} (h : Reachable step s₀ s) (h₀ : I s₀)
    (hstep : ∀ s a s', I s → step s a = some s' → I s') : I s := by
  obtain ⟨as, has⟩ := h
  exact run_induction (P := fun _ s => I s) h₀ (fun _ s a s' hs he => hstep s a s' hs he) has

/-- Where every step of a system is a step of one of its components or leaves that component alone, the
    component runs by itself. -/
theorem Reachable.component {β : Type*} {part : τ → β → Option τ} (proj : σ → τ)
    (h : Reachable step s₀ s) (hstep : ∀ s a s', step s a = some s' →
      proj s' = proj s ∨ ∃ b, part (proj s) b = some (proj s')) :
    Reachable part (proj s₀) (proj s) := by
  refine h.invariant (I := fun s => Reachable part (proj s₀) (proj s)) .refl fun s a s' hs he => ?_
  rcases hstep s a s' he with heq | ⟨b, hb⟩
  · rw [heq]
    exact hs
  · exact hs.tail hb

/-- A run that stays in `P` starts in `P`. -/
theorem Throughout.first {P : σ → Prop} (h : Throughout step P s₀ as) : P s₀ := by
  cases as with
  | nil => exact h
  | cons a as => exact h.1

/-- A sufficient condition: an invariant that implies `P` and is kept by the steps that meet `C`. -/
theorem throughout_of_meets {C : σ → α → Prop} {I P : σ → Prop} (hP : ∀ s, I s → P s)
    (hstep : ∀ s a s', I s → C s a → step s a = some s' → I s')
    (h₀ : I s₀) (h : Meets step C s₀ as) : Throughout step P s₀ as := by
  induction as generalizing s₀ with
  | nil => exact hP s₀ h₀
  | cons a as ih =>
    exact ⟨hP s₀ h₀, fun s' hs => ih (hstep s₀ a s' h₀ h.1 hs) (h.2 s' hs)⟩

/-- An exact condition: where `I` is an invariant of the states that have `P`, and a step from such a
    state keeps `P` exactly when it meets `C`, the runs that stay in `P` are those whose steps meet
    `C`. -/
theorem throughout_iff_meets {C : σ → α → Prop} {I P : σ → Prop}
    (hstep : ∀ s a s', I s → P s → step s a = some s' → (P s' ↔ C s a) ∧ (P s' → I s'))
    (h₀ : I s₀) (hP : P s₀) (hr : run step s₀ as = some s) :
    Throughout step P s₀ as ↔ Meets step C s₀ as := by
  induction as generalizing s₀ with
  | nil => exact ⟨fun _ => trivial, fun _ => hP⟩
  | cons a as ih =>
    obtain ⟨s₁, hs₁, hr₁⟩ := Option.bind_eq_some_iff.mp hr
    obtain ⟨hiff, hI⟩ := hstep s₀ a s₁ h₀ hP hs₁
    constructor
    · rintro ⟨_, h⟩
      have hP₁ : P s₁ := (h s₁ hs₁).first
      refine ⟨hiff.mp hP₁, fun s' hs' => ?_⟩
      obtain rfl : s₁ = s' := Option.some.inj (hs₁.symm.trans hs')
      exact (ih (hI hP₁) hP₁ hr₁).mp (h s₁ hs₁)
    · rintro ⟨hC, h⟩
      have hP₁ : P s₁ := hiff.mpr hC
      refine ⟨hP, fun s' hs' => ?_⟩
      obtain rfl : s₁ = s' := Option.some.inj (hs₁.symm.trans hs')
      exact (ih (hI hP₁) hP₁ hr₁).mpr (h s₁ hs₁)

/-- What every step between two states of `P` meets, every step of a run that stays in `P` meets. -/
theorem Throughout.meets {C : σ → α → Prop} {P : σ → Prop} (h : Throughout step P s₀ as)
    (hr : run step s₀ as = some s)
    (hstep : ∀ s a s', P s → P s' → step s a = some s' → C s a) : Meets step C s₀ as := by
  induction as generalizing s₀ with
  | nil => trivial
  | cons a as ih =>
    obtain ⟨s₁, hs₁, hr₁⟩ := Option.bind_eq_some_iff.mp hr
    obtain ⟨hP, hrest⟩ := h
    refine ⟨hstep s₀ a s₁ hP (hrest s₁ hs₁).first hs₁, fun s' hs' => ?_⟩
    obtain rfl : s₁ = s' := Option.some.inj (hs₁.symm.trans hs')
    exact ih (hrest s₁ hs₁) hr₁

/-- A run that stays in `P` ends in `P`. -/
theorem Throughout.last {P : σ → Prop} (h : Throughout step P s₀ as)
    (hr : run step s₀ as = some s) : P s := by
  induction as generalizing s₀ with
  | nil =>
    rw [run_nil, Option.some.injEq] at hr
    exact hr ▸ h
  | cons a as ih =>
    obtain ⟨s₁, hs₁, hr₁⟩ := Option.bind_eq_some_iff.mp hr
    exact ih (h.2 s₁ hs₁) hr₁

end

end Transition
