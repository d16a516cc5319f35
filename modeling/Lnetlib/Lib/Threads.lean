import Mathlib.Tactic.Common
import Mathlib.Data.List.Basic

/-!
# The call stacks of threads

A list of threads, each with its frames, the innermost first. What is counted over all frames changes
with the stack of a thread by the difference of the two stacks.
-/

namespace Threads

variable {φ : Type*} {ts : List (List φ)} {t : Nat} {st st' : List φ} {f : φ}

/-- The frames of all threads. -/
def frames (ts : List (List φ)) : List φ := ts.flatten

/-- How many frames there are with `p`. -/
def count (p : φ → Bool) (ts : List (List φ)) : Nat := (frames ts).countP p

/-- A thread replaces its stack. -/
theorem count_set (p : φ → Bool) (h : ts[t]? = some st) :
    count p (ts.set t st') + st.countP p = count p ts + st'.countP p := by
  induction ts generalizing t with
  | nil => cases h
  | cons st₀ ts ih =>
    cases t with
    | zero =>
      obtain rfl : st₀ = st := Option.some.inj h
      simp only [count, frames, List.set_cons_zero, List.flatten_cons, List.countP_append]
      omega
    | succ t =>
      have ih' := ih (t := t) h
      simp only [count, frames] at ih'
      simp only [count, frames, List.set_cons_succ, List.flatten_cons, List.countP_append]
      omega

/-- The thread started last has no frames yet. -/
theorem count_start (p : φ → Bool) (ts : List (List φ)) : count p (ts ++ [[]]) = count p ts := by
  simp [count, frames]

/-- What one thread has counts. -/
theorem countP_le_count (p : φ → Bool) (h : ts[t]? = some st) : st.countP p ≤ count p ts :=
  (List.sublist_flatten_of_mem (List.mem_of_getElem? h)).countP_le

theorem count_pos {p : φ → Bool} : 0 < count p ts ↔ ∃ f ∈ frames ts, p f = true :=
  List.countP_pos_iff

/-- A frame of one thread is a frame. -/
theorem mem_frames (h : ts[t]? = some st) (hf : f ∈ st) : f ∈ frames ts :=
  List.mem_flatten.mpr ⟨st, List.mem_of_getElem? h, hf⟩

/-- A frame of a thread that has replaced its stack is new, or it was there. -/
theorem of_mem_frames_set (hf : f ∈ frames (ts.set t st')) : f ∈ st' ∨ f ∈ frames ts := by
  obtain ⟨st₀, hst₀, hf₀⟩ := List.mem_flatten.mp hf
  rcases List.mem_or_eq_of_mem_set hst₀ with hold | rfl
  · exact .inr (List.mem_flatten.mpr ⟨st₀, hold, hf₀⟩)
  · exact .inl hf₀

/-- A frame is still there when a thread has replaced its stack, unless it was on that stack. -/
theorem mem_frames_set (h : ts[t]? = some st) (st' : List φ) (hf : f ∈ frames ts) :
    f ∈ st ∨ f ∈ frames (ts.set t st') := by
  obtain ⟨st₀, hst₀, hf₀⟩ := List.mem_flatten.mp hf
  obtain ⟨u, hu⟩ := List.mem_iff_getElem?.mp hst₀
  by_cases hut : u = t
  · subst hut
    rw [h] at hu
    exact .inl (Option.some.inj hu ▸ hf₀)
  · have hu' : (ts.set t st')[u]? = some st₀ := by
      rw [List.getElem?_set_ne (Ne.symm hut)]
      exact hu
    exact .inr (mem_frames hu' hf₀)

/-- Two different frames count twice. -/
theorem two_le_count {p : φ → Bool} {g : φ} (hf : f ∈ frames ts) (hg : g ∈ frames ts) (hne : f ≠ g)
    (hpf : p f = true) (hpg : p g = true) : 2 ≤ count p ts := by
  obtain ⟨l₁, l₂, hsplit⟩ := List.append_of_mem hf
  have hpos : 0 < l₁.countP p + l₂.countP p := by
    rw [← List.countP_append]
    refine List.countP_pos_iff.mpr ⟨g, ?_, hpg⟩
    rw [hsplit] at hg
    rcases List.mem_append.mp hg with hg | hg
    · exact List.mem_append_left _ hg
    · exact List.mem_append_right _ ((List.mem_cons.mp hg).resolve_left (Ne.symm hne))
  unfold count
  rw [hsplit, List.countP_append, List.countP_cons_of_pos hpf]
  omega

end Threads
