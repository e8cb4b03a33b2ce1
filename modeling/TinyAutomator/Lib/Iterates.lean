import Mathlib.Logic.Function.Iterate
import Mathlib.Order.Lattice

/-! The first of the iterates of a function that is above a bound, as a loop that runs until
its variable is above the bound leaves it. -/
namespace Iterates

variable {α : Type} [LinearOrder α]

structure FirstAbove (f : α → α) (bound x y : α) (k : Nat) : Prop where
  reached : f^[k] x = y
  above : bound < y
  below : ∀ j < k, f^[j] x ≤ bound

variable {f : α → α} {a b x y z : α} {k l : Nat}

theorem FirstAbove.unique (first : FirstAbove f a x y k) (other : FirstAbove f a x z l) : y = z := by
  rcases Nat.lt_trichotomy k l with before | same | after
  · have under := other.below k before
    rw [first.reached] at under
    exact absurd first.above (not_lt.mpr under)
  · rw [← first.reached,← other.reached,same]
  · have under := first.below l after
    rw [other.reached] at under
    exact absurd other.above (not_lt.mpr under)

/-- A loop that stops at one bound and goes on to a later one has taken no turn too many. -/
theorem FirstAbove.trans (first : FirstAbove f a x y k) (later : a ≤ b) (second : FirstAbove f b y z l) :
    FirstAbove f b x z (l + k) where
  reached := by
    rw [Function.iterate_add_apply,first.reached]
    exact second.reached
  above := second.above
  below := by
    intro j within
    by_cases early : j < k
    · exact le_trans (first.below j early) later
    · obtain ⟨i,rfl⟩ := Nat.exists_eq_add_of_le' (Nat.not_lt.mp early)
      rw [Function.iterate_add_apply,first.reached]
      exact second.below i (Nat.lt_of_add_lt_add_right within)

/-- The bound matters only as far as it tells the iterates apart. -/
theorem FirstAbove.congr (same : ∀ k, a < f^[k] x ↔ b < f^[k] x) (first : FirstAbove f a x y k) :
    FirstAbove f b x y k where
  reached := first.reached
  above := by
    have above := first.above
    rw [← first.reached] at above ⊢
    exact (same k).mp above
  below := fun j within => not_lt.mp fun above => not_lt.mpr (first.below j within) ((same j).mpr above)

end Iterates
