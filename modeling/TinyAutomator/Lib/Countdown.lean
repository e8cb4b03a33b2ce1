import Mathlib.Data.Finset.Card
import Mathlib.Data.Finset.Dedup

/-! A finite set that is counted down: elements are struck off one after another, in any
order, some more than once and some that were never in it. -/
namespace Countdown

variable {α : Type} [DecidableEq α] {whole left struck : Finset α} {a : α}

/-- Who strikes off an element learns how many are left, or that none was left before. -/
def report (left : Finset α) (a : α) : Option Nat :=
  if left = ∅ then none else some (left.erase a).card

def reports : Finset α → List α → List (Option Nat)
  | _, [] => []
  | left, a :: rest => report left a :: reports (left.erase a) rest

theorem erase_sdiff (whole struck : Finset α) (a : α) :
    (whole \ struck).erase a = whole \ insert a struck :=
  (Finset.sdiff_insert whole struck a).symm

/-- While elements are left, their number is reported, and it is positive. -/
theorem report_open (more : ¬whole ⊆ insert a struck) :
    0 < (whole \ insert a struck).card ∧
      report (whole \ struck) a = some (whole \ insert a struck).card := by
  have remaining : whole \ insert a struck ≠ ∅ := fun none => more (Finset.sdiff_eq_empty_iff_subset.mp none)
  have before : whole \ struck ≠ ∅ := by
    intro none
    exact more ((Finset.sdiff_eq_empty_iff_subset.mp none).trans (Finset.subset_insert a struck))
  refine ⟨Finset.card_pos.mpr (Finset.nonempty_iff_ne_empty.mpr remaining),?_⟩
  rw [report,if_neg before,erase_sdiff]

/-- Whoever strikes off the last element reads zero. -/
theorem report_last (all : whole ⊆ insert a struck) (before : ¬whole ⊆ struck) :
    report (whole \ struck) a = some 0 := by
  have left : whole \ struck ≠ ∅ := fun none => before (Finset.sdiff_eq_empty_iff_subset.mp none)
  rw [report,if_neg left,erase_sdiff,Finset.sdiff_eq_empty_iff_subset.mpr all,Finset.card_empty]

theorem report_over (all : whole ⊆ struck) : report (whole \ struck) a = none := by
  rw [report,if_pos (Finset.sdiff_eq_empty_iff_subset.mpr all)]

theorem reports_empty (strikes : List α) : (reports ∅ strikes).count (some 0) = 0 := by
  induction strikes with
  | nil => rfl
  | cons a rest ih =>
    rw [reports,Finset.erase_empty,List.count_cons,ih]
    simp [report]

/-- Zero is reported once if every element is struck off, and else never. -/
theorem reports_count (strikes : List α) (some_left : left.Nonempty) :
    (reports left strikes).count (some 0) = if left ⊆ strikes.toFinset then 1 else 0 := by
  induction strikes generalizing left with
  | nil => simp [reports,some_left.ne_empty]
  | cons a rest ih =>
    have covered : left ⊆ (a :: rest).toFinset ↔ left.erase a ⊆ rest.toFinset := by
      rw [List.toFinset_cons,Finset.subset_insert_iff]
    have first : report left a = some (left.erase a).card := if_neg some_left.ne_empty
    rw [reports,first,List.count_cons]
    simp only [covered]
    by_cases last : left.erase a = ∅
    · -- the last element goes here, so that no later strike reads zero
      simp [last,reports_empty]
    · have remaining : ¬(left.erase a).card = 0 := mt Finset.card_eq_zero.mp last
      simp [remaining,ih (Finset.nonempty_iff_ne_empty.mpr last)]

end Countdown
