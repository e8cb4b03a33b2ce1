import TinyAutomator.Workflows.Recurrence
import TinyAutomator.Lib.Iterates

/-! A scheduler that was down for any number of periods goes on with the same dates: the next
run after a while is the next run of the next run. -/
namespace TinyAutomator.Workflows

open Iterates

/-- carbon reads the RFC 3339 text of an instant if its year has four digits. -/
def Legible (date : Int) : Prop := -62167219200000 ≤ date ∧ date < 253402300800000

structure ValidBasis (date : Int) : Prop where
  legible : Legible date
  nonzero : date ≠ zeroTime

/-- The years 1 to 9998. -/
def InHistory (now : Int) : Prop := zeroTime ≤ now ∧ now < 253370764800000

section Loop

variable {scheduleType : ScheduleType} {clock now now1 now2 date dt run : Int} {k n : Nat}

theorem untilFuture_first (recurring : scheduleType ≠ .once) (dt clock : Int) :
    ∃ k run, FirstAbove (addInterval scheduleType) clock dt run k ∧
      ∀ n, turns dt clock ≤ n → untilFuture scheduleType clock n dt = run := by
  have ends : ∀ n, turns dt clock ≤ n → ∃ k, FirstAbove (addInterval scheduleType) clock dt
      (untilFuture scheduleType clock n dt) k := by
    intro n enough
    obtain ⟨k,_,ended,before,_⟩ := untilFuture_spec scheduleType clock n dt
    exact ⟨k,ended.symm,untilFuture_above recurring enough,before⟩
  obtain ⟨k,first⟩ := ends _ (Nat.le_refl _)
  refine ⟨k,_,first,fun n enough => ?_⟩
  obtain ⟨l,other⟩ := ends n enough
  exact other.unique first

theorem wholeSeconds_of_whole (whole : date % 1000 = 0) : wholeSeconds date = date := by
  unfold wholeSeconds
  omega

theorem wholeSeconds_whole (date : Int) : wholeSeconds date % 1000 = 0 := by
  unfold wholeSeconds
  omega

theorem iterate_whole (whole : dt % 1000 = 0) (k : Nat) : (addInterval scheduleType)^[k] dt % 1000 = 0 := by
  induction k generalizing dt with
  | zero => exact whole
  | succ k ih =>
    rw [Function.iterate_succ_apply]
    apply ih
    exact addInterval_whole whole

/-- IsFuture compares whole seconds, which makes no difference to whole dates. -/
theorem future_seconds (whole : dt % 1000 = 0) : wholeSeconds now < dt ↔ now < dt := by
  unfold wholeSeconds
  omega

/-- The loop started from a basis, with the clock in whole seconds. -/
theorem CalculateNextRun_first (recurring : scheduleType ≠ .once) (nonzero : date ≠ zeroTime) (now : Int) :
    ∃ run k, CalculateNextRun scheduleType date now (wholeSeconds now) = some run ∧
      FirstAbove (addInterval scheduleType) now (wholeSeconds date) run k ∧
      ∀ n, turns (wholeSeconds date) (wholeSeconds now) ≤ n →
        untilFuture scheduleType (wholeSeconds now) n (wholeSeconds date) = run := by
  have from_ : basis date now = wholeSeconds date := by rw [basis,if_neg nonzero]
  obtain ⟨k,run,first,ends⟩ := untilFuture_first recurring (wholeSeconds date) (wholeSeconds now)
  refine ⟨run,k,?_,?_,ends⟩
  · rw [CalculateNextRun_recurring recurring,from_,ends _ (Nat.le_refl _)]
  · apply first.congr
    intro j
    apply future_seconds
    exact iterate_whole (wholeSeconds_whole date) j

theorem addInterval_bound (recurring : scheduleType ≠ .once) (dt : Int) :
    addInterval scheduleType dt ≤ dt + 31 * dayLength := by
  cases scheduleType with
  | once => contradiction
  | daily | weekly =>
    simp only [addInterval,dayLength]
    omega
  | monthly =>
    have days : Civil.addMonth (dt / dayLength) ≤ dt / dayLength + 31 := by
      have length := Civil.daysIn_bounds (Civil.monthOf (dt / dayLength))
      rw [Civil.addMonth_eq]
      omega
    simp only [addInterval,dayLength] at days ⊢
    omega

theorem next_near (recurring : scheduleType ≠ .once)
    (first : FirstAbove (addInterval scheduleType) now dt run k) : run = dt ∨ run ≤ now + 31 * dayLength := by
  cases k with
  | zero => exact .inl first.reached.symm
  | succ k =>
    have below := first.below k (Nat.lt_succ_self k)
    have step := addInterval_bound recurring ((addInterval scheduleType)^[k] dt)
    have reached := first.reached
    rw [Function.iterate_succ_apply'] at reached
    right
    omega

theorem next_valid (recurring : scheduleType ≠ .once) (valid : ValidBasis date) (history : InHistory now)
    (first : FirstAbove (addInterval scheduleType) now (wholeSeconds date) run k) : ValidBasis run := by
  obtain ⟨⟨_,last⟩,_⟩ := valid
  obtain ⟨begun,ended⟩ := history
  have above := first.above
  have near := next_near recurring first
  unfold wholeSeconds dayLength at near
  unfold zeroTime at begun
  constructor
  · unfold Legible
    omega
  · unfold zeroTime
    omega

/-- Catching up in two goes leads to the same date as in one. -/
theorem catching_up (recurring : scheduleType ≠ .once) (valid : ValidBasis date) (later : now1 ≤ now2) :
    ∃ run k, CalculateNextRun scheduleType date now1 (wholeSeconds now1) = some run ∧
      FirstAbove (addInterval scheduleType) now1 (wholeSeconds date) run k ∧
      (∀ n, turns (wholeSeconds date) (wholeSeconds now1) ≤ n →
        untilFuture scheduleType (wholeSeconds now1) n (wholeSeconds date) = run) ∧
      (ValidBasis run → CalculateNextRun scheduleType run now2 (wholeSeconds now2) =
        CalculateNextRun scheduleType date now2 (wholeSeconds now2)) ∧
      (InHistory now1 → ValidBasis run) := by
  obtain ⟨run,k,computed,first,ends⟩ := CalculateNextRun_first recurring valid.nonzero now1
  refine ⟨run,k,computed,first,ends,fun valid' => ?_,fun history => next_valid recurring valid history first⟩
  obtain ⟨last,_,computed',first',_⟩ := CalculateNextRun_first recurring valid'.nonzero now2
  obtain ⟨direct,_,computed'',first'',_⟩ := CalculateNextRun_first recurring valid.nonzero now2
  have whole : run % 1000 = 0 := by
    rw [← first.reached]
    exact iterate_whole (wholeSeconds_whole date) k
  rw [wholeSeconds_of_whole whole] at first'
  rw [computed',computed'',(first.trans later first').unique first'']

end Loop

section Dates

/-- Monthly from the end of January 2030: down until May, then until the middle of July. -/
theorem january_caught_up : CalculateNextRun .monthly 1896048000000 1903824000000 1903824000000 =
      some 1903996800000 ∧
    CalculateNextRun .monthly 1903996800000 1910304000000 1910304000000 =
      CalculateNextRun .monthly 1896048000000 1910304000000 1910304000000 := by
  obtain ⟨run,_,computed,_,_,composes,valid⟩ := @catching_up .monthly 1903824000000 1910304000000
    1896048000000 nofun ⟨by unfold Legible; decide,by decide⟩ (by decide)
  have known : run = 1903996800000 := by
    have direct : CalculateNextRun .monthly 1896048000000 1903824000000 (wholeSeconds 1903824000000) =
      some 1903996800000 := by decide +kernel
    exact Option.some.inj (computed.symm.trans direct)
  subst known
  exact ⟨computed,composes (valid (by unfold InHistory; decide))⟩

end Dates

end TinyAutomator.Workflows
