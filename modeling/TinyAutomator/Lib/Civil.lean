import Mathlib.Order.Monotone.Basic
import Mathlib.Tactic.IntervalCases

/-! The Gregorian calendar on day numbers. Months are counted without a break, and the
count of a year starts in March, so that the leap day comes last and every quantity is a
quotient. Day 0 is the first of January 1970. -/
namespace Civil

def isLeap (year : Int) : Prop := year % 4 = 0 ∧ (year % 100 ≠ 0 ∨ year % 400 = 0)

instance (year : Int) : Decidable (isLeap year) := inferInstanceAs (Decidable (_ ∧ _))

/-- The days before March of a year, up to a constant. -/
def yearStart (y : Int) : Int := 365 * y + y / 4 - y / 100 + y / 400

/-- A month of a year, numbered from 1. -/
def month (year number : Int) : Int := 12 * year + number - 3

/-- The first day of a month. -/
def monthStart (m : Int) : Int := yearStart (m / 12) + (153 * (m % 12) + 2) / 5 - 719468

def daysIn (m : Int) : Int := monthStart (m + 1) - monthStart m

/-- The month of a day: counting by the average length misses it by one at most. -/
def monthOf (d : Int) : Int :=
  let guess := (d + 719468) * 4800 / 146097
  if d < monthStart guess then guess - 1
  else if d < monthStart (guess + 1) then guess
  else guess + 1

/-- The day of the month, numbered from 1. -/
def dayOf (d : Int) : Int := d - monthStart (monthOf d) + 1

/-- The day with a number in a month; a number that is too large runs into the next one. -/
def day (m number : Int) : Int := monthStart m + number - 1

section Lengths

theorem yearStart_succ (y : Int) :
    yearStart (y + 1) = yearStart y + 365 + if isLeap (y + 1) then 1 else 0 := by
  have fours : (y + 1) / 4 = y / 4 + if (y + 1) % 4 = 0 then 1 else 0 := by
    split <;> omega
  have centuries : (y + 1) / 100 = y / 100 + if (y + 1) % 100 = 0 then 1 else 0 := by
    split <;> omega
  have eras : (y + 1) / 400 = y / 400 + if (y + 1) % 400 = 0 then 1 else 0 := by
    split <;> omega
  unfold yearStart
  rw [fours,centuries,eras]
  by_cases leap : isLeap (y + 1)
  · rw [if_pos leap,if_pos leap.1]
    rcases leap.2 with century | era
    · rw [if_neg century,if_neg (by omega)]
      omega
    · rw [if_pos era,if_pos (by omega)]
      omega
  · rw [if_neg leap]
    unfold isLeap at leap
    by_cases four : (y + 1) % 4 = 0
    · rw [if_pos four,if_pos (by omega),if_neg (by omega)]
      omega
    · rw [if_neg four,if_neg (by omega),if_neg (by omega)]
      omega

theorem daysIn_eq (m : Int) : daysIn m =
    if m % 12 = 11 then 28 + if isLeap (m / 12 + 1) then 1 else 0
    else (153 * (m % 12 + 1) + 2) / 5 - (153 * (m % 12) + 2) / 5 := by
  unfold daysIn monthStart
  split
  next february =>
    have turn : (m + 1) / 12 = m / 12 + 1 ∧ (m + 1) % 12 = 0 := by omega
    rw [turn.1,turn.2,yearStart_succ,february]
    omega
  next =>
    have same : (m + 1) / 12 = m / 12 ∧ (m + 1) % 12 = m % 12 + 1 := by omega
    rw [same.1,same.2]
    omega

/-- The usual table. -/
def length (year number : Int) : Int :=
  if number = 2 then if isLeap year then 29 else 28
  else if number = 4 ∨ number = 6 ∨ number = 9 ∨ number = 11 then 30
  else 31

theorem daysIn_month {year number : Int} (first : 1 ≤ number) (last : number ≤ 12) :
    daysIn (month year number) = length year number := by
  rw [daysIn_eq]
  unfold length month
  by_cases february : number = 2
  · have turn : (12 * year + number - 3) % 12 = 11 ∧ (12 * year + number - 3) / 12 + 1 = year := by omega
    rw [if_pos turn.1,turn.2,if_pos february]
    split <;> rfl
  · have place : (12 * year + number - 3) % 12 = if number = 1 then 10 else number - 3 := by
      split <;> omega
    rw [if_neg (by omega),if_neg february,place]
    interval_cases number <;> rfl

theorem daysIn_bounds (m : Int) : 28 ≤ daysIn m ∧ daysIn m ≤ 31 := by
  rw [daysIn_eq]
  split
  next => split <;> omega
  next => omega

theorem monthStart_succ (m : Int) : monthStart (m + 1) = monthStart m + daysIn m := by
  unfold daysIn
  omega

theorem monthStart_lt {m m' : Int} : monthStart m < monthStart m' ↔ m < m' := by
  have increasing : StrictMono monthStart := by
    apply strictMono_int_of_lt_succ
    intro m
    have := daysIn_bounds m
    have := monthStart_succ m
    omega
  exact increasing.lt_iff_lt

end Lengths

section Days

/-- The average month has 146097 / 4800 days. -/
theorem monthStart_near (m : Int) : 146097 * m - 20000 ≤ 4800 * (monthStart m + 719468) ∧
    4800 * (monthStart m + 719468) ≤ 146097 * m + 20000 := by
  unfold monthStart yearStart
  omega

theorem monthOf_bounds (d : Int) : monthStart (monthOf d) ≤ d ∧ d < monthStart (monthOf d + 1) := by
  have below := monthStart_near ((d + 719468) * 4800 / 146097 - 1)
  have above := monthStart_near ((d + 719468) * 4800 / 146097 + 1 + 1)
  unfold monthOf
  dsimp only
  split
  next early =>
    rw [Int.sub_add_cancel]
    omega
  next =>
    split
    next => omega
    next => omega

/-- The month of a day is the only one that it falls into. -/
theorem monthOf_eq {m d : Int} (first : monthStart m ≤ d) (last : d < monthStart (m + 1)) :
    monthOf d = m := by
  obtain ⟨first',last'⟩ := monthOf_bounds d
  have := monthStart_lt.mp (Int.lt_of_le_of_lt first last')
  have := monthStart_lt.mp (Int.lt_of_le_of_lt first' last)
  omega

variable {m number d : Int}

theorem dayOf_bounds (d : Int) : 1 ≤ dayOf d ∧ dayOf d ≤ daysIn (monthOf d) := by
  obtain ⟨first,last⟩ := monthOf_bounds d
  rw [monthStart_succ] at last
  unfold dayOf
  omega

@[simp] theorem day_monthOf_dayOf (d : Int) : day (monthOf d) (dayOf d) = d := by
  unfold day dayOf
  omega

theorem monthOf_day (first : 1 ≤ number) (last : number ≤ daysIn m) : monthOf (day m number) = m := by
  apply monthOf_eq
  · unfold day
    omega
  · rw [monthStart_succ]
    unfold day
    omega

theorem dayOf_day (first : 1 ≤ number) (last : number ≤ daysIn m) : dayOf (day m number) = number := by
  rw [dayOf,monthOf_day first last]
  unfold day
  omega

end Days

section Months

/-- One month later, where a day that the next month does not have runs over its end. -/
def addMonth (d : Int) : Int := day (monthOf d + 1) (dayOf d)

/-- Some months later, where a day that the month does not have becomes its last day. -/
def addMonthsClamped (d n : Int) : Int := day (monthOf d + n) (min (dayOf d) (daysIn (monthOf d + n)))

theorem addMonth_eq (d : Int) : addMonth d = d + daysIn (monthOf d) := by
  unfold addMonth day dayOf
  rw [monthStart_succ]
  omega

theorem lt_addMonth (d : Int) : d < addMonth d := by
  have := daysIn_bounds (monthOf d)
  rw [addMonth_eq]
  omega

/-- Both ways of adding a month agree on the days that both months have. -/
theorem addMonthsClamped_zero (d : Int) : addMonthsClamped d 0 = d := by
  have := dayOf_bounds d
  unfold addMonthsClamped
  rw [Int.add_zero,min_eq_left this.2,day_monthOf_dayOf]

theorem addMonth_clamped {d : Int} :
    addMonth d = addMonthsClamped d 1 ↔ dayOf d ≤ daysIn (monthOf d + 1) := by
  unfold addMonth addMonthsClamped day
  omega

theorem addMonth_twice_clamped {d : Int} (fits : dayOf d ≤ daysIn (monthOf d + 1)) :
    addMonth (addMonth d) = addMonthsClamped d 2 ↔ dayOf d ≤ daysIn (monthOf d + 2) := by
  have first := (dayOf_bounds d).1
  have later : monthOf (addMonth d) = monthOf d + 1 := monthOf_day first fits
  have same : dayOf (addMonth d) = dayOf d := dayOf_day first fits
  have following : monthOf d + 1 + 1 = monthOf d + 2 := by omega
  rw [addMonth,later,same,addMonthsClamped,following]
  unfold day
  omega

end Months

end Civil
