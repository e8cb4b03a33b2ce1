import TinyAutomator.Workflows.Polls
import TinyAutomator.Lib.Civil
import Mathlib.Logic.Function.Iterate

/-! When a recurring schedule runs: the dates that the scheduler computes from the last
one, and the dates that the preview shows. Instants are in milliseconds and in UTC. -/
namespace TinyAutomator.Workflows

def dayLength : Int := 24 * 60 * 60 * 1000

section Scheduler

/-- One turn of the loop in CalculateNextRun: AddDay, AddWeek or AddMonth. -/
def addInterval : ScheduleType → Int → Int
  | .once, dt => dt
  | .daily, dt => dt + dayLength
  | .weekly, dt => dt + 7 * dayLength
  | .monthly, dt => Civil.addMonth (dt / dayLength) * dayLength + dt % dayLength

/-- The loop; carbon's IsFuture compares with the time of day, here `clock`. -/
def untilFuture (scheduleType : ScheduleType) (clock : Int) : Nat → Int → Int
  | 0, dt => dt
  | turns + 1, dt => if clock < dt then dt else untilFuture scheduleType clock turns (addInterval scheduleType dt)

/-- time.Time{}, which IsZero recognises. -/
def zeroTime : Int := -62135596800000

/-- What is left of an instant in the RFC 3339 text that carbon parses; the years have four
digits. -/
def wholeSeconds (date : Int) : Int := date / 1000 * 1000

/-- As many turns as there may be days to make up for. -/
def turns (dt clock : Int) : Nat := ((clock - dt) / dayLength + 1).toNat

/-- The date that the loop starts from. -/
def basis (oldNextRun now : Int) : Int := wholeSeconds (if oldNextRun = zeroTime then now else oldNextRun)

def CalculateNextRun (scheduleType : ScheduleType) (oldNextRun now clock : Int) : Option Int :=
  let dt := basis oldNextRun now
  calculateNextRun scheduleType (untilFuture scheduleType clock (turns dt clock) dt)

end Scheduler

section Preview

/-- The date of turn `i` in getNextRuns, always counted from the first. -/
def runDate (scheduleType : ScheduleType) (baseDate : Int) (i : Nat) : Int :=
  match scheduleType with
  | .once => baseDate
  | .daily => baseDate + i * dayLength
  | .weekly => baseDate + i * (7 * dayLength)
  | .monthly => Civil.addMonthsClamped (baseDate / dayLength) i * dayLength + baseDate % dayLength

/-- The schedule form in a browser in UTC; the time is counted from midnight. -/
def getNextRuns (scheduleType : Option ScheduleType) (scheduledDate scheduledTime : Option Int) : List Int :=
  match scheduleType, scheduledDate, scheduledTime with
  | some scheduleType, some scheduledDate, some scheduledTime =>
    let baseDate := scheduledDate / dayLength * dayLength + scheduledTime
    if scheduleType = .once then [baseDate] else (List.range 3).map (runDate scheduleType baseDate)
  | _, _, _ => []

end Preview

section Loop

variable {scheduleType : ScheduleType} {clock now dt date oldNextRun : Int} {n : Nat}

theorem addInterval_le (recurring : scheduleType ≠ .once) (dt : Int) :
    dt + dayLength ≤ addInterval scheduleType dt := by
  cases scheduleType with
  | once => contradiction
  | daily => exact Int.le_refl _
  | weekly =>
    simp only [addInterval,dayLength]
    omega
  | monthly =>
    have later := Civil.lt_addMonth (dt / dayLength)
    simp only [addInterval,dayLength] at later ⊢
    omega

/-- The loop ends at the first date of the series that is in the future. -/
theorem untilFuture_spec (scheduleType : ScheduleType) (clock : Int) (n : Nat) (dt : Int) :
    ∃ k ≤ n, untilFuture scheduleType clock n dt = (addInterval scheduleType)^[k] dt ∧
      (∀ j < k, (addInterval scheduleType)^[j] dt ≤ clock) ∧
      (k < n → clock < (addInterval scheduleType)^[k] dt) := by
  induction n generalizing dt with
  | zero => exact ⟨0,Nat.le_refl 0,rfl,nofun,nofun⟩
  | succ n ih =>
    unfold untilFuture
    split
    next future => exact ⟨0,Nat.zero_le _,rfl,nofun,fun _ => future⟩
    next past =>
      obtain ⟨k,bound,ended,before,after⟩ := ih (addInterval scheduleType dt)
      refine ⟨k + 1,Nat.succ_le_succ bound,ended,fun j within => ?_,fun within => ?_⟩
      · cases j with
        | zero => exact Int.not_lt.mp past
        | succ j => exact before j (Nat.lt_of_succ_lt_succ within)
      · exact after (Nat.lt_of_succ_lt_succ within)

theorem le_iterate (recurring : scheduleType ≠ .once) (k : Nat) (dt : Int) :
    dt + k * dayLength ≤ (addInterval scheduleType)^[k] dt := by
  induction k generalizing dt with
  | zero => simp
  | succ k ih =>
    have first := addInterval_le recurring dt
    have rest := ih (addInterval scheduleType dt)
    rw [Function.iterate_succ_apply]
    unfold dayLength at *
    push_cast
    omega

theorem untilFuture_above (recurring : scheduleType ≠ .once) (enough : turns dt clock ≤ n) :
    clock < untilFuture scheduleType clock n dt := by
  obtain ⟨k,bound,ended,_,after⟩ := untilFuture_spec scheduleType clock n dt
  rw [ended]
  rcases Nat.lt_or_eq_of_le bound with within | last
  · exact after within
  · have reached := le_iterate recurring k dt
    rw [last] at reached ⊢
    unfold turns dayLength at *
    omega

theorem untilFuture_future (recurring : scheduleType ≠ .once) (dt clock : Int) :
    clock < untilFuture scheduleType clock (turns dt clock) dt :=
  untilFuture_above recurring (Nat.le_refl _)

theorem CalculateNextRun_recurring (recurring : scheduleType ≠ .once) :
    CalculateNextRun scheduleType oldNextRun now clock =
      some (untilFuture scheduleType clock (turns (basis oldNextRun now) clock) (basis oldNextRun now)) :=
  if_neg recurring

theorem CalculateNextRun_future (known : CalculateNextRun scheduleType oldNextRun now clock = some date) :
    clock < date := by
  by_cases recurring : scheduleType = .once
  · rw [recurring] at known
    contradiction
  · rw [CalculateNextRun_recurring recurring] at known
    cases known
    exact untilFuture_future recurring _ clock

end Loop

section Truth

variable {scheduleType : ScheduleType} {d : Int}

/-- The first three runs of a schedule that is polled on time. -/
def firstRuns (scheduleType : ScheduleType) (d : Int) : List (Option Int) :=
  let second := CalculateNextRun scheduleType d d d
  [some d,second,second.bind fun run => CalculateNextRun scheduleType run run run]

/-- The following two months have the day of the month. -/
def Truthful (scheduleType : ScheduleType) (d : Int) : Prop :=
  scheduleType = .monthly →
    Civil.dayOf (d / dayLength) ≤ Civil.daysIn (Civil.monthOf (d / dayLength) + 1) ∧
    Civil.dayOf (d / dayLength) ≤ Civil.daysIn (Civil.monthOf (d / dayLength) + 2)

theorem addInterval_whole (whole : d % 1000 = 0) : addInterval scheduleType d % 1000 = 0 := by
  cases scheduleType with
  | once => exact whole
  | daily | weekly | monthly =>
    simp only [addInterval,dayLength]
    omega

theorem CalculateNextRun_punctual (recurring : scheduleType ≠ .once) (whole : d % 1000 = 0) :
    CalculateNextRun scheduleType d d d = some (addInterval scheduleType d) := by
  have whole' : basis d d = d := by
    simp only [basis,ite_self,wholeSeconds]
    omega
  have once : turns d d = 1 := by
    unfold turns dayLength
    omega
  rw [CalculateNextRun_recurring recurring,whole',once]
  simp [untilFuture]

theorem firstRuns_eq (recurring : scheduleType ≠ .once) (whole : d % 1000 = 0) :
    firstRuns scheduleType d = [some d,some (addInterval scheduleType d),
      some (addInterval scheduleType (addInterval scheduleType d))] := by
  simp only [firstRuns,CalculateNextRun_punctual recurring whole,Option.bind_some,
    CalculateNextRun_punctual recurring (addInterval_whole whole)]

/-- The time of day stays, and the days are those of the calendar. -/
theorem addMonth_day (d : Int) : addInterval .monthly d / dayLength = Civil.addMonth (d / dayLength) ∧
    addInterval .monthly d % dayLength = d % dayLength := by
  simp only [addInterval,dayLength]
  omega

theorem runDate_zero (scheduleType : ScheduleType) (d : Int) : runDate scheduleType d 0 = d := by
  cases scheduleType with
  | once => rfl
  | daily | weekly =>
    simp only [runDate]
    omega
  | monthly =>
    simp only [runDate,Nat.cast_zero,Civil.addMonthsClamped_zero,dayLength]
    omega

theorem runDate_interval : (runDate scheduleType d 1 = addInterval scheduleType d ∧
    runDate scheduleType d 2 = addInterval scheduleType (addInterval scheduleType d)) ↔
      Truthful scheduleType d := by
  cases scheduleType with
  | once => exact iff_of_true ⟨rfl,rfl⟩ nofun
  | daily | weekly =>
    refine iff_of_true ?_ nofun
    simp only [runDate,addInterval,dayLength]
    omega
  | monthly =>
    obtain ⟨day,time⟩ := addMonth_day d
    have first : runDate .monthly d 1 = addInterval .monthly d ↔
        Civil.addMonth (d / dayLength) = Civil.addMonthsClamped (d / dayLength) 1 := by
      simp only [runDate,addInterval,dayLength,Nat.cast_one]
      omega
    have second : runDate .monthly d 2 = addInterval .monthly (addInterval .monthly d) ↔
        Civil.addMonth (Civil.addMonth (d / dayLength)) = Civil.addMonthsClamped (d / dayLength) 2 := by
      rw [addInterval,day,time]
      simp only [runDate,dayLength,Nat.cast_ofNat]
      omega
    rw [first,second,Civil.addMonth_clamped]
    simp only [Truthful,forall_const]
    constructor
    · intro ⟨fits,agree⟩
      exact ⟨fits,(Civil.addMonth_twice_clamped fits).mp agree⟩
    · intro ⟨fits,later⟩
      exact ⟨fits,(Civil.addMonth_twice_clamped fits).mpr later⟩

/-- The preview shows the runs of the scheduler if and only if no month is too short. -/
theorem preview_iff (scheduleType : ScheduleType) (recurring : scheduleType ≠ .once) (d : Int)
    (whole : d % 1000 = 0) (scheduledDate : Int) (sameDay : scheduledDate / dayLength = d / dayLength) :
    (getNextRuns (some scheduleType) (some scheduledDate) (some (d % dayLength))).map some =
      firstRuns scheduleType d ↔ Truthful scheduleType d := by
  have base : scheduledDate / dayLength * dayLength + d % dayLength = d := by
    rw [sameDay]
    unfold dayLength
    omega
  have shown : getNextRuns (some scheduleType) (some scheduledDate) (some (d % dayLength)) =
      [d,runDate scheduleType d 1,runDate scheduleType d 2] := by
    have range : List.range 3 = [0,1,2] := rfl
    simp [getNextRuns,base,recurring,range,runDate_zero]
  rw [shown,firstRuns_eq recurring whole,← runDate_interval]
  simp

end Truth

section Dates

theorem fifteenth_truthful : (getNextRuns (some .monthly) (some 1894665600000) (some 28800000)).map some =
    firstRuns .monthly 1894694400000 :=
  (preview_iff .monthly nofun 1894694400000 rfl 1894665600000 rfl).mpr fun _ => by decide +kernel

/-- A monthly schedule from the end of January 2030. -/
theorem january_untruthful : ¬∀ (scheduleType : ScheduleType) (d scheduledDate : Int),
    scheduleType ≠ .once → d % 1000 = 0 → scheduledDate / dayLength = d / dayLength →
      (getNextRuns (some scheduleType) (some scheduledDate) (some (d % dayLength))).map some =
        firstRuns scheduleType d := by
  intro truthful
  have agree := truthful .monthly 1896048000000 1896048000000 nofun rfl rfl
  contradiction

end Dates

end TinyAutomator.Workflows
