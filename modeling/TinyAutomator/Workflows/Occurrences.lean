import TinyAutomator.Workflows.Fleet

/-! At most one run for each date of a schedule row. A claimed row is out of the queue until
its goroutine writes it back, and the date that comes back is later than the one before. -/
namespace TinyAutomator.Workflows

open Transition

/-- No date of a row is orchestrated twice, and its dates increase. -/
def AtMostOnce (s : Fleet) : Prop :=
  s.orchestrated.Nodup ∧ ∀ w, (s.dates w).Pairwise (· < ·)

/-- No user changes a schedule. -/
def Unedited (_ : Fleet) : FleetLabel → Prop
  | .edit .. => False
  | _ => True

section Invariant

variable {s t : Fleet} {i : Nat} {w : WorkflowID} {keys : List (WorkflowID × Nat)}
  {job : Claimed ScheduleRow}

/-- Two goroutines at work belong to different workflows. -/
def Apart (a b : Claimed ScheduleRow) : Prop :=
  a.progress ≠ .done → b.progress ≠ .done → a.workflowID ≠ b.workflowID

structure Timely (s : Fleet) : Prop where
  single : ∀ w a b, s.polls.store.Has w a → s.polls.store.Has w b → a = b
  apart : s.polls.jobs.Pairwise Apart
  held : ∀ job ∈ s.polls.jobs, job.progress ≠ .done → s.polls.store.Has job.workflowID job.row ∧
    job.row.executionState = .running ∧ ∃ date, job.row.nextRunAt = some date ∧ date ≤ s.now
  due : ∀ (i : Nat) job nextRun clock, s.polls.jobs[i]? = some job →
    s.calculated i = some (nextRun,clock) → job.row.time ≤ clock
  fired : ∀ w date, (w,date) ∈ s.orchestrated → ∀ row later, s.polls.store.Has w row →
    row.nextRunAt = some later → date < later ∨
      date = later ∧ ∃ job ∈ s.polls.jobs, job.workflowID = w ∧ job.progress = .orchestrated
  once : s.orchestrated.Nodup
  sorted : ∀ w, (s.dates w).Pairwise (· < ·)
  latest : ∀ w row later, s.polls.store.Has w row → row.nextRunAt = some later →
    ∀ date ∈ s.dates w, date ≤ later

theorem time_eq {row : ScheduleRow} {date : Int} (known : row.nextRunAt = some date) : row.time = date := by
  unfold ScheduleRow.time
  rw [known,Option.getD_some]

theorem Timely.tick {now : Int} (timely : Timely s) (later : s.now ≤ now) : Timely { s with now } := by
  refine { timely with held := fun job member active => ?_ }
  obtain ⟨has,running,date,known,due⟩ := timely.held job member active
  exact ⟨has,running,date,known,Int.le_trans due later⟩

/-- A poll finds the rows of goroutines at work out of the queue. -/
theorem claimed_apart (timely : Timely s) (member : job ∈ s.polls.jobs) {new : Claimed ScheduleRow}
    {key : WorkflowID × Nat} (claimed : s.polls.claimSchedule s.now key = some new) : Apart job new := by
  intro active _ same
  obtain ⟨has,running,_⟩ := timely.held job member active
  obtain ⟨owner,_,row,queued,_,state,_⟩ := claimSchedule_some claimed
  rw [same,owner] at has
  rw [timely.single _ _ _ has queued,state] at running
  contradiction

/-- Two rows that a poll claims belong to different workflows. -/
theorem claims_apart (timely : Timely s) (distinct : keys.Nodup) :
    (keys.filterMap (s.polls.claimSchedule s.now)).Pairwise Apart := by
  rw [List.pairwise_filterMap]
  refine distinct.imp fun {a b} different x claimed y claimed' _ _ same => different ?_
  obtain ⟨owner,_,row,has,id,_⟩ := claimSchedule_some claimed
  obtain ⟨owner',_,row',has',id',_⟩ := claimSchedule_some claimed'
  have workflow : a.1 = b.1 := owner.symm.trans (same.trans owner')
  rw [workflow] at has
  have rows := timely.single _ _ _ has has'
  exact Prod.ext workflow (by rw [← id,← id',rows])

theorem runSchedules_date {store : Store} {row : ScheduleRow} (has : (store.runSchedules keys).Has w row) :
    ∃ old, store.Has w old ∧ old.nextRunAt = row.nextRunAt := by
  obtain ⟨old,before,⟨_,rfl⟩ | ⟨_,rfl⟩⟩ := runSchedules_has has
  · exact ⟨old,before,rfl⟩
  · exact ⟨row,before,rfl⟩

theorem running_eq {row : ScheduleRow} (running : row.executionState = .running) : row.running = row := by
  unfold ScheduleRow.running
  rw [← running]

theorem Timely.poll (timely : Timely s) (known : Known s) (returned : Returned (s.polls.claimSchedule s.now) keys) :
    Timely { s with polls := { s.polls with
      store := s.polls.store.runSchedules keys
      jobs := s.polls.jobs ++ keys.filterMap (s.polls.claimSchedule s.now) } } where
  single := by
    intro w a b hasa hasb
    obtain ⟨a',hasa,fora⟩ := runSchedules_has hasa
    obtain ⟨b',hasb,forb⟩ := runSchedules_has hasb
    obtain rfl := timely.single w a' b' hasa hasb
    rcases fora with ⟨taken,rfl⟩ | ⟨free,rfl⟩
    · rcases forb with ⟨_,rfl⟩ | ⟨free,_⟩
      · rfl
      · exact absurd taken free
    · rcases forb with ⟨taken,_⟩ | ⟨_,rfl⟩
      · exact absurd taken free
      · rfl
  apart := by
    refine List.pairwise_append.mpr ⟨timely.apart,claims_apart timely returned.1,?_⟩
    intro job member new claimed
    obtain ⟨key,_,claimed⟩ := List.mem_filterMap.mp claimed
    exact claimed_apart timely member claimed
  held := by
    intro job member active
    rcases List.mem_append.mp member with old | new
    · obtain ⟨has,running,due⟩ := timely.held job old active
      have still := has_runSchedules keys has
      rw [running_eq running,ite_self] at still
      exact ⟨still,running,due⟩
    · obtain ⟨key,taken,claimed⟩ := List.mem_filterMap.mp new
      obtain ⟨owner,_,row,has,id,_,date,same⟩ := claimSchedule_some claimed
      have now := has_runSchedules keys has
      rw [if_pos (by rw [id]; exact taken)] at now
      rw [owner,same]
      exact ⟨now,rfl,date⟩
  due := by
    intro i job nextRun clock at_ calculated
    have bound : i < s.polls.jobs.length := by
      by_contra beyond
      rw [known.bound i (Nat.not_lt.mp beyond)] at calculated
      contradiction
    rw [List.getElem?_append_left bound] at at_
    exact timely.due i job nextRun clock at_ calculated
  fired := by
    intro w date fired row later has scheduled
    obtain ⟨old,before,same⟩ := runSchedules_date has
    rcases timely.fired w date fired old later before (same.trans scheduled) with earlier | ⟨equal,job,member,ran⟩
    · exact .inl earlier
    · exact .inr ⟨equal,job,List.mem_append_left _ member,ran⟩
  once := timely.once
  sorted := timely.sorted
  latest := by
    intro w row later has scheduled
    obtain ⟨old,before,same⟩ := runSchedules_date has
    exact timely.latest w old later before (same.trans scheduled)

theorem Timely.other (timely : Timely s) {j : Nat} {a b : Claimed ScheduleRow}
    (geti : s.polls.jobs[i]? = some a) (getj : s.polls.jobs[j]? = some b) (different : i ≠ j)
    (activea : a.progress ≠ .done) (activeb : b.progress ≠ .done) : a.workflowID ≠ b.workflowID := by
  rcases Pool.pairwise_get timely.apart geti getj different with apart | apart
  · exact apart activea activeb
  · exact (apart activeb activea).symm

theorem Timely.orchestrate (timely : Timely s) {log : List Firing} (at_ : s.polls.jobs[i]? = some job)
    (fresh : job.progress = .claimed) : Timely { s with
      polls := { s.polls with jobs := s.polls.jobs.set i { job with progress := .orchestrated }, log }
      orchestrated := (job.workflowID,job.row.time) :: s.orchestrated } where
  single := timely.single
  apart := by
    have active : job.progress ≠ .done := by rw [fresh]; nofun
    apply Pool.pairwise_set timely.apart at_
    · exact fun x apart busy _ => apart busy active
    · exact fun x apart _ busy => apart active busy
  held := Pool.forall_set timely.held fun _ =>
    timely.held job (List.mem_of_getElem? at_) (by rw [fresh]; nofun)
  due := by
    intro j x nextRun clock get calculated
    rcases Pool.get_set_cases get with ⟨rfl,rfl⟩ | ⟨_,old⟩
    · exact timely.due j job nextRun clock at_ calculated
    · exact timely.due j x nextRun clock old calculated
  fired := by
    have mine : ∃ x ∈ s.polls.jobs.set i { job with progress := .orchestrated },
        x.workflowID = job.workflowID ∧ x.progress = .orchestrated :=
      ⟨_,Pool.mem_set_self at_,rfl,rfl⟩
    obtain ⟨has,_,date,known,_⟩ := timely.held job (List.mem_of_getElem? at_) (by rw [fresh]; nofun)
    intro w date' fired row later has' scheduled
    rcases List.mem_cons.mp fired with new | old
    · obtain ⟨rfl,rfl⟩ := Prod.mk.inj new
      obtain rfl := timely.single _ _ _ has has'
      exact .inr ⟨time_eq scheduled,mine⟩
    · rcases timely.fired w date' old row later has' scheduled with earlier | ⟨equal,x,member,owner,ran⟩
      · exact .inl earlier
      · refine .inr ⟨equal,x,Pool.mem_set_of_ne at_ member ?_ _,owner,ran⟩
        rintro rfl
        rw [fresh] at ran
        contradiction
  once := by
    refine List.nodup_cons.mpr ⟨fun fired => ?_,timely.once⟩
    have active : job.progress ≠ .done := by rw [fresh]; nofun
    obtain ⟨has,_,date,known,_⟩ := timely.held job (List.mem_of_getElem? at_) active
    rw [time_eq known] at fired
    rcases timely.fired _ _ fired job.row date has known with earlier | ⟨_,x,member,owner,ran⟩
    · exact absurd earlier (Int.lt_irrefl _)
    · obtain ⟨j,get⟩ := List.mem_iff_getElem?.mp member
      have different : i ≠ j := by
        rintro rfl
        obtain rfl := Option.some.inj (at_.symm.trans get)
        rw [fresh] at ran
        contradiction
      exact timely.other at_ get different active (by rw [ran]; nofun) owner.symm
  sorted := timely.sorted
  latest := timely.latest

theorem Timely.calculate (timely : Timely s) (at_ : s.polls.jobs[i]? = some job)
    (ran : job.progress = .orchestrated) : Timely { s with
      calculated := fun j => if j = i then
        some (CalculateNextRun job.row.scheduleType job.row.time s.now s.now,s.now)
        else s.calculated j } := by
  refine { timely with due := fun j x nextRun clock get calculated => ?_ }
  dsimp only at calculated
  split at calculated
  next same =>
    subst same
    cases calculated
    obtain rfl := Option.some.inj (at_.symm.trans get)
    obtain ⟨_,_,date,scheduled,due⟩ := timely.held job (List.mem_of_getElem? at_) (by rw [ran]; nofun)
    exact (time_eq scheduled).symm ▸ due
  next => exact timely.due j x nextRun clock get calculated

/-- The date that a goroutine writes back is later than the one it has claimed. -/
theorem Timely.later (timely : Timely s) (known : Known s) {nextRun : Option Int} {clock later : Int}
    (at_ : s.polls.jobs[i]? = some job) (ran : job.progress = .orchestrated)
    (calculated : s.calculated i = some (nextRun,clock)) (result : nextRun = some later) :
    s.polls.store.Has job.workflowID job.row ∧
      ∃ date, job.row.nextRunAt = some date ∧ date < later := by
  obtain ⟨has,_,date,scheduled,_⟩ := timely.held job (List.mem_of_getElem? at_) (by rw [ran]; nofun)
  have due := timely.due i job nextRun clock at_ calculated
  have computed := known.computed i job nextRun clock at_ calculated
  have future := CalculateNextRun_future (computed.symm.trans result)
  rw [time_eq scheduled] at due
  exact ⟨has,date,scheduled,Int.lt_of_le_of_lt due future⟩

theorem Timely.reschedule (timely : Timely s) (known : Known s) {nextRun : Option Int} {clock : Int}
    (at_ : s.polls.jobs[i]? = some job) (ran : job.progress = .orchestrated)
    (calculated : s.calculated i = some (nextRun,clock)) : Timely { s with
      polls := { s.polls with
        store := s.polls.store.amend job.workflowID fun wf => wf.updateSchedules job.row.scheduleType
          (calculateNextRun job.row.scheduleType (nextRun.getD 0)) (some clock) clock
        jobs := s.polls.jobs.set i { job with progress := .done } }
      dates := fun w => if w = job.workflowID then s.dates w ++ nextRun.toList else s.dates w } := by
  have active : job.progress ≠ .done := by rw [ran]; nofun
  rw [known.written at_ calculated]
  constructor
  case single =>
    intro w a b hasa hasb
    rcases amend_has hasa with ⟨other,before⟩ | ⟨own,a,before,rfl⟩
    · rcases amend_has hasb with ⟨_,before'⟩ | ⟨own,_⟩
      · exact timely.single w a b before before'
      · exact absurd own other
    · rcases amend_has hasb with ⟨other,_⟩ | ⟨_,b,before',rfl⟩
      · exact absurd own other
      · rw [timely.single _ a b before before']
  case apart =>
    apply Pool.pairwise_set timely.apart at_
    · exact fun _ _ _ finished => absurd rfl finished
    · exact fun _ _ finished => absurd rfl finished
  case held =>
    intro x member busy
    rcases Pool.mem_set_cases member with rfl | ⟨j,different,get⟩
    · exact absurd rfl busy
    · obtain ⟨has,rest⟩ := timely.held x (List.mem_of_getElem? get) busy
      exact ⟨has_amend_other (timely.other get at_ different busy active) has,rest⟩
  case due =>
    intro j x nextRun clock get calculated
    rcases Pool.get_set_cases get with ⟨rfl,rfl⟩ | ⟨_,old⟩
    · exact timely.due j job nextRun clock at_ calculated
    · exact timely.due j x nextRun clock old calculated
  case fired =>
    intro w date fired row later has scheduled
    rcases amend_has has with ⟨other,has⟩ | ⟨rfl,old,_,rfl⟩
    · rcases timely.fired w date fired row later has scheduled with earlier | ⟨equal,x,member,owner,ran⟩
      · exact .inl earlier
      · refine .inr ⟨equal,x,Pool.mem_set_of_ne at_ member ?_ _,owner,ran⟩
        rintro rfl
        exact other owner.symm
    · obtain ⟨has,claimed,was,before⟩ := timely.later known at_ ran calculated scheduled
      rcases timely.fired _ date fired job.row claimed has was with earlier | ⟨equal,_⟩
      · exact .inl (Int.lt_trans earlier before)
      · exact .inl (equal ▸ before)
  case once => exact timely.once
  case sorted =>
    intro w
    dsimp only
    split
    next own =>
      cases nextRun with
      | none =>
        rw [Option.toList_none,List.append_nil]
        exact timely.sorted w
      | some later =>
        obtain ⟨has,claimed,was,before⟩ := timely.later known at_ ran calculated rfl
        refine List.pairwise_append.mpr ⟨timely.sorted w,List.pairwise_singleton _ _,?_⟩
        intro date member new single
        obtain rfl := List.mem_singleton.mp single
        exact Int.lt_of_le_of_lt (timely.latest w job.row claimed (own ▸ has) was date member) before
    next => exact timely.sorted w
  case latest =>
    intro w row later has scheduled date member
    dsimp only at member
    rcases amend_has has with ⟨other,has⟩ | ⟨own,old,_,rfl⟩
    · rw [if_neg other] at member
      exact timely.latest w row later has scheduled date member
    · rw [if_pos own] at member
      have scheduled : nextRun = some later := scheduled
      obtain ⟨has,claimed,was,before⟩ := timely.later known at_ ran calculated scheduled
      rcases List.mem_append.mp member with earlier | new
      · have := timely.latest w job.row claimed (own ▸ has) was date earlier
        omega
      · rw [scheduled] at new
        exact Int.le_of_eq (List.mem_singleton.mp new)

theorem Timely.step {label : FleetLabel} (timely : Timely s) (known : Known s) (unedited : Unedited s label)
    (step : fleetStep label s = some t) : Timely t := by
  cases label with
  | tick now =>
    simp only [fleetStep] at step
    split at step
    next later => cases step; exact timely.tick later
    next => contradiction
  | poll keys =>
    obtain ⟨polls,moved,rfl⟩ := Option.map_eq_some_iff.mp step
    obtain ⟨returned,rfl⟩ := pollSchedules_some moved
    exact timely.poll known returned
  | orchestrate i env =>
    obtain ⟨job,at_,fresh,rfl⟩ := orchestrate_some step
    exact timely.orchestrate at_ fresh
  | calculate i =>
    obtain ⟨job,at_,ran,rfl⟩ := calculate_some step
    exact timely.calculate at_ ran
  | reschedule i =>
    obtain ⟨job,nextRun,clock,at_,ran,calculated,rfl⟩ := fleet_reschedule_some step
    exact timely.reschedule known at_ ran calculated
  | edit => exact unedited.elim

theorem Timely.initial {store : Store} (now : Int)
    (single : ∀ w wf, store.workflows w = some wf → wf.schedules.length ≤ 1) :
    Timely (fleet store now).init := by
  have rows : ∀ w wf, store.workflows w = some wf → wf.schedules = [] ∨ ∃ row, wf.schedules = [row] := by
    intro w wf stored
    have short := single w wf stored
    cases known : wf.schedules with
    | nil => exact .inl rfl
    | cons row rest =>
      rw [known,List.length_cons] at short
      obtain rfl := List.eq_nil_of_length_eq_zero (by omega : rest.length = 0)
      exact .inr ⟨row,rfl⟩
  have dates : ∀ w, store.dates w = [] ∨ ∃ row, store.Has w row ∧ store.dates w = row.nextRunAt.toList := by
    intro w
    unfold Store.dates Store.Has
    cases stored : store.workflows w with
    | none => exact .inl rfl
    | some wf =>
      rcases rows w wf stored with none | ⟨row,one⟩
      · exact .inl (by simp [none])
      · refine .inr ⟨row,⟨wf,rfl,by simp [one]⟩,?_⟩
        cases known : row.nextRunAt <;> simp [one,known]
  have same : ∀ w a b, store.Has w a → store.Has w b → a = b := by
    rintro w a b ⟨wf,stored,ina⟩ ⟨wf',stored',inb⟩
    obtain rfl := Option.some.inj (stored.symm.trans stored')
    rcases rows w wf stored with none | ⟨row,one⟩
    · rw [none] at ina
      contradiction
    · rw [one] at ina inb
      exact (List.mem_singleton.mp ina).trans (List.mem_singleton.mp inb).symm
  constructor
  case single => exact same
  case apart => exact List.Pairwise.nil
  case held => exact fun _ member => absurd member List.not_mem_nil
  case due => exact fun _ _ _ _ _ calculated => nomatch calculated
  case fired => exact fun _ _ member => absurd member List.not_mem_nil
  case once => exact List.nodup_nil
  case sorted =>
    intro w
    change (store.dates w).Pairwise _
    rcases dates w with none | ⟨row,_,one⟩
    · rw [none]
      exact List.Pairwise.nil
    · rw [one]
      cases row.nextRunAt with
      | none => exact List.Pairwise.nil
      | some date => exact List.pairwise_singleton _ _
  case latest =>
    intro w row later has scheduled date member
    rcases dates w with none | ⟨row',has',one⟩
    · rw [show (fleet store now).init.dates w = [] from none] at member
      contradiction
    · obtain rfl := same w row row' has has'
      rw [show (fleet store now).init.dates w = _ from one,scheduled] at member
      exact Int.le_of_eq (List.mem_singleton.mp member)

/-- No date of a row is orchestrated twice, by however many processes. -/
theorem fires_at_most_once (store : Store)
    (single : ∀ w wf, store.workflows w = some wf → wf.schedules.length ≤ 1) (now : Int) (s : Fleet)
    (reach : Reach (fleet store now) Unedited s) : AtMostOnce s := by
  have timely : Timely s := by
    refine reach.invariant Timely (.initial now single) ?_
    intro s label t reach timely unedited step
    exact timely.step (reach_known reach) unedited step
  exact ⟨timely.once,timely.sorted⟩

end Invariant

section Runs

instance (s : Fleet) : (label : FleetLabel) → Decidable (Unedited s label)
  | .edit .. => isFalse id
  | .tick _ | .poll _ | .orchestrate .. | .calculate _ | .reschedule _ => isTrue trivial

theorem daily_single : ∀ w wf, daily.workflows w = some wf → wf.schedules.length ≤ 1 := by
  intro w wf stored
  by_cases same : w = 1
  · subst same
    rw [daily,Store.put_self] at stored
    cases stored
    exact Nat.le_refl 1
  · rw [daily,Store.put_other _ _ same] at stored
    contradiction

/-- Two days of a daily schedule, the first of them late by 90 minutes and a bit. -/
theorem daily_fires_once : ∃ s, Reach (fleet daily 1893456000000) Unedited s ∧
    (s.orchestrated = [(1,1893542400000),(1,1893456000000)] ∧
      s.dates 1 = [1893456000000,1893542400000,1893628800000]) ∧ AtMostOnce s := by
  have run : ∃ s, Reach (fleet daily 1893456000000) Unedited s ∧
      (s.orchestrated = [(1,1893542400000),(1,1893456000000)] ∧
        s.dates 1 = [1893456000000,1893542400000,1893628800000]) :=
    follow_exists [.poll [(1,1)],.orchestrate 0 .dated,.tick 1893461400999,.calculate 0,.reschedule 0,
      .tick 1893542400000,.poll [(1,1)],.orchestrate 1 .dated,.calculate 1,.reschedule 1] (by decide +kernel)
  obtain ⟨s,reach,shape⟩ := run
  exact ⟨s,reach,shape,fires_at_most_once daily daily_single _ s reach⟩

end Runs

end TinyAutomator.Workflows
