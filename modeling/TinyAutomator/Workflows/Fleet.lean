import TinyAutomator.Workflows.Recurrence
import TinyAutomator.Lib.Pool

/-! Any number of scheduler processes on one database and one clock. Their goroutines form
one pool, and users edit schedules in between. -/
namespace TinyAutomator.Workflows

open Transition

/-- `calculated` holds what CalculateNextRun has returned to a goroutine, and when; a
goroutine that has crashed never moves again. `orchestrated` are the dates for which a
workflow has been orchestrated, `dates` the dates a workflow's row has had, in order, and
`edited` the last edit of its schedule. -/
structure Fleet where
  polls : Polls
  now : Int
  calculated : Nat → Option (Option Int × Int)
  orchestrated : List (WorkflowID × Int)
  dates : WorkflowID → List Int
  edited : WorkflowID → Option (ScheduleType × Int)

inductive FleetLabel where
  | tick (now : Int)
  | poll (keys : List (WorkflowID × Nat))
  | orchestrate (job : Nat) (env : Env)
  | calculate (job : Nat)
  | reschedule (job : Nat)
  | edit (workflowID : WorkflowID) (scheduleType : ScheduleType) (scheduledDate : Int)

/-- ws.NextRunAt.Time. -/
def ScheduleRow.time (row : ScheduleRow) : Int := row.nextRunAt.getD 0

def fleetStep : FleetLabel → Fleet → Option Fleet
  | .tick now, s => if s.now ≤ now then some { s with now } else none
  | .poll keys, s => (pollStep (.pollSchedules s.now keys) s.polls).map fun polls => { s with polls }
  | .orchestrate i env, s =>
    match s.polls.jobs[i]? with
    | some job => (pollStep (.runSchedule i env) s.polls).map fun polls => { s with
        polls, orchestrated := (job.workflowID,job.row.time) :: s.orchestrated }
    | none => none
  | .calculate i, s =>
    match s.polls.jobs[i]? with
    | some job =>
      if job.progress = .orchestrated ∧ s.calculated i = none then
        let nextRun := CalculateNextRun job.row.scheduleType job.row.time s.now s.now
        some { s with calculated := fun j => if j = i then some (nextRun,s.now) else s.calculated j }
      else none
    | none => none
  | .reschedule i, s =>
    match s.polls.jobs[i]?, s.calculated i with
    | some job, some (nextRun,now) =>
      (pollStep (.reschedule i (nextRun.getD 0) now) s.polls).map fun polls => { s with
        polls
        dates := fun w => if w = job.workflowID then s.dates w ++ nextRun.toList else s.dates w }
    | _, _ => none
  | .edit w scheduleType date, s => some { s with
      polls := { s.polls with
        store := s.polls.store.amend w fun wf => wf.updateSchedules scheduleType (some date) none s.now }
      edited := fun x => if x = w then some (scheduleType,date) else s.edited x }

/-- The dates of the rows of a workflow. -/
def Store.dates (s : Store) (w : WorkflowID) : List Int :=
  ((s.workflows w).toList.flatMap (·.schedules)).filterMap (·.nextRunAt)

/-- Any database and any time to start from. -/
def fleet (store : Store) (now : Int) : System Fleet FleetLabel :=
  ⟨⟨⟨store,[],[],[],[]⟩,now,fun _ => none,[],store.dates,fun _ => none⟩,fleetStep⟩

section Moves

variable {s t : Fleet} {i : Nat} {env : Env} {keys : List (WorkflowID × Nat)}

theorem orchestrate_some (step : fleetStep (.orchestrate i env) s = some t) :
    ∃ job, s.polls.jobs[i]? = some job ∧ job.progress = .claimed ∧ t = { s with
      polls := { s.polls with
        jobs := s.polls.jobs.set i { job with progress := .orchestrated }
        log := s.polls.log ++ [s.polls.orchestrate env job] }
      orchestrated := (job.workflowID,job.row.time) :: s.orchestrated } := by
  simp only [fleetStep] at step
  split at step
  next job at_ =>
    obtain ⟨polls,moved,rfl⟩ := Option.map_eq_some_iff.mp step
    obtain ⟨same,at',fresh,rfl⟩ := runSchedule_some moved
    obtain rfl := Option.some.inj (at_.symm.trans at')
    exact ⟨job,at_,fresh,rfl⟩
  next => contradiction

theorem calculate_some (step : fleetStep (.calculate i) s = some t) :
    ∃ job, s.polls.jobs[i]? = some job ∧ job.progress = .orchestrated ∧ t = { s with
      calculated := fun j => if j = i then
        some (CalculateNextRun job.row.scheduleType job.row.time s.now s.now,s.now) else s.calculated j } := by
  simp only [fleetStep] at step
  split at step
  next job at_ =>
    split at step
    next ready => cases step; exact ⟨job,at_,ready.1,rfl⟩
    next => contradiction
  next => contradiction

theorem fleet_reschedule_some (step : fleetStep (.reschedule i) s = some t) :
    ∃ job nextRun now, s.polls.jobs[i]? = some job ∧ job.progress = .orchestrated ∧
      s.calculated i = some (nextRun,now) ∧
      t = { s with
        polls := { s.polls with
          store := s.polls.store.amend job.workflowID fun wf => wf.updateSchedules job.row.scheduleType
            (calculateNextRun job.row.scheduleType (nextRun.getD 0)) (some now) now
          jobs := s.polls.jobs.set i { job with progress := .done } }
        dates := fun w => if w = job.workflowID then s.dates w ++ nextRun.toList else s.dates w } := by
  simp only [fleetStep] at step
  split at step
  next job nextRun now at_ known =>
    obtain ⟨polls,moved,rfl⟩ := Option.map_eq_some_iff.mp step
    obtain ⟨same,at',ran,rfl⟩ := reschedule_some moved
    obtain rfl := Option.some.inj (at_.symm.trans at')
    exact ⟨job,nextRun,now,at_,ran,known,rfl⟩
  next => contradiction

/-- What is written back is what CalculateNextRun has returned. -/
theorem calculated_kept (scheduleType : ScheduleType) (oldNextRun now clock : Int) :
    calculateNextRun scheduleType ((CalculateNextRun scheduleType oldNextRun now clock).getD 0) =
      CalculateNextRun scheduleType oldNextRun now clock := by
  unfold CalculateNextRun calculateNextRun
  split <;> rfl

end Moves

section Results

variable {s t : Fleet} {job : Claimed ScheduleRow} {i : Nat}

/-- What has been calculated for a goroutine comes from the row that it has claimed. -/
structure Known (s : Fleet) : Prop where
  bound : ∀ i, s.polls.jobs.length ≤ i → s.calculated i = none
  computed : ∀ (i : Nat) job nextRun clock, s.polls.jobs[i]? = some job →
    s.calculated i = some (nextRun,clock) →
      nextRun = CalculateNextRun job.row.scheduleType job.row.time clock clock

theorem Known.move (known : Known s) (same : t.calculated = s.calculated)
    (grows : s.polls.jobs.length ≤ t.polls.jobs.length)
    (rows : ∀ i < s.polls.jobs.length, (t.polls.jobs[i]?).map (·.row) = (s.polls.jobs[i]?).map (·.row)) :
    Known t where
  bound := fun i beyond => same ▸ known.bound i (Nat.le_trans grows beyond)
  computed := by
    intro i job nextRun clock at_ calculated
    rw [same] at calculated
    have bound : i < s.polls.jobs.length := by
      by_contra beyond
      rw [known.bound i (Nat.not_lt.mp beyond)] at calculated
      contradiction
    have row := rows i bound
    rw [at_] at row
    obtain ⟨old,before,kept⟩ := Option.map_eq_some_iff.mp row.symm
    have kept : old.row = job.row := kept
    rw [← kept]
    exact known.computed i old nextRun clock before calculated

theorem Known.set (known : Known s) (same : t.calculated = s.calculated) {job' : Claimed ScheduleRow}
    (at_ : s.polls.jobs[i]? = some job) (jobs : t.polls.jobs = s.polls.jobs.set i job')
    (row : job'.row = job.row) : Known t := by
  refine known.move same (by rw [jobs,List.length_set]) fun j bound => ?_
  rw [jobs,List.getElem?_set]
  split
  next own =>
    subst own
    rw [if_pos bound,at_,Option.map_some,Option.map_some,row]
  next => rfl

theorem Known.step {label : FleetLabel} (known : Known s) (step : fleetStep label s = some t) : Known t := by
  cases label with
  | tick now =>
    simp only [fleetStep] at step
    split at step
    next => cases step; exact known.move rfl (Nat.le_refl _) fun _ _ => rfl
    next => contradiction
  | poll keys =>
    obtain ⟨polls,moved,rfl⟩ := Option.map_eq_some_iff.mp step
    obtain ⟨_,rfl⟩ := pollSchedules_some moved
    refine known.move rfl (by rw [List.length_append]; omega) fun i bound => ?_
    rw [List.getElem?_append_left bound]
  | orchestrate i env =>
    obtain ⟨job,at_,_,rfl⟩ := orchestrate_some step
    exact known.set rfl at_ rfl rfl
  | calculate i =>
    obtain ⟨job,at_,_,rfl⟩ := calculate_some step
    refine ⟨fun j beyond => ?_,fun j x nextRun clock get calculated => ?_⟩
    · have inside := (List.getElem?_eq_some_iff.mp at_).1
      have beyond : s.polls.jobs.length ≤ j := beyond
      exact (if_neg (by omega)).trans (known.bound j beyond)
    · dsimp only at calculated
      split at calculated
      next same =>
        subst same
        cases calculated
        obtain rfl := Option.some.inj (at_.symm.trans get)
        rfl
      next => exact known.computed j x nextRun clock get calculated
  | reschedule i =>
    obtain ⟨job,nextRun,clock,at_,_,_,rfl⟩ := fleet_reschedule_some step
    exact known.set rfl at_ rfl rfl
  | edit =>
    cases step
    exact known.move rfl (Nat.le_refl _) fun _ _ => rfl

theorem reach_known {store : Store} {now : Int} {ok : Guard Fleet FleetLabel}
    (reach : Reach (fleet store now) ok s) : Known s := by
  have initial : Known (fleet store now).init := by
    constructor <;> simp [fleet]
  refine reach.invariant Known initial ?_
  intro s label t _ known _ step
  exact known.step step

theorem Known.written (known : Known s) {nextRun : Option Int} {clock : Int}
    (at_ : s.polls.jobs[i]? = some job) (calculated : s.calculated i = some (nextRun,clock)) :
    calculateNextRun job.row.scheduleType (nextRun.getD 0) = nextRun := by
  rw [known.computed i job nextRun clock at_ calculated,calculated_kept]

end Results

/-- A daily schedule from the first of January 2030. -/
def daily : Store := (Store.fresh fun _ => false).put 1
  ⟨"alice","reminder","a mail",.active,.empty,[⟨1,.daily,some 1893456000000,none,.queued,0⟩],[],0,0⟩

end TinyAutomator.Workflows
