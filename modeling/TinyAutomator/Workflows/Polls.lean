import TinyAutomator.Workflows.Rows

/-! The scheduler process beside the API. A poll claims queued trigger rows; what it
claimed orchestrates and queues the rows again while calls and other polls go on. -/
namespace TinyAutomator.Workflows

open Transition

inductive Progress where
  | claimed
  | opened
  | orchestrated
  | done
  deriving DecidableEq

/-- A row that a poll has taken; `late` tells whether its workflow had been silenced when
the poll started. -/
structure Claimed (ρ : Type) where
  workflowID : WorkflowID
  userID : UserID
  row : ρ
  late : Bool
  progress : Progress

/-- A call of OrchestrateWorkflow by a poll. -/
structure Firing where
  workflowID : WorkflowID
  late : Bool
  outcome : Except String Unit

/-- `silenced` are the workflows for which ArchiveWorkflow, or DeleteUserData of their
owner, has returned nil. -/
structure Polls where
  store : Store
  jobs : List (Claimed ScheduleRow)
  checks : List (Claimed CalendarRow)
  silenced : List WorkflowID
  log : List Firing

section Queries

def limit : Nat := 1000

def ScheduleRow.running (row : ScheduleRow) : ScheduleRow := { row with executionState := .running }

def CalendarRow.running (row : CalendarRow) : CalendarRow := { row with executionState := .running }

/-- The WHERE clause of GetDueSchedulesLocked. -/
def ScheduleRow.due (now : Int) (row : ScheduleRow) : Bool :=
  row.executionState = .queued && row.nextRunAt.any (· ≤ now)

/-- The WHERE clause of GetActiveWorkflowCalendarsLocked. -/
def CalendarRow.active (row : CalendarRow) : Bool := row.executionState = .queued

/-- A row that a query returns, with the owner of its workflow. -/
def Polls.claim {ρ : Type} (rows : Workflow → List ρ) (wanted : Nat → ρ → Bool) (running : ρ → ρ)
    (s : Polls) (key : WorkflowID × Nat) : Option (Claimed ρ) :=
  (s.store.workflows key.1).bind fun wf => ((rows wf).find? (wanted key.2)).map fun row =>
    ⟨key.1,wf.userID,running row,decide (key.1 ∈ s.silenced),.claimed⟩

theorem claim_some {ρ : Type} {rows : Workflow → List ρ} {wanted : Nat → ρ → Bool} {running : ρ → ρ}
    {s : Polls} {key : WorkflowID × Nat} {job : Claimed ρ}
    (claimed : s.claim rows wanted running key = some job) :
    ∃ wf row, s.store.workflows key.1 = some wf ∧ row ∈ rows wf ∧ wanted key.2 row = true ∧
      job = ⟨key.1,wf.userID,running row,decide (key.1 ∈ s.silenced),.claimed⟩ := by
  obtain ⟨wf,stored,claimed⟩ := Option.bind_eq_some_iff.mp claimed
  obtain ⟨row,found,rfl⟩ := Option.map_eq_some_iff.mp claimed
  exact ⟨wf,row,stored,List.mem_of_find?_eq_some found,List.find?_some found,rfl⟩

def Polls.claimSchedule (now : Int) : Polls → WorkflowID × Nat → Option (Claimed ScheduleRow) :=
  Polls.claim Workflow.schedules (fun id row => row.id = id && row.due now) ScheduleRow.running

def Polls.claimCalendar : Polls → WorkflowID × Nat → Option (Claimed CalendarRow) :=
  Polls.claim Workflow.calendars (fun id row => row.id = id && row.active) CalendarRow.running

/-- A query skips rows that are locked and has a limit, but no order: it may return any
rows that qualify. -/
def Returned {ρ : Type} (claim : WorkflowID × Nat → Option (Claimed ρ)) (keys : List (WorkflowID × Nat)) :
    Prop :=
  keys.Nodup ∧ keys.length ≤ limit ∧ ∀ key ∈ keys, (claim key).isSome

instance {ρ : Type} (claim : WorkflowID × Nat → Option (Claimed ρ)) (keys : List (WorkflowID × Nat)) :
    Decidable (Returned claim keys) :=
  inferInstanceAs (Decidable (_ ∧ _ ∧ _))

def Store.eachWorkflow (s : Store) (change : WorkflowID → Workflow → Workflow) : Store :=
  { s with workflows := fun w => (s.workflows w).map (change w) }

def Store.runSchedules (s : Store) (keys : List (WorkflowID × Nat)) : Store :=
  s.eachWorkflow fun w wf => { wf with
    schedules := wf.schedules.map fun row => if (w,row.id) ∈ keys then row.running else row }

def Store.runCalendars (s : Store) (keys : List (WorkflowID × Nat)) : Store :=
  s.eachWorkflow fun w wf => { wf with
    calendars := wf.calendars.map fun row => if (w,row.id) ∈ keys then row.running else row }

end Queries

section Steps

/-- OrchestrateWorkflow up to CreateWorkflowRun. It does not look at the status. -/
def orchestrateWorkflow (env : Env) (w : WorkflowID) (s : Store) : Except String Unit := do
  let wg ← wrap "orchestrate workflow failed to get workflow graph: " (getWorkflowGraph env w s)
  wrap "orchestrate workflow failed to validate workflow graph: "
    (validateWorkflowGraph env.visits (Run.validateNodes wg) (Run.validateEdges wg))
  if env.answers .transaction then return ()
  else .error "orchestrate workflow failed to create workflow run"

/-- `date` is the first later date that repeating the interval comes to. -/
def calculateNextRun (scheduleType : ScheduleType) (date : Int) : Option Int :=
  if scheduleType = .once then none else some date

inductive PollLabel where
  | create (env : Env) (userID : UserID) (name description status : String)
      (nodes : List WorkflowNodeDTO) (edges : List WorkflowEdgeDTO)
  | update (env : Env) (request : UpdateRequest)
  | archive (env : Env) (workflowID : WorkflowID)
  | deleteUserData (env : Env) (userID : UserID)
  | connect (userID : UserID)
  | pollSchedules (now : Int) (keys : List (WorkflowID × Nat))
  | runSchedule (job : Nat) (env : Env)
  | reschedule (job : Nat) (date now : Int)
  | dropJob (job : Nat)
  | pollCalendars (keys : List (WorkflowID × Nat))
  | openCalendar (check : Nat)
  | runCalendar (check : Nat) (env : Env)
  | sync (check : Nat) (syncToken : String) (now : Int)
  | dropCheck (check : Nat)

/-- A call that silences some workflows if it returns nil. -/
def Polls.reply (s : Polls) (silenced : List WorkflowID) (reply : Reply Unit) : Polls :=
  match reply with
  | (t,.ok ()) => { s with store := t, silenced := silenced ++ s.silenced }
  | (t,.error _) => { s with store := t }

def Polls.orchestrate {ρ : Type} (s : Polls) (env : Env) (x : Claimed ρ) : Firing :=
  ⟨x.workflowID,x.late,orchestrateWorkflow env x.workflowID s.store⟩

/-- Calls of the API are steps of their own. A scheduled row orchestrates in a goroutine and
is queued again whatever came of it; a calendar row is synced only if its check went well.
A cancelled context, an error or a crash drops what was claimed. -/
def pollStep : PollLabel → Polls → Option Polls
  | .create env userID name description status nodes edges, s =>
    some { s with store := (createWorkflow env userID name description status nodes edges s.store).1 }
  | .update env r, s => some { s with store := (updateWorkflow env r s.store).1 }
  | .archive env w, s => some (s.reply [w] (archiveWorkflow env w s.store))
  | .deleteUserData env userID, s =>
    some (s.reply (getUserWorkflows userID s.store) (deleteUserData env userID s.store))
  | .connect userID, s => some { s with store := { s.store with
      integrations := fun u => if u = userID then true else s.store.integrations u } }
  | .pollSchedules now keys, s =>
    if Returned (s.claimSchedule now) keys then some { s with
      store := s.store.runSchedules keys, jobs := s.jobs ++ keys.filterMap (s.claimSchedule now) }
    else none
  | .runSchedule i env, s =>
    match s.jobs[i]? with
    | some job =>
      if job.progress = .claimed ∧ validateSchedule env.isFuture (job.row.nextRunAt.getD 0)
          (job.row.executionState = .running) = .ok () then some { s with
        jobs := s.jobs.set i { job with progress := .orchestrated }
        log := s.log ++ [s.orchestrate env job] }
      else none
    | none => none
  | .reschedule i date now, s =>
    match s.jobs[i]? with
    | some job =>
      if job.progress = .orchestrated then some { s with
        store := s.store.amend job.workflowID fun wf => wf.updateSchedules job.row.scheduleType
          (calculateNextRun job.row.scheduleType date) (some now) now
        jobs := s.jobs.set i { job with progress := .done } }
      else none
    | none => none
  | .dropJob i, s => some { s with jobs := s.jobs.eraseIdx i }
  | .pollCalendars keys, s =>
    if Returned s.claimCalendar keys then some { s with
      store := s.store.runCalendars keys, checks := s.checks ++ keys.filterMap s.claimCalendar }
    else none
  | .openCalendar i, s =>
    match s.checks[i]? with
    | some check =>
      if check.progress = .claimed ∧ validateCalendarConfig check.row.config = .ok () ∧
          s.store.integrations check.userID = true then some { s with
        checks := s.checks.set i { check with progress := .opened } }
      else none
    | none => none
  | .runCalendar i env, s =>
    match s.checks[i]? with
    | some check =>
      if check.progress = .opened then
        let firing := s.orchestrate env check
        let progress := match firing.outcome with
          | .ok () => .orchestrated
          | .error _ => .done
        some { s with checks := s.checks.set i { check with progress }, log := s.log ++ [firing] }
      else none
    | none => none
  | .sync i syncToken now, s =>
    match s.checks[i]? with
    | some check =>
      if check.progress = .opened ∨ check.progress = .orchestrated then some { s with
        store := s.store.amend check.workflowID fun wf =>
          wf.updateCalendars check.row.config syncToken .queued now
        checks := s.checks.set i { check with progress := .done } }
      else none
    | none => none
  | .dropCheck i, s => some { s with checks := s.checks.eraseIdx i }

def scheduler (integrations : UserID → Bool) : System Polls PollLabel :=
  ⟨⟨.fresh integrations,[],[],[],[]⟩,pollStep⟩

end Steps

section Moves

variable {s t : Polls} {i : Nat} {env : Env} {date now : Int} {keys : List (WorkflowID × Nat)}

theorem pollSchedules_some (step : pollStep (.pollSchedules now keys) s = some t) :
    Returned (s.claimSchedule now) keys ∧ t = { s with
      store := s.store.runSchedules keys, jobs := s.jobs ++ keys.filterMap (s.claimSchedule now) } := by
  simp only [pollStep] at step
  split at step
  next returned => cases step; exact ⟨returned,rfl⟩
  next => contradiction

theorem runSchedule_some (step : pollStep (.runSchedule i env) s = some t) :
    ∃ job, s.jobs[i]? = some job ∧ job.progress = .claimed ∧ t = { s with
      jobs := s.jobs.set i { job with progress := .orchestrated }
      log := s.log ++ [s.orchestrate env job] } := by
  simp only [pollStep] at step
  split at step
  next job at_ =>
    split at step
    next ready => cases step; exact ⟨job,at_,ready.1,rfl⟩
    next => contradiction
  next => contradiction

theorem reschedule_some (step : pollStep (.reschedule i date now) s = some t) :
    ∃ job, s.jobs[i]? = some job ∧ job.progress = .orchestrated ∧ t = { s with
      store := s.store.amend job.workflowID fun wf => wf.updateSchedules job.row.scheduleType
        (calculateNextRun job.row.scheduleType date) (some now) now
      jobs := s.jobs.set i { job with progress := .done } } := by
  simp only [pollStep] at step
  split at step
  next job at_ =>
    split at step
    next ran => cases step; exact ⟨job,at_,ran,rfl⟩
    next => contradiction
  next => contradiction

theorem pollCalendars_some (step : pollStep (.pollCalendars keys) s = some t) :
    Returned s.claimCalendar keys ∧ t = { s with
      store := s.store.runCalendars keys, checks := s.checks ++ keys.filterMap s.claimCalendar } := by
  simp only [pollStep] at step
  split at step
  next returned => cases step; exact ⟨returned,rfl⟩
  next => contradiction

theorem openCalendar_some (step : pollStep (.openCalendar i) s = some t) :
    ∃ check, s.checks[i]? = some check ∧ check.progress = .claimed ∧ t = { s with
      checks := s.checks.set i { check with progress := .opened } } := by
  simp only [pollStep] at step
  split at step
  next check at_ =>
    split at step
    next ready => cases step; exact ⟨check,at_,ready.1,rfl⟩
    next => contradiction
  next => contradiction

theorem runCalendar_some (step : pollStep (.runCalendar i env) s = some t) :
    ∃ check progress, s.checks[i]? = some check ∧ check.progress = .opened ∧ t = { s with
      checks := s.checks.set i { check with progress }, log := s.log ++ [s.orchestrate env check] } := by
  simp only [pollStep] at step
  split at step
  next check at_ =>
    split at step
    next ready => cases step; exact ⟨check,_,at_,ready,rfl⟩
    next => contradiction
  next => contradiction

theorem sync_some {syncToken : String} (step : pollStep (.sync i syncToken now) s = some t) :
    ∃ check, s.checks[i]? = some check ∧ t = { s with
      store := s.store.amend check.workflowID fun wf =>
        wf.updateCalendars check.row.config syncToken .queued now
      checks := s.checks.set i { check with progress := .done } } := by
  simp only [pollStep] at step
  split at step
  next check at_ =>
    split at step
    next => cases step; exact ⟨check,at_,rfl⟩
    next => contradiction
  next => contradiction

end Moves

section Rows

variable {s : Store} {w x : WorkflowID} {row : ScheduleRow} {keys : List (WorkflowID × Nat)}

/-- A schedule row of a workflow. -/
def Store.Has (s : Store) (w : WorkflowID) (row : ScheduleRow) : Prop :=
  ∃ wf, s.workflows w = some wf ∧ row ∈ wf.schedules

/-- The rows after a poll: a row is as it was or has been claimed. -/
theorem runSchedules_has (has : (s.runSchedules keys).Has w row) :
    ∃ old, s.Has w old ∧ (((w,old.id) ∈ keys ∧ row = old.running) ∨ (w,old.id) ∉ keys ∧ row = old) := by
  obtain ⟨wf,stored,member⟩ := has
  obtain ⟨wf,before,rfl⟩ := Option.map_eq_some_iff.mp stored
  obtain ⟨old,within,rfl⟩ := List.mem_map.mp member
  refine ⟨old,⟨wf,before,within⟩,?_⟩
  by_cases claimed : (w,old.id) ∈ keys
  · exact .inl ⟨claimed,if_pos claimed⟩
  · exact .inr ⟨claimed,if_neg claimed⟩

theorem has_runSchedules (keys : List (WorkflowID × Nat)) (has : s.Has w row) :
    (s.runSchedules keys).Has w (if (w,row.id) ∈ keys then row.running else row) := by
  obtain ⟨wf,stored,member⟩ := has
  exact ⟨_,congrArg (Option.map _) stored,List.mem_map.mpr ⟨row,member,rfl⟩⟩

theorem amend_has {scheduleType : ScheduleType} {nextRunAt lastRunAt : Option Int} {updatedAt : Int}
    (has : (s.amend w fun wf => wf.updateSchedules scheduleType nextRunAt lastRunAt updatedAt).Has x row) :
    (x ≠ w ∧ s.Has x row) ∨ x = w ∧ ∃ old, s.Has w old ∧ row =
      { old with scheduleType, nextRunAt, lastRunAt, updatedAt
                 executionState := if nextRunAt = none then .completed else .queued } := by
  obtain ⟨wf,stored,member⟩ := has
  by_cases same : x = w
  · subst same
    rw [Store.amend_self] at stored
    obtain ⟨wf,before,rfl⟩ := Option.map_eq_some_iff.mp stored
    obtain ⟨old,within,rfl⟩ := List.mem_map.mp member
    exact .inr ⟨rfl,old,⟨wf,before,within⟩,rfl⟩
  · rw [Store.amend_other _ _ same] at stored
    exact .inl ⟨same,wf,stored,member⟩

theorem has_amend_other {change : Workflow → Workflow} (other : x ≠ w) (has : s.Has x row) :
    (s.amend w change).Has x row := by
  obtain ⟨wf,stored,member⟩ := has
  exact ⟨wf,(Store.amend_other s change other).trans stored,member⟩

theorem claimSchedule_some {p : Polls} {now : Int} {key : WorkflowID × Nat} {job : Claimed ScheduleRow}
    (claimed : p.claimSchedule now key = some job) :
    job.workflowID = key.1 ∧ job.progress = .claimed ∧ ∃ row, p.store.Has key.1 row ∧ row.id = key.2 ∧
      row.executionState = .queued ∧ (∃ date, row.nextRunAt = some date ∧ date ≤ now) ∧
      job.row = row.running := by
  obtain ⟨wf,row,stored,member,wanted,rfl⟩ := claim_some claimed
  simp only [ScheduleRow.due,Bool.and_eq_true,decide_eq_true_eq] at wanted
  obtain ⟨same,queued,due⟩ := wanted
  obtain ⟨date,scheduled,late⟩ := (Option.any_eq_true _ _).mp due
  exact ⟨rfl,rfl,row,⟨wf,stored,member⟩,same,queued,⟨date,scheduled,of_decide_eq_true late⟩,rfl⟩

end Rows

end TinyAutomator.Workflows
