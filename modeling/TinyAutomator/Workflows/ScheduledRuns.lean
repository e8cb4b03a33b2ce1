import TinyAutomator.Workflows.Fleet

/-! One call of RunScheduledWorkflow and what it does to the schedule rows: it moves them on
whatever came of the run, and all rows of the workflow at once. -/
namespace TinyAutomator.Workflows

/-- What a call meets. IsFuture reads the clock anew in CalculateNextRun. -/
structure RunEnv where
  cancelled : Bool
  isInvalid : Int → Bool
  orchestrateWorkflow : UserID → WorkflowID → Except String Int
  now : Int
  clock : Int
  answers : Bool

/-- The goroutine; what OrchestrateWorkflow returns is logged. -/
def RunEnv.goroutine (env : RunEnv) (ws : Claimed ScheduleRow) (s : Store) : Store × String :=
  let logged := match env.orchestrateWorkflow ws.userID ws.workflowID with
    | .error _ => "workflow execution failed"
    | .ok runID => if runID = -1 then "workflow execution failed" else "workflow execution started"
  let nextRun := CalculateNextRun ws.row.scheduleType ws.row.time env.now env.clock
  if env.answers then
    (s.amend ws.workflowID fun wf => wf.updateSchedules ws.row.scheduleType nextRun (some env.now) env.now,logged)
  else (s,"failed to update next_run_at")

/-- RunScheduledWorkflow and its goroutine, with the last line of the log. -/
def runScheduledWorkflow (env : RunEnv) (ws : Claimed ScheduleRow) (s : Store) :
    Store × Except String String :=
  if env.cancelled then (s,.ok "ctx cancelled, skipping schedule")
  else if env.isInvalid ws.row.time then (s,.error "failed to validate schedule: invalid date")
  else
    match wrap "failed to validate schedule: " (validateSchedule (fun date => decide (env.clock < date))
      ws.row.time (decide (ws.row.executionState = .running))) with
    | .error err => (s,.error err)
    | .ok () => ((env.goroutine ws s).1,.ok (env.goroutine ws s).2)

def Started (env : RunEnv) (ws : Claimed ScheduleRow) : Prop :=
  ∃ runID, env.orchestrateWorkflow ws.userID ws.workflowID = .ok runID ∧ runID ≠ -1

/-- The call comes to its UPDATE, and the database answers. -/
structure WritesBack (env : RunEnv) (ws : Claimed ScheduleRow) : Prop where
  live : env.cancelled = false
  valid : env.isInvalid ws.row.time = false
  answers : env.answers = true

/-- The row is out of the queue for good, or waits for a later date. -/
def Retired (old new : ScheduleRow) : Prop :=
  new.executionState = .completed ∨
    ∃ before after, old.nextRunAt = some before ∧ new.nextRunAt = some after ∧ before < after

/-- A claimed row that the call retires is its own, and its workflow has been started. -/
def RetiredByRun (env : RunEnv) (ws : Claimed ScheduleRow) (s : Store) : Prop :=
  ∀ old new, s.Has ws.workflowID old → old.executionState = .running →
    (runScheduledWorkflow env ws s).1.Has ws.workflowID new → new.id = old.id → Retired old new →
      old = ws.row ∧ Started env ws

def Keyed (s : Store) (w : WorkflowID) : Prop :=
  ∀ a b, s.Has w a → s.Has w b → a.id = b.id → a = b

section Call

variable {env : RunEnv} {ws : Claimed ScheduleRow} {s : Store} {w : WorkflowID} {old new row : ScheduleRow}

def RunEnv.written (env : RunEnv) (ws : Claimed ScheduleRow) (row : ScheduleRow) : ScheduleRow :=
  let nextRunAt := CalculateNextRun ws.row.scheduleType ws.row.time env.now env.clock
  ⟨row.id,ws.row.scheduleType,nextRunAt,some env.now,
    if nextRunAt = none then .completed else .queued,env.now⟩

theorem run_writes (claimed : ws.row.executionState = .running) (writes : WritesBack env ws) :
    (runScheduledWorkflow env ws s).1 = s.amend ws.workflowID fun wf =>
      wf.updateSchedules ws.row.scheduleType
        (CalculateNextRun ws.row.scheduleType ws.row.time env.now env.clock) (some env.now) env.now := by
  simp [runScheduledWorkflow,validateSchedule,wrap,writes.live,writes.valid,claimed,RunEnv.goroutine,
    writes.answers]

theorem run_skips (skips : ¬WritesBack env ws) : (runScheduledWorkflow env ws s).1 = s := by
  unfold runScheduledWorkflow
  split
  next => rfl
  next live =>
    split
    next => rfl
    next valid =>
      split
      next => rfl
      next =>
        have down : ¬env.answers = true := fun answers => skips ⟨by simpa using live,by simpa using valid,answers⟩
        simp [RunEnv.goroutine,down]

/-- All rows of the workflow are written. -/
theorem run_has (claimed : ws.row.executionState = .running) (writes : WritesBack env ws) :
    (runScheduledWorkflow env ws s).1.Has ws.workflowID new ↔
      ∃ old, s.Has ws.workflowID old ∧ new = env.written ws old := by
  rw [run_writes claimed writes]
  constructor
  · intro has
    rcases amend_has has with ⟨other,_⟩ | ⟨_,old,before,same⟩
    · exact absurd rfl other
    · exact ⟨old,before,same⟩
  · rintro ⟨old,⟨wf,stored,member⟩,rfl⟩
    refine ⟨_,(Store.amend_self ..).trans (congrArg (Option.map _) stored),?_⟩
    exact List.mem_map.mpr ⟨old,member,rfl⟩

theorem written_retires {date : Int} (scheduled : old.nextRunAt = some date) (due : date ≤ env.clock) :
    Retired old (env.written ws old) := by
  unfold RunEnv.written
  dsimp only
  cases computed : CalculateNextRun ws.row.scheduleType ws.row.time env.now env.clock with
  | none => exact .inl rfl
  | some later =>
    have future := CalculateNextRun_future computed
    exact .inr ⟨date,later,scheduled,rfl,by omega⟩

/-- The rows that a poll has claimed, on a clock that the goroutine reads later. -/
structure Holding (env : RunEnv) (ws : Claimed ScheduleRow) (s : Store) : Prop where
  key : Keyed s ws.workflowID
  has : s.Has ws.workflowID ws.row
  claimed : ws.row.executionState = .running
  due : ∀ row, s.Has ws.workflowID row → row.executionState = .running →
    ∃ date, row.nextRunAt = some date ∧ date ≤ env.clock

/-- A call retires only what it has run if and only if it does not come to its UPDATE, or the
run has started and no other row of the workflow is claimed. -/
theorem retired_iff (env : RunEnv) (ws : Claimed ScheduleRow) (s : Store) (holding : Holding env ws s) :
    RetiredByRun env ws s ↔ ¬WritesBack env ws ∨ Started env ws ∧
      ∀ row, s.Has ws.workflowID row → row.executionState = .running → row = ws.row := by
  obtain ⟨key,has,claimed,due⟩ := holding
  by_cases writes : WritesBack env ws
  · constructor
    · intro retires
      have all : ∀ row, s.Has ws.workflowID row → row.executionState = .running →
          row = ws.row ∧ Started env ws := by
        intro row stored running
        obtain ⟨date,scheduled,come⟩ := due row stored running
        have after := (run_has claimed writes).mpr ⟨row,stored,rfl⟩
        exact retires row _ stored running after rfl (written_retires scheduled come)
      exact .inr ⟨(all ws.row has claimed).2,fun row stored running => (all row stored running).1⟩
    · rintro (skips | ⟨started,only⟩)
      · exact absurd writes skips
      · intro old _ stored running _ _ _
        exact ⟨only old stored running,started⟩
  · refine iff_of_true ?_ (.inl writes)
    intro old new stored running after same retired
    rw [run_skips writes] at after
    obtain rfl := key new old after stored same
    rcases retired with completed | ⟨before,later,scheduled,scheduled',less⟩
    · rw [running] at completed
      contradiction
    · rw [scheduled] at scheduled'
      cases scheduled'
      exact absurd less (Int.lt_irrefl _)

end Call

section OneTime

def oneTime : Claimed ScheduleRow := ⟨1,"alice",⟨1,.once,some 1893456000000,none,.running,0⟩,false,.claimed⟩

def oneTimeStore : Store := (Store.fresh fun _ => false).put 1
  ⟨"alice","reminder","a mail",.active,.empty,[oneTime.row],[],0,0⟩

def RunEnv.punctual : RunEnv where
  cancelled := false
  isInvalid := fun _ => false
  orchestrateWorkflow := fun _ _ => .ok 1
  now := 1893456000000
  clock := 1893456000000
  answers := true

theorem oneTime_only {row : ScheduleRow} (has : oneTimeStore.Has 1 row) : row = oneTime.row := by
  obtain ⟨wf,stored,member⟩ := has
  cases stored
  exact List.mem_singleton.mp member

theorem oneTime_holding {env : RunEnv} (due : 1893456000000 ≤ env.clock) : Holding env oneTime oneTimeStore where
  key := fun a b first second _ => (oneTime_only first).trans (oneTime_only second).symm
  has := ⟨_,rfl,List.mem_singleton_self _⟩
  claimed := rfl
  due := by
    intro row has _
    obtain rfl := oneTime_only has
    exact ⟨_,rfl,due⟩

theorem oneTime_retired : RetiredByRun .punctual oneTime oneTimeStore :=
  (retired_iff .punctual oneTime oneTimeStore (oneTime_holding (Int.le_refl _))).mpr
    (.inr ⟨⟨1,rfl,by decide⟩,fun _ has _ => oneTime_only has⟩)

theorem failed_retired : ¬∀ env ws s, Holding env ws s → RetiredByRun env ws s := by
  intro retires
  let env : RunEnv := { RunEnv.punctual with
    orchestrateWorkflow := fun _ _ => .error "orchestrate workflow failed to get workflow graph" }
  have writes : WritesBack env oneTime := ⟨rfl,rfl,rfl⟩
  have has : oneTimeStore.Has 1 oneTime.row := ⟨_,rfl,List.mem_singleton_self _⟩
  have after := (run_has rfl writes).mpr ⟨oneTime.row,has,rfl⟩
  obtain ⟨_,runID,started,_⟩ := retires env oneTime oneTimeStore (oneTime_holding (Int.le_refl _))
    oneTime.row _ has rfl after rfl (.inl rfl)
  contradiction

end OneTime

end TinyAutomator.Workflows
