import Mathlib.Algebra.Group.Int.Defs
import TinyAutomator.Decoding
import TinyAutomator.Workflows.Tables

/-! The trigger registry: how a node config becomes a schedule or a calendar
configuration, and the rows that Execute and Update write for it. -/
namespace TinyAutomator.Workflows

/-- The statements outside a transaction that the database may fail to answer, and the
transaction as a whole; `triggerRow` counts the nodes still to come. -/
inductive Statement where
  | workflow
  | graph
  | triggerRow (left : Nat)
  | transaction
  | status (workflow : WorkflowID)
  | integrations
  | runs
  deriving DecidableEq

/-- What one call gets from outside: the clock when the request is validated and when its
triggers are executed, map orders, the Calendar API, the run history and the database's
answers. A COMMIT that is not answered may have been `applied`. -/
structure Env where
  visits : MapOrder
  now : Int
  parseRFC3339 : String → Option Int
  isFuture : Int → Bool
  stillFuture : Int → Bool
  syncToken : UserID → String → Except String String
  ran : NodeID → Bool
  answers : Statement → Bool
  applied : Bool

/-- A call leaves a store behind whether or not it succeeds. -/
abbrev Reply (α : Type) := Store × Except String α

/-- The end of a transaction that turns `s` into `t`. -/
def Env.commit {α : Type} (env : Env) (text : String) (s t : Store) (value : α) : Reply α :=
  if env.answers .transaction then (t,.ok value)
  else (if env.applied then t else s,.error text)

/-- `fmt.Errorf` with `%w`. -/
def wrap {α : Type} (text : String) : Except String α → Except String α
  | .ok a => .ok a
  | .error err => .error (text ++ err)

def nilDereference : String := "runtime error: invalid memory address or nil pointer dereference"

/-- The type assertion `.(string)` on a value of a map. -/
def asString : Option Json → Option String
  | some (.str value) => some value
  | _ => none

section Schedule

structure ScheduleTriggerConfig where
  scheduleType : ScheduleType
  scheduledDate : Int
  deriving DecidableEq

/-- models.ScheduleTypes. -/
def scheduleTypes : String → Option ScheduleType
  | "once" => some .once
  | "daily" => some .daily
  | "weekly" => some .weekly
  | "monthly" => some .monthly
  | _ => none

def buildScheduleConfig (parse : String → Option Int) (config : Config) :
    Except String ScheduleTriggerConfig :=
  match asString config.scheduleType with
  | none => .error "schedule type is required"
  | some scheduleTypeStr =>
    match scheduleTypes scheduleTypeStr with
    | none => .error ("invalid schedule type: " ++ scheduleTypeStr)
    | some scheduleType =>
      match asString config.scheduledDate with
      | none => .error "scheduled date is required"
      | some rawScheduledDate =>
        match parse rawScheduledDate with
        | none => .error ("invalid scheduled date: " ++ rawScheduledDate)
        | some scheduledDate => .ok ⟨scheduleType,scheduledDate⟩

def validateSchedule (isFuture : Int → Bool) (nextRunAt : Int) (isRunning : Bool) : Except String Unit :=
  if !isFuture nextRunAt && !isRunning then .error "next_run_at must be in the future" else .ok ()

/-- The repository's UpdateWorkflowSchedule: every schedule row of the workflow. -/
def Workflow.updateSchedules (wf : Workflow) (scheduleType : ScheduleType)
    (nextRunAt lastRunAt : Option Int) (updatedAt : Int) : Workflow :=
  let executionState := if nextRunAt = none then .completed else .queued
  { wf with schedules := wf.schedules.map fun row => { row with
      scheduleType, nextRunAt, lastRunAt, executionState, updatedAt } }

/-- ScheduleWorkflow. -/
def Store.createSchedule (s : Store) (w : WorkflowID) (c : ScheduleTriggerConfig) (now : Int) :
    Except String Store :=
  match s.workflows w with
  | none => .error "violates foreign key constraint on workflow_schedule"
  | some wf =>
    let row := ⟨s.nextSchedule,c.scheduleType,some c.scheduledDate,none,.queued,now⟩
    .ok { s.put w { wf with schedules := wf.schedules ++ [row] } with nextSchedule := s.nextSchedule + 1 }

end Schedule

section Calendar

def buildCalendarConfig (config : Config) : Except String CalendarConfig :=
  wrap "failed to unmarshal calendar config: " do
    let calendarID ← (config.matching "calendarID" config.calendarID).foldlM decodeString none
    let keywords ← (config.matching "keywords" config.keywords).foldlM decodeStrings .none
    let timeCondition ← (config.matching "timeCondition" config.timeCondition).foldlM decodeInt none
    let eventStatus ← (config.matching "eventStatus" config.eventStatus).foldlM decodeText ""
    return ⟨calendarID,keywords.shown,timeCondition,eventStatus⟩

def maxKeywords : Nat := 20
def minTimeMinutes : Int := 1
def maxTimeMinutes : Int := 60 * 24 * 7 * 4

/-- models.EventStatuses. -/
def eventStatuses : List String := ["cancelled","starting","ending"]

def validateCalendarConfig (config : CalendarConfig) : Except String Unit :=
  let timeSpecificStatus :=
    config.eventStatusCondition = "starting" ∨ config.eventStatusCondition = "ending"
  if config.eventStatusCondition ∉ eventStatuses then .error "invalid event status condition"
  else if maxKeywords < config.keywords.length then .error "keywords must be less than 20"
  else
    match config.timeCondition with
    | none =>
      if timeSpecificStatus then .error "time condition is required for time specific events" else .ok ()
    | some minutes =>
      if ¬timeSpecificStatus then .error "time condition should be empty for non-time specific events"
      else if minutes < minTimeMinutes then .error "time_condition must be at least 1 minute"
      else if maxTimeMinutes < minutes then .error "time_condition must be less than 4 weeks"
      else .ok ()

/-- The calendar client of a user needs a stored Google token. -/
def getSyncToken (env : Env) (s : Store) (calendarID : String) (userID : UserID) : Except String String :=
  if s.integrations userID then wrap "failed to get sync token: " (env.syncToken userID calendarID)
  else .error "failed to init calendar client: failed to get oauth integration"

/-- The repository's UpdateWorkflowCalendar: every calendar row of the workflow. -/
def Workflow.updateCalendars (wf : Workflow) (config : CalendarConfig) (syncToken : String)
    (executionState : ExecutionState) (lastSyncedAt : Int) : Workflow :=
  { wf with calendars := wf.calendars.map fun row => { row with
      config, syncToken, executionState, lastSyncedAt } }

/-- The repository's CreateWorkflowCalendar. -/
def Store.createCalendar (s : Store) (w : WorkflowID) (config : CalendarConfig) (syncToken : String)
    (lastSyncedAt : Int) : Except String Store :=
  match s.workflows w with
  | none => .error "violates foreign key constraint on workflow_calendar"
  | some wf =>
    let row := ⟨s.nextCalendar,config,syncToken,.queued,lastSyncedAt⟩
    .ok { s.put w { wf with calendars := wf.calendars ++ [row] } with nextCalendar := s.nextCalendar + 1 }

def primaryCalendarID : String := "primary"

/-- Execute falls back to the primary calendar. -/
def CalendarConfig.withPrimary (c : CalendarConfig) : CalendarConfig :=
  if c.calendarID.getD "" = "" then { c with calendarID := some primaryCalendarID } else c

end Calendar

/-- The registered handlers. -/
inductive TriggerHandler where
  | schedule
  | calendarEvent
  deriving DecidableEq

def handlers : String → Option TriggerHandler
  | "schedule" => some .schedule
  | "calendar_event" => some .calendarEvent
  | _ => none

def TriggerHandler.validate (env : Env) (isFuture : Int → Bool) (config : Config) :
    TriggerHandler → Except String Unit
  | .schedule =>
    match wrap "failed to build schedule config: " (buildScheduleConfig env.parseRFC3339 config) with
    | .error err => .error err
    | .ok c => wrap "invalid schedule type: " (validateSchedule isFuture c.scheduledDate false)
  | .calendarEvent =>
    match wrap "failed to build calendar config: " (buildCalendarConfig config) with
    | .error err => .error err
    | .ok c => wrap "failed to validate calendar config: " (validateCalendarConfig c)

/-- Execute as a statement on the store; `left` numbers the insert. -/
def TriggerHandler.execute (env : Env) (left : Nat) (config : Config) (s : Store) :
    TriggerHandler → Except String Store
  | .schedule => do
    let c ← wrap "failed to build schedule config: " (buildScheduleConfig env.parseRFC3339 config)
    let some (.int32 workflowID) := config.workflowID | .error "workflow id is required"
    if env.answers (.triggerRow left) then
      wrap "failed to schedule workflow: " (s.createSchedule workflowID c env.now)
    else .error "failed to schedule workflow: failed to create workflow schedule"
  | .calendarEvent => do
    let c ← wrap "failed to build calendar config: " (buildCalendarConfig config)
    let some (.int32 workflowID) := config.workflowID | .error "workflow id is required"
    let some (.str userID) := config.userID | .error "user id is required"
    let c := c.withPrimary
    let syncToken ← wrap "failed to create workflow calendar: "
      (getSyncToken env s (c.calendarID.getD primaryCalendarID) userID)
    if env.answers (.triggerRow left) then
      wrap "failed to create workflow calendar: " (s.createCalendar workflowID c syncToken env.now)
    else .error "failed to create workflow calendar: failed to create workflow calendar"

/-- Update does not fall back to the primary calendar: it dereferences the calendar id. -/
def TriggerHandler.update (env : Env) (left : Nat) (config : Config) (s : Store) :
    TriggerHandler → Except String Store
  | .schedule => do
    let c ← wrap "failed to build schedule config: " (buildScheduleConfig env.parseRFC3339 config)
    let some (.int32 workflowID) := config.workflowID | .error "workflow id is required"
    if env.answers (.triggerRow left) then
      return s.amend workflowID fun wf => wf.updateSchedules c.scheduleType (some c.scheduledDate) none env.now
    else .error "failed to update workflow schedule: db error update workflow schedule"
  | .calendarEvent => do
    let c ← wrap "failed to build calendar config: " (buildCalendarConfig config)
    let some (.int32 workflowID) := config.workflowID | .error "workflow id is required"
    let some (.str userID) := config.userID | .error "user id is required"
    let some calendarID := c.calendarID | .error nilDereference
    let syncToken ← wrap "failed to get sync token: " (getSyncToken env s calendarID userID)
    wrap "failed to update workflow calendar: failed to validate calendar config: "
      (validateCalendarConfig c)
    if env.answers (.triggerRow left) then
      return s.amend workflowID fun wf => wf.updateCalendars c syncToken .queued env.now
    else .error "failed to update workflow calendar: failed to update workflow calendar"

namespace TriggerRegistry

def validate (env : Env) (nodeType : String) (config : Config) : Except String Unit :=
  match handlers nodeType with
  | none => .error ("unknown trigger type: " ++ nodeType)
  | some handler => wrap "failed to validate trigger: " (handler.validate env env.isFuture config)

/-- Execute validates once more. -/
def execute (env : Env) (left : Nat) (nodeType : String) (config : Config) (s : Store) :
    Except String Store :=
  match handlers nodeType with
  | none => .error ("unknown trigger type: " ++ nodeType)
  | some handler =>
    match wrap "failed to validate trigger: " (handler.validate env env.stillFuture config) with
    | .error err => .error err
    | .ok () => wrap "failed to execute trigger: " (handler.execute env left config s)

def update (env : Env) (left : Nat) (nodeType : String) (config : Config) (s : Store) :
    Except String Store :=
  match handlers nodeType with
  | none => .error ("unknown trigger type: " ++ nodeType)
  | some handler => wrap "failed to update trigger: " (handler.update env left config s)

end TriggerRegistry

end TinyAutomator.Workflows
