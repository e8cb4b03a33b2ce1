import TinyAutomator.Workflows.Polls

/-! Whether silenced workflows stay silent. Archiving leaves the trigger rows as they are
and the polls ask about rows only, so everything hangs on queued rows. -/
namespace TinyAutomator.Workflows

open Transition

/-- No poll that starts after a workflow has been silenced orchestrates it. -/
def Silent (s : Polls) : Prop := ∀ firing ∈ s.log, firing.late = false

/-- Nothing that a poll could claim. -/
structure Workflow.Resting (wf : Workflow) : Prop where
  schedules : ∀ row ∈ wf.schedules, row.executionState ≠ .queued
  calendars : ∀ row ∈ wf.calendars, row.executionState ≠ .queued

def Store.Resting (s : Store) (w : WorkflowID) : Prop := ∃ wf, s.workflows w = some wf ∧ wf.Resting

/-- A request changes the config of a stored trigger of one type. -/
def Retriggers (g : Graph) (r : UpdateRequest) (handler : TriggerHandler) : Prop :=
  ∃ d ∈ r.nodes, changed g d = true ∧ d.category = .trigger ∧ handlers d.nodeType = some handler

/-- What UpdateWorkflow must not do to a silenced workflow: write to rows that it has. -/
def Spares (wf : Workflow) (r : UpdateRequest) : Prop :=
  (Retriggers wf.graph r .schedule → wf.schedules = []) ∧
  (Retriggers wf.graph r .calendarEvent → wf.calendars = [])

/-- The database answers all statements of ArchiveWorkflow. -/
def Archived (env : Env) (w : WorkflowID) (wf : Workflow) : Prop :=
  env.answers .workflow = true ∧
    (wf.status = .archived ∨ env.answers (.status w) = true ∧ env.answers .graph = true)

/-- A workflow has no queued rows when it is silenced, and nothing queues them again: no
goroutine of a repeating schedule, no calendar check and no save. -/
def Muted (s : Polls) : PollLabel → Prop
  | .archive env w => ∀ wf, s.store.workflows w = some wf → Archived env w wf → wf.Resting
  | .deleteUserData env userID => env.answers .workflow = true → env.answers .integrations = true →
      ∀ w ∈ getUserWorkflows userID s.store, s.store.Resting w
  | .update _ r => r.workflowID ∈ s.silenced → ∀ wf, s.store.workflows r.workflowID = some wf → Spares wf r
  | .reschedule i _ _ => ∀ job, s.jobs[i]? = some job → job.workflowID ∈ s.silenced →
      job.row.scheduleType = .once
  | .sync i _ _ => ∀ check, s.checks[i]? = some check → check.workflowID ∉ s.silenced
  | .create .. | .connect _ | .pollSchedules .. | .runSchedule .. | .dropJob _ | .pollCalendars _
  | .openCalendar _ | .runCalendar .. | .dropCheck _ => True

section Calls

variable {env : Env} {s t : Store} {w x : WorkflowID} {wf : Workflow} {r : UpdateRequest}
  {userID : UserID} {nodes : List WorkflowNode}

def Workflow.triggers (wf : Workflow) : List ScheduleRow × List CalendarRow := (wf.schedules,wf.calendars)

theorem Store.Resting.of_triggers (resting : s.Resting w)
    (same : (t.workflows w).map Workflow.triggers = (s.workflows w).map Workflow.triggers) : t.Resting w := by
  obtain ⟨wf,stored,rest⟩ := resting
  rw [stored] at same
  obtain ⟨wf',after,rows⟩ := Option.map_eq_some_iff.mp same
  obtain ⟨schedules,calendars⟩ := Prod.mk.injEq .. ▸ rows
  exact ⟨wf',after,schedules ▸ rest.schedules,calendars ▸ rest.calendars⟩

theorem executeTriggers_frame (other : x ≠ w) :
    (executeTriggers env userID w nodes s).1.workflows x = s.workflows x := by
  induction nodes generalizing s with
  | nil => rfl
  | cons n rest ih =>
    unfold executeTriggers
    split
    next =>
      split
      next => rfl
      next t executed =>
        obtain ⟨wf,handler,change,_,_,_,put,_⟩ := registry_execute_ok executed
        rw [ih,put,Store.put_other s _ other]
    next => exact ih

/-- CreateWorkflow leaves every stored workflow alone, whether or not it succeeds. -/
theorem createWorkflow_frame {name description status : String} {dtos : List WorkflowNodeDTO}
    {edges : List WorkflowEdgeDTO} (stored : s.workflows x = some wf) :
    (createWorkflow env userID name description status dtos edges s).1.workflows x = some wf := by
  rcases createWorkflow_store env userID name description status dtos edges s with
    same | ⟨u,g,triggers,rows,same⟩
  · rw [same]
    exact stored
  · obtain ⟨free,frame,_⟩ := insertWorkflow_ok rows
    have other : x ≠ s.nextWorkflow := by
      rintro rfl
      rw [stored] at free
      contradiction
    rw [same]
    exact (executeTriggers_frame other).trans ((frame x other).trans stored)

/-- A changed trigger among the edits of the node loop. -/
theorem Edits.retriggers {d : WorkflowNodeDTO} {handler : TriggerHandler}
    (edits : Edits (wf.graph.nodes.map NodeRow.dto) d) (member : d ∈ r.nodes)
    (registered : handlers d.nodeType = some handler) : Retriggers wf.graph r handler := by
  refine ⟨d,member,?_,edits.trigger,registered⟩
  obtain ⟨old,found,_,_,differs⟩ := edits.stored
  rw [find_dto] at found
  obtain ⟨row,stored,rfl⟩ := Option.map_eq_some_iff.mp found
  have config : some row.config ≠ d.config := differs
  simp [changed,stored,config]

theorem Rewrite.triggers {config : Config} {handler : TriggerHandler} {change : Workflow → Workflow}
    {wf' : Workflow} (rewrite : Rewrite env config handler change) (spares : Spares wf r)
    (retriggers : Retriggers wf.graph r handler) (same : wf'.triggers = wf.triggers) :
    (change wf').triggers = wf.triggers := by
  obtain ⟨schedules,calendars⟩ := Prod.mk.injEq .. ▸ same
  cases rewrite with
  | schedule built =>
    have none_ := spares.1 retriggers
    simp [Workflow.triggers,Workflow.updateSchedules,schedules,calendars,none_]
  | calendar built =>
    have none_ := spares.2 retriggers
    simp [Workflow.triggers,Workflow.updateCalendars,schedules,calendars,none_]

theorem diffNodes_triggers (env : Env) (spares : Spares wf r) (delta : WorkflowDelta)
    (stored : s.workflows r.workflowID = some wf) :
    ((diffNodes env r (wf.graph.nodes.map NodeRow.dto) r.nodes delta s).1.workflows r.workflowID).map
      Workflow.triggers = some wf.triggers := by
  refine diffNodes_rel (fun s t => (s.workflows r.workflowID).map Workflow.triggers = some wf.triggers →
    (t.workflows r.workflowID).map Workflow.triggers = some wf.triggers) (fun _ => id)
    (fun _ _ _ first second => second ∘ first) ?_ delta s ?_
  · intro d member edits c handler change _ registered rewrite u same
    obtain ⟨wf',current,same⟩ := Option.map_eq_some_iff.mp same
    rw [Store.amend_self,current]
    exact congrArg some (rewrite.triggers spares (edits.retriggers member registered) same)
  · rw [stored]
    rfl

theorem planUpdate_triggers (env : Env) (stored : s.workflows r.workflowID = some wf) (spares : Spares wf r) :
    ((planUpdate env r s).1.workflows r.workflowID).map Workflow.triggers = some wf.triggers := by
  have here : (s.workflows r.workflowID).map Workflow.triggers = some wf.triggers := by rw [stored]; rfl
  unfold planUpdate
  split
  next => exact here
  next =>
    split
    next => exact here
    next existing rendered =>
      obtain ⟨wf',stored',rfl⟩ := render_ok (wrap_ok.mp rendered)
      obtain rfl := Option.some.inj (stored.symm.trans stored')
      dsimp only
      have kept := diffNodes_triggers env spares (.start r
        ⟨wf.name,wf.description,wf.graph.nodes.map NodeRow.dto,wf.graph.edges.map edgeDTO⟩) stored
      split
      next step => rw [step] at kept; exact kept
      next step => rw [step] at kept; exact kept

theorem writeUpdate_triggers (env : Env) (r : UpdateRequest) (plan : Plan) (u : Store) (w : WorkflowID) :
    ((writeUpdate env r plan u).1.workflows w).map Workflow.triggers =
      (u.workflows w).map Workflow.triggers := by
  rcases writeUpdate_cases env r plan u with ⟨err,failed⟩ | ⟨v,result,patches,written⟩
  · rw [failed]
  · rw [written]
    by_cases same : w = r.workflowID
    · subst same
      cases current : u.workflows r.workflowID with
      | none => rw [patches.none current]
      | some wf =>
        obtain ⟨_,wf',_,after,_,schedules,calendars,_⟩ := patches.rows current
        rw [after]
        exact congrArg some (Prod.ext schedules calendars)
    · exact congrArg _ (patches.other same)

theorem updateWorkflow_triggers (env : Env) (stored : s.workflows r.workflowID = some wf) (spares : Spares wf r) :
    ((updateWorkflow env r s).1.workflows r.workflowID).map Workflow.triggers = some wf.triggers := by
  have planned := planUpdate_triggers env stored spares
  unfold updateWorkflow
  split
  next step => rw [step] at planned; exact planned
  next step =>
    rw [step] at planned
    exact (writeUpdate_triggers ..).trans planned

theorem archiveTriggers_resting (resting : s.Resting x) : (archiveTriggers env w nodes s).Resting x := by
  induction nodes generalizing s with
  | nil => exact resting
  | cons n rest ih =>
    unfold archiveTriggers
    split
    next =>
      refine ih ?_
      by_cases same : x = w
      · subst same
        obtain ⟨wf,stored,rest⟩ := resting
        refine ⟨{ wf with schedules := [] },?_,⟨by simp,rest.calendars⟩⟩
        rw [Store.amend_self,stored]
        rfl
      · exact resting.of_triggers (congrArg _ (Store.amend_other s _ same))
    next => exact ih resting

theorem archive_triggers (s : Store) (w x : WorkflowID) (now : Int) :
    ((s.archive w now).workflows x).map Workflow.triggers = (s.workflows x).map Workflow.triggers := by
  by_cases same : x = w
  · subst same
    rw [Store.archive,Store.amend_self,Option.map_map]
    rfl
  · exact congrArg _ (Store.amend_other s _ same)

theorem archiveWorkflow_resting (env : Env) (w : WorkflowID) (resting : s.Resting x) :
    (archiveWorkflow env w s).1.Resting x := by
  have archived : (s.archive w env.now).Resting x := resting.of_triggers (archive_triggers ..)
  unfold archiveWorkflow
  split
  next => exact resting
  next =>
    split
    next => exact resting
    next =>
      split
      next => exact resting
      next =>
        dsimp only
        split
        next => exact archived
        next => exact archiveTriggers_resting archived

/-- A nil reply means that the database has answered. -/
theorem archiveWorkflow_archived (archived : archiveWorkflow env w s = (t,.ok ())) :
    ∃ wf, s.workflows w = some wf ∧ Archived env w wf := by
  unfold archiveWorkflow at archived
  split at archived
  next => simp at archived
  next wf found =>
    split at found
    next answers =>
      refine ⟨wf,found,answers,?_⟩
      split at archived
      next already => exact .inl already
      next =>
        split at archived
        next => simp at archived
        next status =>
          refine .inr ⟨not_not.mp status,?_⟩
          dsimp only at archived
          split at archived
          next => simp at archived
          next graph fetched =>
            have fetched := wrap_ok.mp fetched
            unfold getWorkflowGraph at fetched
            split at fetched
            next => contradiction
            next =>
              split at fetched
              next => contradiction
              next answered => exact not_not.mp answered
    next => contradiction

theorem archiveAll_triggers (env : Env) (ws : List WorkflowID) (s : Store) (x : WorkflowID) :
    ((archiveAll env ws s).1.workflows x).map Workflow.triggers = (s.workflows x).map Workflow.triggers := by
  induction ws generalizing s with
  | nil => rfl
  | cons w rest ih =>
    unfold archiveAll
    split
    next => exact (ih _).trans (archive_triggers ..)
    next => rfl

theorem deleteUserData_triggers (env : Env) (userID : UserID) (s : Store) (x : WorkflowID) :
    ((deleteUserData env userID s).1.workflows x).map Workflow.triggers =
      (s.workflows x).map Workflow.triggers := by
  have all := archiveAll_triggers env (getUserWorkflows userID s) s x
  unfold deleteUserData
  split
  next => rfl
  next =>
    split
    next step => rw [step] at all; exact all
    next step =>
      rw [step] at all
      split
      next => exact all
      next => exact all

theorem deleteUserData_answers (deleted : deleteUserData env userID s = (t,.ok ())) :
    env.answers .workflow = true ∧ env.answers .integrations = true := by
  unfold deleteUserData at deleted
  split at deleted
  next => simp at deleted
  next answers =>
    refine ⟨not_not.mp answers,?_⟩
    split at deleted
    next => simp at deleted
    next =>
      split at deleted
      next deletes => exact deletes
      next => simp at deleted

end Calls

section Polling

variable {ρ : Type} {s : Polls} {rows : Workflow → List ρ} {wanted : Nat → ρ → Bool} {running : ρ → ρ}
  {keys : List (WorkflowID × Nat)}

/-- A poll claims nothing of a resting workflow. -/
theorem claims_punctual (resting : ∀ w ∈ s.silenced, ∀ wf, s.store.workflows w = some wf →
    ∀ row ∈ rows wf, ∀ id, wanted id row = false) :
    ∀ job ∈ keys.filterMap (s.claim rows wanted running), job.late = false := by
  intro job member
  obtain ⟨key,_,claimed⟩ := List.mem_filterMap.mp member
  obtain ⟨wf,row,stored,within,wants,rfl⟩ := claim_some claimed
  refine decide_eq_false fun silenced => ?_
  rw [resting key.1 silenced wf stored row within key.2] at wants
  contradiction

end Polling

section Invariant

/-- Silenced workflows rest, and nothing claimed is late. -/
structure Hushed (s : Polls) : Prop where
  resting : ∀ w ∈ s.silenced, s.store.Resting w
  jobs : ∀ job ∈ s.jobs, job.late = false
  checks : ∀ check ∈ s.checks, check.late = false
  log : Silent s

variable {s t : Polls} {store : Store} {w : WorkflowID} {keys : List (WorkflowID × Nat)} {label : PollLabel}

theorem Hushed.onStore (hushed : Hushed s) (resting : ∀ w ∈ s.silenced, store.Resting w) :
    Hushed { s with store } :=
  ⟨resting,hushed.jobs,hushed.checks,hushed.log⟩

theorem Hushed.reply {ws : List WorkflowID} {reply : Reply Unit} (hushed : Hushed s)
    (kept : ∀ w, s.store.Resting w → reply.1.Resting w)
    (silenced : reply.2 = .ok () → ∀ w ∈ ws, s.store.Resting w) : Hushed (s.reply ws reply) := by
  obtain ⟨t,result⟩ := reply
  cases result with
  | error err => exact hushed.onStore fun w member => kept w (hushed.resting w member)
  | ok =>
    refine ⟨fun w member => ?_,hushed.jobs,hushed.checks,hushed.log⟩
    rcases List.mem_append.mp member with new | old
    · exact kept w (silenced rfl w new)
    · exact kept w (hushed.resting w old)

theorem Hushed.claimsSchedules (hushed : Hushed s) (now : Int) :
    ∀ job ∈ keys.filterMap (s.claimSchedule now), job.late = false := by
  refine claims_punctual fun w silenced wf stored row within id => ?_
  obtain ⟨wf',stored',rest⟩ := hushed.resting w silenced
  obtain rfl := Option.some.inj (stored.symm.trans stored')
  simp [ScheduleRow.due,rest.schedules row within]

theorem Hushed.claimsCalendars (hushed : Hushed s) :
    ∀ check ∈ keys.filterMap s.claimCalendar, check.late = false := by
  refine claims_punctual fun w silenced wf stored row within id => ?_
  obtain ⟨wf',stored',rest⟩ := hushed.resting w silenced
  obtain rfl := Option.some.inj (stored.symm.trans stored')
  simp [CalendarRow.active,rest.calendars row within]

theorem Store.Resting.eachWorkflow {change : WorkflowID → Workflow → Workflow} (resting : store.Resting w)
    (kept : ∀ wf, wf.Resting → (change w wf).Resting) : (store.eachWorkflow change).Resting w := by
  obtain ⟨wf,stored,rest⟩ := resting
  exact ⟨change w wf,congrArg (Option.map (change w)) stored,kept wf rest⟩

/-- A query only ever takes rows out of the queue. -/
theorem Store.Resting.runSchedules (resting : store.Resting w) : (store.runSchedules keys).Resting w := by
  refine resting.eachWorkflow fun wf rest => ⟨fun row member => ?_,rest.calendars⟩
  obtain ⟨old,within,rfl⟩ := List.mem_map.mp member
  split
  · simp [ScheduleRow.running]
  · exact rest.schedules old within

theorem Store.Resting.runCalendars (resting : store.Resting w) : (store.runCalendars keys).Resting w := by
  refine resting.eachWorkflow fun wf rest => ⟨rest.schedules,fun row member => ?_⟩
  obtain ⟨old,within,rfl⟩ := List.mem_map.mp member
  split
  · simp [CalendarRow.running]
  · exact rest.calendars old within

/-- Rewriting the rows of one workflow is harmless if it does not queue them. -/
theorem Store.Resting.amend {x : WorkflowID} {change : Workflow → Workflow} (resting : store.Resting w)
    (kept : w = x → ∀ wf, wf.Resting → (change wf).Resting) : (store.amend x change).Resting w := by
  obtain ⟨wf,stored,rest⟩ := resting
  by_cases same : w = x
  · subst same
    exact ⟨change wf,by rw [Store.amend_self,stored]; rfl,kept rfl wf rest⟩
  · exact ⟨wf,(Store.amend_other store change same).trans stored,rest⟩

theorem Hushed.step (hushed : Hushed s) (muted : Muted s label) (step : pollStep label s = some t) :
    Hushed t := by
  cases label with
  | create env userID name description status nodes edges =>
    cases step
    refine hushed.onStore fun w member => ?_
    obtain ⟨wf,stored,rest⟩ := hushed.resting w member
    exact ⟨wf,createWorkflow_frame stored,rest⟩
  | update env r =>
    cases step
    refine hushed.onStore fun w member => ?_
    have resting := hushed.resting w member
    by_cases same : w = r.workflowID
    · subst same
      obtain ⟨wf,stored,_⟩ := hushed.resting r.workflowID member
      refine resting.of_triggers ?_
      rw [updateWorkflow_triggers env stored (muted member wf stored),stored]
      rfl
    · exact resting.of_triggers (congrArg _ (updateWorkflow_frame env r s.store same))
  | archive env w =>
    cases step
    refine hushed.reply (fun x => archiveWorkflow_resting env w) ?_
    intro ok x member
    obtain rfl := List.mem_singleton.mp member
    obtain ⟨wf,stored,archived⟩ := archiveWorkflow_archived (Prod.ext rfl ok)
    exact ⟨wf,stored,muted wf stored archived⟩
  | deleteUserData env userID =>
    cases step
    refine hushed.reply (fun x resting => resting.of_triggers (deleteUserData_triggers env userID _ x)) ?_
    intro ok
    obtain ⟨workflows,integrations⟩ := deleteUserData_answers (Prod.ext rfl ok)
    exact muted workflows integrations
  | connect userID =>
    cases step
    exact hushed.onStore hushed.resting
  | pollSchedules now keys =>
    obtain ⟨_,rfl⟩ := pollSchedules_some step
    refine ⟨fun w member => (hushed.resting w member).runSchedules,?_,hushed.checks,hushed.log⟩
    intro job member
    rcases List.mem_append.mp member with old | new
    · exact hushed.jobs job old
    · exact hushed.claimsSchedules now job new
  | runSchedule i env =>
    obtain ⟨job,at_,_,rfl⟩ := runSchedule_some step
    have punctual := hushed.jobs job (List.mem_of_getElem? at_)
    exact ⟨hushed.resting,Pool.forall_set hushed.jobs punctual,hushed.checks,
      Pool.forall_append hushed.log punctual⟩
  | reschedule i date now =>
    obtain ⟨job,at_,_,rfl⟩ := reschedule_some step
    have punctual := hushed.jobs job (List.mem_of_getElem? at_)
    refine ⟨fun w member => (hushed.resting w member).amend ?_,Pool.forall_set hushed.jobs punctual,
      hushed.checks,hushed.log⟩
    rintro rfl wf rest
    have once := muted job at_ member
    refine ⟨fun row within => ?_,rest.calendars⟩
    obtain ⟨old,_,rfl⟩ := List.mem_map.mp within
    simp [calculateNextRun,once]
  | dropJob i =>
    cases step
    exact ⟨hushed.resting,fun job member => hushed.jobs job (List.mem_of_mem_eraseIdx member),
      hushed.checks,hushed.log⟩
  | pollCalendars keys =>
    obtain ⟨_,rfl⟩ := pollCalendars_some step
    refine ⟨fun w member => (hushed.resting w member).runCalendars,hushed.jobs,?_,hushed.log⟩
    intro check member
    rcases List.mem_append.mp member with old | new
    · exact hushed.checks check old
    · exact hushed.claimsCalendars check new
  | openCalendar i =>
    obtain ⟨check,at_,_,rfl⟩ := openCalendar_some step
    have punctual := hushed.checks check (List.mem_of_getElem? at_)
    exact ⟨hushed.resting,hushed.jobs,Pool.forall_set hushed.checks punctual,hushed.log⟩
  | runCalendar i env =>
    obtain ⟨check,progress,at_,_,rfl⟩ := runCalendar_some step
    have punctual := hushed.checks check (List.mem_of_getElem? at_)
    exact ⟨hushed.resting,hushed.jobs,Pool.forall_set hushed.checks punctual,
      Pool.forall_append hushed.log punctual⟩
  | sync i syncToken now =>
    obtain ⟨check,at_,rfl⟩ := sync_some step
    have punctual := hushed.checks check (List.mem_of_getElem? at_)
    refine ⟨fun w member => (hushed.resting w member).amend ?_,hushed.jobs,
      Pool.forall_set hushed.checks punctual,hushed.log⟩
    rintro rfl
    exact absurd member (muted check at_)
  | dropCheck i =>
    cases step
    exact ⟨hushed.resting,hushed.jobs,
      fun check member => hushed.checks check (List.mem_of_mem_eraseIdx member),hushed.log⟩

/-- In every run in which silenced workflows have nothing queued, they stay silent. -/
theorem silenced_silent (integrations : UserID → Bool) (reach : Reach (scheduler integrations) Muted s) :
    Silent s := by
  have hushed : Hushed s := by
    refine reach.invariant Hushed ?_ ?_
    · exact ⟨by simp [scheduler],by simp [scheduler],by simp [scheduler],by simp [scheduler,Silent]⟩
    · intro s label t _ hushed muted step
      exact hushed.step muted step
  exact hushed.log

end Invariant

section Necessity

variable {integrations : UserID → Bool} {s : Polls} {w : WorkflowID} {wf : Workflow}

/-- A query that finds a row of a silenced workflow hands it out late. -/
theorem claim_late {ρ : Type} {rows : Workflow → List ρ} {wanted : Nat → ρ → Bool} {running : ρ → ρ}
    {row : ρ} {id : Nat} (silenced : w ∈ s.silenced) (stored : s.store.workflows w = some wf)
    (member : row ∈ rows wf) (wants : wanted id row = true) :
    ∃ found ∈ rows wf, wanted id found = true ∧
      s.claim rows wanted running (w,id) = some ⟨w,wf.userID,running found,true,.claimed⟩ := by
  obtain ⟨found,is⟩ := Option.isSome_iff_exists.mp (List.find?_isSome.mpr ⟨row,member,wants⟩)
  refine ⟨found,List.mem_of_find?_eq_some is,List.find?_some is,?_⟩
  simp [Polls.claim,stored,is,silenced]

theorem returned_single {ρ : Type} {claim : WorkflowID × Nat → Option (Claimed ρ)} {key : WorkflowID × Nat}
    {job : Claimed ρ} (claimed : claim key = some job) : Returned claim [key] :=
  ⟨List.nodup_singleton key,by simp [limit],by simp [claimed]⟩

/-- A queued schedule of a silenced workflow fires once it is due. -/
theorem queued_schedule_fires {row : ScheduleRow} {date : Int} (silenced : w ∈ s.silenced)
    (stored : s.store.workflows w = some wf) (member : row ∈ wf.schedules)
    (queued : row.executionState = .queued) (scheduled : row.nextRunAt = some date) :
    ∃ t, Path (scheduler integrations) (fun _ _ => True) s t ∧ ¬Silent t := by
  have due : (decide (row.id = row.id) && row.due date) = true := by
    simp [ScheduleRow.due,queued,scheduled]
  have late : ∃ found ∈ wf.schedules, _ ∧ s.claimSchedule date (w,row.id) =
    some ⟨w,wf.userID,found.running,true,.claimed⟩ := claim_late silenced stored member due
  obtain ⟨found,_,_,claimed⟩ := late
  have poll : (scheduler integrations).step (.pollSchedules date [(w,row.id)]) s = some { s with
      store := s.store.runSchedules [(w,row.id)]
      jobs := s.jobs ++ [⟨w,wf.userID,found.running,true,.claimed⟩] } := by
    simp [scheduler,pollStep,returned_single claimed,claimed]
  have run : ∀ u : Polls, u.jobs = s.jobs ++ [⟨w,wf.userID,found.running,true,.claimed⟩] →
      ∃ t, (scheduler integrations).step (.runSchedule s.jobs.length .calm) u = some t ∧ ¬Silent t := by
    intro u jobs
    have running : validateSchedule Env.calm.isFuture (found.running.nextRunAt.getD 0)
        (found.running.executionState = .running) = .ok () := by
      simp [validateSchedule,ScheduleRow.running]
    refine ⟨_,by simp only [scheduler,pollStep,jobs,List.getElem?_concat_length,running]; rfl,?_⟩
    intro silent
    have punctual := silent _ (List.mem_append_right _ (List.mem_singleton_self _))
    contradiction
  obtain ⟨t,fires,loud⟩ := run { s with
    store := s.store.runSchedules [(w,row.id)]
    jobs := s.jobs ++ [⟨w,wf.userID,found.running,true,.claimed⟩] } rfl
  exact ⟨t,(Path.single trivial poll).tail trivial fires,loud⟩

/-- A queued calendar row of a silenced workflow orchestrates once its owner has a token. -/
theorem queued_calendar_fires {row : CalendarRow} (silenced : w ∈ s.silenced)
    (stored : s.store.workflows w = some wf) (member : row ∈ wf.calendars)
    (queued : row.executionState = .queued)
    (valid : ∀ row ∈ wf.calendars, validateCalendarConfig row.config = .ok ()) :
    ∃ t, Path (scheduler integrations) (fun _ _ => True) s t ∧ ¬Silent t := by
  have active : (decide (row.id = row.id) && row.active) = true := by
    simp [CalendarRow.active,queued]
  have connect : ∃ u : Polls, (scheduler integrations).step (.connect wf.userID) s = some u ∧
      u.checks = s.checks ∧ u.silenced = s.silenced ∧ u.store.workflows = s.store.workflows ∧
      u.store.integrations wf.userID = true :=
    ⟨_,rfl,rfl,rfl,rfl,if_pos rfl⟩
  obtain ⟨u,connects,checks,same,workflows,token⟩ := connect
  have late : ∃ found ∈ wf.calendars, _ ∧ u.claimCalendar (w,row.id) =
    some ⟨w,wf.userID,found.running,true,.claimed⟩ :=
      claim_late (same ▸ silenced) (workflows ▸ stored) member active
  obtain ⟨found,within,_,claimed⟩ := late
  have poll : (scheduler integrations).step (.pollCalendars [(w,row.id)]) u = some { u with
      store := u.store.runCalendars [(w,row.id)]
      checks := u.checks ++ [⟨w,wf.userID,found.running,true,.claimed⟩] } := by
    simp [scheduler,pollStep,returned_single claimed,claimed]
  have checked : validateCalendarConfig found.running.config = .ok () := valid found within
  have open_ : (scheduler integrations).step (.openCalendar u.checks.length) { u with
      store := u.store.runCalendars [(w,row.id)]
      checks := u.checks ++ [⟨w,wf.userID,found.running,true,.claimed⟩] } = some { u with
      store := u.store.runCalendars [(w,row.id)]
      checks := u.checks ++ [⟨w,wf.userID,found.running,true,.opened⟩] } := by
    have token' : (u.store.runCalendars [(w,row.id)]).integrations wf.userID = true := token
    simp [scheduler,pollStep,checked,token']
  have run : ∀ v : Polls, v.checks = u.checks ++ [⟨w,wf.userID,found.running,true,.opened⟩] →
      ∃ t, (scheduler integrations).step (.runCalendar u.checks.length .calm) v = some t ∧ ¬Silent t := by
    intro v checks
    refine ⟨_,by simp only [scheduler,pollStep,checks,List.getElem?_concat_length]; rfl,?_⟩
    intro silent
    have punctual := silent _ (List.mem_append_right _ (List.mem_singleton_self _))
    contradiction
  obtain ⟨t,fires,loud⟩ := run { u with
    store := u.store.runCalendars [(w,row.id)]
    checks := u.checks ++ [⟨w,wf.userID,found.running,true,.opened⟩] } rfl
  exact ⟨t,(((Path.single trivial connects).tail trivial poll).tail trivial open_).tail trivial fires,loud⟩

end Necessity

section Runs

instance (wf : Workflow) : Decidable wf.Resting :=
  decidable_of_iff ((∀ row ∈ wf.schedules, row.executionState ≠ .queued) ∧
    ∀ row ∈ wf.calendars, row.executionState ≠ .queued) ⟨fun h => ⟨h.1,h.2⟩,fun h => ⟨h.1,h.2⟩⟩

instance (s : Store) (w : WorkflowID) : Decidable (s.Resting w) :=
  inferInstanceAs (Decidable (∃ wf ∈ s.workflows w, wf.Resting))

instance (g : Graph) (r : UpdateRequest) (handler : TriggerHandler) : Decidable (Retriggers g r handler) :=
  inferInstanceAs (Decidable (∃ d ∈ r.nodes, _ ∧ _ ∧ _))

instance (wf : Workflow) (r : UpdateRequest) : Decidable (Spares wf r) :=
  inferInstanceAs (Decidable ((_ → _) ∧ (_ → _)))

instance (env : Env) (w : WorkflowID) (wf : Workflow) : Decidable (Archived env w wf) :=
  inferInstanceAs (Decidable (_ ∧ (_ ∨ _ ∧ _)))

instance (s : Polls) : (label : PollLabel) → Decidable (Muted s label)
  | .archive _ w => inferInstanceAs (Decidable (∀ wf ∈ s.store.workflows w, Archived _ w wf → wf.Resting))
  | .deleteUserData _ _ => inferInstanceAs (Decidable (_ → _ → ∀ w ∈ _, s.store.Resting w))
  | .update _ r => inferInstanceAs (Decidable (_ → ∀ wf ∈ s.store.workflows r.workflowID, Spares wf r))
  | .reschedule i _ _ => inferInstanceAs (Decidable (∀ job ∈ s.jobs[i]?, job.workflowID ∈ s.silenced →
      job.row.scheduleType = .once))
  | .sync i _ _ => inferInstanceAs (Decidable (∀ check ∈ s.checks[i]?, check.workflowID ∉ s.silenced))
  | .create .. | .connect _ | .pollSchedules .. | .runSchedule .. | .dropJob _ | .pollCalendars _
  | .openCalendar _ | .runCalendar .. | .dropCheck _ => isTrue trivial

/-- The creation of a mail with a schedule. -/
def planMail (scheduleType : String) : PollLabel := .create .dated "alice" "reminder" "a mail" "active"
  [trigger (.uuid "t") scheduleType,mail (.uuid "m")] [⟨"",.uuid "t",.uuid "m"⟩]

/-- A mail that has been sent once is archived afterwards. -/
theorem once_silent : ∃ s, Reach (scheduler fun _ => false) Muted s ∧
    (s.silenced = [1] ∧ s.log.length = 1) ∧ Silent s := by
  have run : ∃ s, Reach (scheduler fun _ => false) Muted s ∧ (s.silenced = [1] ∧ s.log.length = 1) :=
    follow_exists [planMail "once",.pollSchedules 1893456000000 [(1,1)],.runSchedule 0 .dated,
      .reschedule 0 0 1893456000000,.archive .dated 1] (by decide +kernel)
  obtain ⟨s,reach,shape⟩ := run
  exact ⟨s,reach,shape,silenced_silent _ reach⟩

/-- A daily mail is sent after its workflow has been archived. -/
theorem daily_loud : ¬∀ integrations s, Reach (scheduler integrations) (fun _ _ => True) s → Silent s := by
  intro silent
  have run : ∃ s, Reach (scheduler fun _ => false) (fun _ _ => True) s ∧
      (s.silenced = [1] ∧ s.log.any (fun firing => firing.late && decide (firing.outcome = .ok ())) = true) :=
    follow_exists [planMail "daily",.archive .dated 1,.pollSchedules 1893456000000 [(1,1)],
      .runSchedule 0 .dated] (by decide +kernel)
  obtain ⟨s,reach,_,fired⟩ := run
  obtain ⟨firing,member,late⟩ := List.any_eq_true.mp fired
  rw [silent _ s reach firing member] at late
  contradiction

end Runs

end TinyAutomator.Workflows
