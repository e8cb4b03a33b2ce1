import TinyAutomator.Workflows.Written

/-! What the triggers of a request do to the store: a schedule trigger writes schedule
rows, a calendar trigger calendar rows, and both leave everything else alone. -/
namespace TinyAutomator.Workflows

/-- How Update writes the rows of a workflow. -/
inductive Rewrite (env : Env) (config : Config) : TriggerHandler → (Workflow → Workflow) → Prop where
  | schedule {c : ScheduleTriggerConfig} (built : buildScheduleConfig env.parseRFC3339 config = .ok c) :
      Rewrite env config .schedule fun wf => wf.updateSchedules c.scheduleType (some c.scheduledDate) none env.now
  | calendar {c : CalendarConfig} {syncToken : String} (built : buildCalendarConfig config = .ok c) :
      Rewrite env config .calendarEvent fun wf => wf.updateCalendars c syncToken .queued env.now

/-- How Execute adds a row to a workflow. -/
inductive Insert (env : Env) (config : Config) (s : Store) : TriggerHandler → (Workflow → Workflow) → Prop where
  | schedule {c : ScheduleTriggerConfig} (built : buildScheduleConfig env.parseRFC3339 config = .ok c) :
      Insert env config s .schedule fun wf => { wf with
        schedules := wf.schedules ++
          [⟨s.nextSchedule,c.scheduleType,some c.scheduledDate,none,.queued,env.now⟩] }
  | calendar {c : CalendarConfig} {syncToken : String} (built : buildCalendarConfig config = .ok c) :
      Insert env config s .calendarEvent fun wf => { wf with
        calendars := wf.calendars ++ [⟨s.nextCalendar,c.withPrimary,syncToken,.queued,env.now⟩] }

section Handlers

variable {env : Env} {left : Nat} {config : Config} {s t : Store} {handler : TriggerHandler}
  {nodeType : String} {w x : WorkflowID} {change : Workflow → Workflow} {wf : Workflow}

theorem handler_update_ok (updated : handler.update env left config s = .ok t) :
    ∃ w change, config.workflowID = some (.int32 w) ∧ Rewrite env config handler change ∧
      t = s.amend w change := by
  cases handler with
  | schedule =>
    obtain ⟨c,built,updated⟩ := Fold.bind_ok.mp updated
    have built := wrap_ok.mp built
    split at updated
    next w known =>
      split at updated
      next => cases updated; exact ⟨w,_,known,.schedule built,rfl⟩
      next => contradiction
    next => contradiction
  | calendarEvent =>
    obtain ⟨c,built,updated⟩ := Fold.bind_ok.mp updated
    have built := wrap_ok.mp built
    split at updated
    next w known =>
      split at updated
      next userID user =>
        split at updated
        next calendarID present =>
          obtain ⟨syncToken,_,updated⟩ := Fold.bind_ok.mp updated
          obtain ⟨⟨⟩,_,updated⟩ := Fold.bind_ok.mp updated
          split at updated
          next => cases updated; exact ⟨w,_,known,.calendar built,rfl⟩
          next => contradiction
        next => contradiction
      next => contradiction
    next => contradiction

theorem createSchedule_ok {c : ScheduleTriggerConfig} {now : Int}
    (created : s.createSchedule w c now = .ok t) :
    ∃ wf, s.workflows w = some wf ∧
      t.workflows = (s.put w { wf with schedules := wf.schedules ++
        [⟨s.nextSchedule,c.scheduleType,some c.scheduledDate,none,.queued,now⟩] }).workflows ∧
      t.nextNode = s.nextNode := by
  unfold Store.createSchedule at created
  split at created
  next => contradiction
  next wf stored => cases created; exact ⟨wf,stored,rfl,rfl⟩

theorem createCalendar_ok {c : CalendarConfig} {syncToken : String} {now : Int}
    (created : s.createCalendar w c syncToken now = .ok t) :
    ∃ wf, s.workflows w = some wf ∧
      t.workflows = (s.put w { wf with calendars := wf.calendars ++
        [⟨s.nextCalendar,c,syncToken,.queued,now⟩] }).workflows ∧
      t.nextNode = s.nextNode := by
  unfold Store.createCalendar at created
  split at created
  next => contradiction
  next wf stored => cases created; exact ⟨wf,stored,rfl,rfl⟩

theorem handler_execute_ok (executed : handler.execute env left config s = .ok t) :
    ∃ w wf change, config.workflowID = some (.int32 w) ∧ s.workflows w = some wf ∧
      Insert env config s handler change ∧ t.workflows = (s.put w (change wf)).workflows ∧
      t.nextNode = s.nextNode := by
  cases handler with
  | schedule =>
    obtain ⟨c,built,executed⟩ := Fold.bind_ok.mp executed
    have built := wrap_ok.mp built
    split at executed
    next w known =>
      split at executed
      next =>
        obtain ⟨wf,stored,put⟩ := createSchedule_ok (wrap_ok.mp executed)
        exact ⟨w,wf,_,known,stored,.schedule built,put⟩
      next => contradiction
    next => contradiction
  | calendarEvent =>
    obtain ⟨c,built,executed⟩ := Fold.bind_ok.mp executed
    have built := wrap_ok.mp built
    dsimp only at executed
    split at executed
    next w known =>
      split at executed
      next userID user =>
        obtain ⟨syncToken,_,executed⟩ := Fold.bind_ok.mp executed
        split at executed
        next =>
          obtain ⟨wf,stored,put⟩ := createCalendar_ok (wrap_ok.mp executed)
          exact ⟨w,wf,_,known,stored,.calendar built,put⟩
        next => contradiction
      next => contradiction
    next => contradiction

/-- A trigger that is executed inserts into the workflow it was given. -/
theorem registry_execute_ok {userID : UserID}
    (executed : TriggerRegistry.execute env left nodeType (Config.withIDs config userID w) s = .ok t) :
    ∃ wf handler change, handlers nodeType = some handler ∧ s.workflows w = some wf ∧
      Insert env (Config.withIDs config userID w) s handler change ∧
      t.workflows = (s.put w (change wf)).workflows ∧ t.nextNode = s.nextNode := by
  unfold TriggerRegistry.execute at executed
  split at executed
  next => contradiction
  next handler registered =>
    split at executed
    next => contradiction
    next =>
      obtain ⟨w',wf,change,known,stored,insert,put⟩ := handler_execute_ok (wrap_ok.mp executed)
      cases known
      exact ⟨wf,handler,change,registered,stored,insert,put⟩

end Handlers

section Saves

/-- A workflow without its trigger rows. -/
def Workflow.core (wf : Workflow) : Workflow := { wf with schedules := [], calendars := [] }

theorem core_graph {wf wf' : Workflow} (same : wf'.core = wf.core) : wf'.graph = wf.graph := by
  have graph := congrArg Workflow.graph same
  exact graph

/-- Only trigger rows of one workflow differ. -/
structure Quiet (w : WorkflowID) (s t : Store) : Prop where
  core : ∀ x, (t.workflows x).map Workflow.core = (s.workflows x).map Workflow.core
  other : ∀ x, x ≠ w → t.workflows x = s.workflows x
  nextWorkflow : t.nextWorkflow = s.nextWorkflow
  nextNode : t.nextNode = s.nextNode
  integrations : t.integrations = s.integrations

theorem Quiet.refl (w : WorkflowID) (s : Store) : Quiet w s s :=
  ⟨fun _ => rfl,fun _ _ => rfl,rfl,rfl,rfl⟩

theorem Quiet.trans {w : WorkflowID} {s t u : Store} (first : Quiet w s t) (second : Quiet w t u) :
    Quiet w s u where
  core := fun x => (second.core x).trans (first.core x)
  other := fun x apart => (second.other x apart).trans (first.other x apart)
  nextWorkflow := second.nextWorkflow.trans first.nextWorkflow
  nextNode := second.nextNode.trans first.nextNode
  integrations := second.integrations.trans first.integrations

variable {env : Env} {r : UpdateRequest} {s t : Store} {w : WorkflowID} {config : Config} {left : Nat}
  {handler : TriggerHandler} {change : Workflow → Workflow} {existing nodes : List WorkflowNodeDTO}
  {d : WorkflowNodeDTO} {wf wf' : Workflow}

theorem Rewrite.core (rewrite : Rewrite env config handler change) (wf : Workflow) :
    (change wf).core = wf.core := by
  cases rewrite <;> rfl

theorem Rewrite.quiet (rewrite : Rewrite env config handler change) : Quiet w s (s.amend w change) where
  core := by
    intro x
    by_cases same : x = w
    · subst same
      cases stored : s.workflows x <;> simp [stored,rewrite.core]
    · rw [s.amend_other change same]
  other := fun x apart => s.amend_other change apart
  nextWorkflow := rfl
  nextNode := rfl
  integrations := rfl

/-- The service's keys do not matter to a trigger's configuration. -/
theorem Rewrite.of_withIDs {userID : UserID}
    (rewrite : Rewrite env (Config.withIDs config userID w) handler change) :
    Rewrite env config handler change := by
  cases rewrite with
  | schedule built => exact .schedule built
  | calendar built => exact .calendar built

/-- A trigger that is updated rewrites the rows of the request's workflow. -/
theorem update_ok (updated : TriggerRegistry.update env left d.nodeType
    ((d.withIDs r).config.getD .blank) s = .ok t) :
    ∃ c handler change, d.config = some c ∧ handlers d.nodeType = some handler ∧
      Rewrite env c handler change ∧ t = s.amend r.workflowID change := by
  unfold TriggerRegistry.update at updated
  split at updated
  next => contradiction
  next handler registered =>
    obtain ⟨w,change,known,rewrite,rfl⟩ := handler_update_ok (wrap_ok.mp updated)
    cases given : d.config with
    | none =>
      have missing : (d.withIDs r).config = none := by rw [WorkflowNodeDTO.withIDs,given]; rfl
      rw [missing] at known
      contradiction
    | some c =>
      have sent : (d.withIDs r).config = some (Config.withIDs c r.userID r.workflowID) := by
        rw [WorkflowNodeDTO.withIDs,given]
        rfl
      rw [sent,Option.getD_some] at known rewrite
      cases known
      exact ⟨c,handler,change,rfl,registered,rewrite.of_withIDs,rfl⟩

theorem retrigger_ok (updated : retrigger env r left d s = .ok t) :
    d.category ≠ .trigger ∧ t = s ∨ d.category = .trigger ∧ ∃ c handler change, d.config = some c ∧
      handlers d.nodeType = some handler ∧ Rewrite env c handler change ∧
      t = s.amend r.workflowID change := by
  unfold retrigger at updated
  split at updated
  next trigger => exact .inr ⟨trigger,update_ok updated⟩
  next action => cases updated; exact .inl ⟨action,rfl⟩

/-- A changed trigger of a request, against the graph that was read. -/
structure Edits (existing : List WorkflowNodeDTO) (d : WorkflowNodeDTO) : Prop where
  trigger : d.category = .trigger
  stored : ∃ old, existing.find? (fun old => old.id = d.id) = some old ∧
    old.category = d.category ∧ old.nodeType = d.nodeType ∧ old.config ≠ d.config
  plain : ID.isUUID d.id = false

/-- What every update of a changed trigger respects, the node loop respects. -/
theorem diffNodes_rel (rel : Store → Store → Prop) (reflexive : ∀ s, rel s s)
    (transitive : ∀ s t u, rel s t → rel t u → rel s u)
    (turn : ∀ d ∈ nodes, Edits existing d → ∀ c handler change, d.config = some c →
      handlers d.nodeType = some handler → Rewrite env c handler change →
      ∀ s, rel s (s.amend r.workflowID change))
    (delta : WorkflowDelta) (s : Store) : rel s (diffNodes env r existing nodes delta s).1 := by
  induction nodes generalizing delta s with
  | nil => exact reflexive s
  | cons d rest ih =>
    have ih := ih fun e member => turn e (List.mem_cons_of_mem _ member)
    obtain ⟨t,result,step,loop⟩ := diffNodes_turn env r existing rest d delta s
    have first : rel s t := by
      rcases step.leaves with rfl | ⟨old,stands,differs,updated⟩
      · exact reflexive t
      rcases retrigger_ok updated with ⟨_,rfl⟩ | ⟨trigger,c,handler,change,given,registered,rewrite,rfl⟩
      · exact reflexive t
      · have edits : Edits existing d :=
          ⟨trigger,⟨old,stands.found,stands.category,stands.nodeType,differs⟩,stands.plain⟩
        exact turn d List.mem_cons_self edits c handler change given registered rewrite s
    rw [loop]
    cases result with
    | error err => exact first
    | ok mid => exact transitive _ _ _ first (ih mid t)

theorem planUpdate_rel (rel : Store → Store → Prop) (reflexive : ∀ s, rel s s)
    (transitive : ∀ s t u, rel s t → rel t u → rel s u)
    (turn : ∀ d ∈ r.nodes, ∀ c handler change, d.config = some c → Rewrite env c handler change →
      ∀ s, rel s (s.amend r.workflowID change))
    (s : Store) : rel s (planUpdate env r s).1 := by
  unfold planUpdate
  split
  next => exact reflexive s
  next =>
    split
    next => exact reflexive s
    next existing _ =>
      have diffed : rel s (diffNodes env r existing.nodes r.nodes (.start r existing) s).1 :=
        diffNodes_rel rel reflexive transitive
          (fun d member _ c handler change given _ rewrite => turn d member c handler change given rewrite) _ s
      split
      next step => rw [step] at diffed; exact diffed
      next step => rw [step] at diffed; exact diffed

theorem planUpdate_quiet (env : Env) (r : UpdateRequest) (s : Store) :
    Quiet r.workflowID s (planUpdate env r s).1 :=
  planUpdate_rel (Quiet r.workflowID) (Quiet.refl _) (fun _ _ _ => Quiet.trans)
    (fun _ _ _ _ _ _ rewrite _ => rewrite.quiet) s

theorem Quiet.graph (quiet : Quiet w s t) {x : WorkflowID} (before : s.workflows x = some wf) :
    ∃ wf', t.workflows x = some wf' ∧ wf'.graph = wf.graph ∧ wf'.status = wf.status ∧
      wf'.userID = wf.userID := by
  have core := quiet.core x
  rw [before] at core
  obtain ⟨wf',after,same⟩ := Option.map_eq_some_iff.mp core
  simp only [Workflow.core,Workflow.mk.injEq] at same
  exact ⟨wf',after,same.2.2.2.2.1,same.2.2.2.1,same.1⟩

end Saves

end TinyAutomator.Workflows
