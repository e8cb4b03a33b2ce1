import TinyAutomator.Workflows.Deltas
import TinyAutomator.Workflows.Rows

/-! What a save has to find for its loop over the nodes and its transaction to go through. -/
namespace TinyAutomator.Workflows

/-- A calendar trigger can be updated if it names a calendar and its user has a token. -/
def Accepts (s : Store) (r : UpdateRequest) (d : WorkflowNodeDTO) : Prop :=
  handlers d.nodeType = some .calendarEvent → s.integrations r.userID = true ∧
    (d.config.bind fun c => (buildCalendarConfig c).toOption.bind (·.calendarID)).isSome

/-- A requested node names a stored one of its kind. -/
def Matches (g : Graph) (d : WorkflowNodeDTO) : Prop :=
  ∃ row, rowOf g d.id = some row ∧ row.category = d.category ∧ row.nodeType = d.nodeType

/-- The loop can get past a node. -/
def Passes (s : Store) (r : UpdateRequest) (g : Graph) (d : WorkflowNodeDTO) : Prop :=
  ID.isUUID d.id = true ∨ Matches g d ∧ d.position.isSome ∧
    (changed g d = true → d.category = .trigger → Accepts s r d)

/-- The sequence of a SERIAL id is past the stored nodes of a workflow. -/
def Sequenced (s : Store) (w : WorkflowID) : Prop :=
  ∀ wf, s.workflows w = some wf → ∀ n ∈ wf.graph.ids, n < s.nextNode

/-- Nothing but the run history can stand in the way of a save. -/
structure Saveable (parse : String → Option Int) (s : Store) (r : UpdateRequest) (g : Graph) : Prop where
  valid : ∃ env, env.parseRFC3339 = parse ∧ validateRequest env r.nodes r.edges = .ok ()
  passes : ∀ d ∈ r.nodes, Passes s r g d
  storable : ∀ d ∈ r.nodes, ID.isUUID d.id = true → Storable d
  free : FreeNumbers r g s.nextNode
  distinct : (newEdges r g).Nodup

section Updates

variable {env : Env} {left : Nat} {r : UpdateRequest} {s t : Store} {d : WorkflowNodeDTO} {c : Config}
  {handler : TriggerHandler} {change : Workflow → Workflow} {wf : Workflow} {w : WorkflowID}

theorem amend_same (stored : s.workflows w = some wf) (same : change wf = wf) : s.amend w change = s := by
  have workflows : (s.amend w change).workflows = s.workflows := by
    funext x
    by_cases other : x = w
    · rw [other,Store.amend_self,stored,Option.map_some,same]
    · exact s.amend_other change other
  calc s.amend w change = { s with workflows := (s.amend w change).workflows } := rfl
    _ = s := by rw [workflows]

theorem sent_config (given : d.config = some c) :
    (d.withIDs r).config.getD .blank = Config.withIDs c r.userID r.workflowID := by
  rw [WorkflowNodeDTO.withIDs,given]
  rfl

theorem update_accepts (given : d.config = some c)
    (updated : TriggerRegistry.update env left d.nodeType ((d.withIDs r).config.getD .blank) s = .ok t) :
    Accepts s r d ∧ env.answers (.triggerRow left) = true := by
  rw [sent_config given] at updated
  unfold TriggerRegistry.update at updated
  split at updated
  next => contradiction
  next handler registered =>
    have updated := wrap_ok.mp updated
    cases handler with
    | schedule =>
      refine ⟨fun calendar => ?_,?_⟩
      · rw [registered] at calendar
        contradiction
      · obtain ⟨sc,_,updated⟩ := Fold.bind_ok.mp updated
        dsimp only [Config.withIDs] at updated
        split at updated
        next answers => exact answers
        next => contradiction
    | calendarEvent =>
      obtain ⟨cc,built,updated⟩ := Fold.bind_ok.mp updated
      have built : buildCalendarConfig c = .ok cc := wrap_ok.mp built
      dsimp only [Config.withIDs] at updated
      split at updated
      next calendarID present =>
        obtain ⟨syncToken,token,updated⟩ := Fold.bind_ok.mp updated
        obtain ⟨⟨⟩,_,updated⟩ := Fold.bind_ok.mp updated
        have token := wrap_ok.mp token
        unfold getSyncToken at token
        split at token
        next connected =>
          refine ⟨fun _ => ⟨connected,?_⟩,?_⟩
          · simp [given,built,Except.toOption,present]
          · split at updated
            next answers => exact answers
            next => contradiction
        next => contradiction
      next => contradiction

theorem validateNode_trigger (valid : validateNode env d = .ok ()) (given : d.config = some c)
    (trigger : d.category = .trigger) : TriggerRegistry.validate env d.nodeType c = .ok () := by
  unfold validateNode at valid
  split at valid
  next => contradiction
  next =>
    split at valid
    next => contradiction
    next =>
      split at valid
      next => contradiction
      next c' given' =>
        cases given.symm.trans given'
        exact wrap_ok.mp valid

/-- A validated trigger that is accepted is updated if the database and the API answer. -/
theorem accepts_update (given : d.config = some c) (trigger : d.category = .trigger)
    {env' : Env} (valid : validateNode env' d = .ok ()) (same : env.parseRFC3339 = env'.parseRFC3339)
    (accepts : Accepts s r d) (answers : env.answers (.triggerRow left) = true)
    (tokens : env.syncToken = fun _ _ => .ok "") :
    ∃ handler change, handlers d.nodeType = some handler ∧ Rewrite env c handler change ∧
      TriggerRegistry.update env left d.nodeType ((d.withIDs r).config.getD .blank) s =
        .ok (s.amend r.workflowID change) := by
  have valid := validateNode_trigger valid given trigger
  unfold TriggerRegistry.validate at valid
  split at valid
  next => contradiction
  next handler registered =>
    have valid := wrap_ok.mp valid
    rw [sent_config given,TriggerRegistry.update,registered]
    cases handler with
    | schedule =>
      unfold TriggerHandler.validate at valid
      dsimp only at valid
      split at valid
      next => contradiction
      next sc built =>
        have built : buildScheduleConfig env.parseRFC3339 c = .ok sc := same ▸ wrap_ok.mp built
        have built' : buildScheduleConfig env.parseRFC3339 (Config.withIDs c r.userID r.workflowID) =
          .ok sc := built
        refine ⟨.schedule,_,rfl,.schedule built,wrap_ok.mpr ?_⟩
        exact Fold.bind_ok.mpr ⟨sc,wrap_ok.mpr built',if_pos answers⟩
    | calendarEvent =>
      obtain ⟨connected,present⟩ := accepts registered
      unfold TriggerHandler.validate at valid
      dsimp only at valid
      split at valid
      next => contradiction
      next cc built =>
        have built : buildCalendarConfig c = .ok cc := wrap_ok.mp built
        have built' : buildCalendarConfig (Config.withIDs c r.userID r.workflowID) = .ok cc := built
        have checked := wrap_ok.mp valid
        simp only [given,Option.bind_some,built,Except.toOption] at present
        obtain ⟨calendarID,present⟩ := Option.isSome_iff_exists.mp present
        have token : getSyncToken env s calendarID r.userID = .ok "" := by
          rw [getSyncToken,if_pos connected,tokens]
          rfl
        have rewrite : Rewrite env c .calendarEvent fun wf => wf.updateCalendars cc "" .queued env.now :=
          .calendar built
        refine ⟨.calendarEvent,_,rfl,rewrite,wrap_ok.mpr ?_⟩
        refine Fold.bind_ok.mpr ⟨cc,wrap_ok.mpr built',?_⟩
        dsimp only [Config.withIDs]
        rw [present]
        refine Fold.bind_ok.mpr ⟨"",wrap_ok.mpr token,?_⟩
        exact Fold.bind_ok.mpr ⟨(),wrap_ok.mpr checked,if_pos answers⟩

end Updates

section Loop

variable {env env' : Env} {r : UpdateRequest} {s t : Store} {d old : WorkflowNodeDTO} {c : Config} {g : Graph}
  {nodes rest : List WorkflowNodeDTO} {delta delta' : WorkflowDelta} {left : Nat}

theorem compareUI_some (row : NodeRow) (placed : d.position.isSome) (delta : WorkflowDelta) :
    ∃ delta', compareUI row.dto d delta = .ok delta' := by
  obtain ⟨after,placed⟩ := Option.isSome_iff_exists.mp placed
  unfold compareUI NodeRow.dto
  rw [placed]
  dsimp only
  split
  next => exact ⟨_,rfl⟩
  next => exact ⟨_,rfl⟩

theorem StandsFor.matches (stands : StandsFor (g.nodes.map NodeRow.dto) d old) : Matches g d := by
  obtain ⟨row,stored,_,category,nodeType⟩ := stands.stored
  exact ⟨row,stored,category,nodeType⟩

theorem Matches.stands (named : Matches g d) : ∃ old, StandsFor (g.nodes.map NodeRow.dto) d old := by
  obtain ⟨row,stored,category,nodeType⟩ := named
  refine ⟨row.dto,by rw [find_dto,stored]; rfl,category,nodeType,?_⟩
  rw [(rowOf_some stored).2]
  rfl

theorem StandsFor.changed_iff (stands : StandsFor (g.nodes.map NodeRow.dto) d old) :
    changed g d = true ↔ old.config ≠ d.config := by
  obtain ⟨row,stored,rfl,_⟩ := stands.stored
  exact Workflows.changed_iff stored

theorem StandsFor.placed {node : WorkflowNodeDTO} (stands : StandsFor (g.nodes.map NodeRow.dto) d old)
    (same : node.position = d.position) (compared : compareUI old node delta = .ok delta') : d.position.isSome := by
  obtain ⟨row,_,rfl,_⟩ := stands.stored
  exact same ▸ (compareUI_ok compared).1

theorem Passes.of_integrations (passes : Passes t r g d) (same : t.integrations = s.integrations) :
    Passes s r g d :=
  passes.imp_right fun ⟨named,placed,accepts⟩ => ⟨named,placed,fun changes trigger calendar =>
    same ▸ accepts changes trigger calendar⟩

/-- An update that was needed and succeeded had what it needs. -/
theorem retrigger_accepts (updated : retrigger env r left d s = .ok t) :
    t.integrations = s.integrations ∧
      (d.category = .trigger → Accepts s r d ∧ env.answers (.triggerRow left) = true) := by
  rcases retrigger_ok updated with ⟨action,rfl⟩ | ⟨trigger,c,handler,change,given,_,_,rfl⟩
  · exact ⟨rfl,fun is => absurd is action⟩
  · exact ⟨rfl,fun _ => update_accepts given ((if_pos trigger).symm.trans updated)⟩

theorem NodeTurn.passes (turn : NodeTurn env r (g.nodes.map NodeRow.dto) left d delta s t (.ok delta')) :
    Passes s r g d ∧ t.integrations = s.integrations := by
  cases turn with
  | created uuid => exact ⟨.inl uuid,rfl⟩
  | kept stands same compared =>
    refine ⟨.inr ⟨stands.matches,stands.placed rfl compared,fun changes => ?_⟩,rfl⟩
    exact absurd same (stands.changed_iff.mp changes)
  | changed stands differs updated compared =>
    obtain ⟨kept,accepts⟩ := retrigger_accepts updated
    have position : (d.withIDs r).position = d.position := rfl
    exact ⟨.inr ⟨stands.matches,stands.placed position compared,fun _ trigger => (accepts trigger).1⟩,kept⟩

theorem diffNodes_passes (ok : diffNodes env r (g.nodes.map NodeRow.dto) nodes delta s = (t,.ok delta')) :
    ∀ d ∈ nodes, Passes s r g d := by
  induction nodes generalizing delta s with
  | nil => simp
  | cons d rest ih =>
    obtain ⟨u,mid,turn,ok⟩ := diffNodes_cons_ok ok
    obtain ⟨passes,kept⟩ := turn.passes
    exact List.forall_mem_cons.mpr ⟨passes,fun e member => (ih ok e member).of_integrations kept⟩

/-- After a stored node with a position the loop goes on with what its update leaves. -/
theorem StandsFor.goes_on (stands : StandsFor (g.nodes.map NodeRow.dto) d old) (placed : d.position.isSome)
    (updated : old.config = d.config ∧ t = s ∨ old.config ≠ d.config ∧ retrigger env r rest.length d s = .ok t)
    (delta : WorkflowDelta) : ∃ delta', diffNodes env r (g.nodes.map NodeRow.dto) (d :: rest) delta s =
      diffNodes env r (g.nodes.map NodeRow.dto) rest delta' t := by
  obtain ⟨row,_,rfl,_⟩ := stands.stored
  rcases updated with ⟨same,rfl⟩ | ⟨differs,updated⟩
  · obtain ⟨mid,compared⟩ := compareUI_some row placed delta
    exact ⟨mid,stands.diffNodes_same same compared⟩
  · have placed' : (d.withIDs r).position.isSome := placed
    obtain ⟨mid,compared⟩ := compareUI_some row placed'
      { delta with nodesToUpdate := delta.nodesToUpdate ++ [d.withIDs r] }
    exact ⟨mid,stands.diffNodes_changed differs updated compared⟩

/-- A validated node that is accepted is updated if the database and the API answer. -/
theorem retrigger_total (valid : validateNode env' d = .ok ()) (same : env.parseRFC3339 = env'.parseRFC3339)
    (accepts : d.category = .trigger → Accepts s r d) (answers : env.answers (.triggerRow left) = true)
    (tokens : env.syncToken = fun _ _ => .ok "") :
    ∃ t, retrigger env r left d s = .ok t ∧ t.integrations = s.integrations := by
  by_cases trigger : d.category = .trigger
  · obtain ⟨c,given⟩ := validateNode_config valid
    obtain ⟨handler,change,_,_,updated⟩ := accepts_update given trigger valid same (accepts trigger) answers tokens
    exact ⟨_,(if_pos trigger).trans updated,rfl⟩
  · exact ⟨s,if_neg trigger,rfl⟩

/-- A loop that can get past every node ends well if everything around it answers. -/
theorem diffNodes_total (passes : ∀ d ∈ nodes, Passes s r g d)
    (valid : ∀ d ∈ nodes, validateNode env' d = .ok ()) (same : env.parseRFC3339 = env'.parseRFC3339)
    (answers : ∀ left, env.answers (.triggerRow left) = true) (tokens : env.syncToken = fun _ _ => .ok "") :
    ∃ t delta', diffNodes env r (g.nodes.map NodeRow.dto) nodes delta s = (t,.ok delta') := by
  induction nodes generalizing delta s with
  | nil => exact ⟨s,delta,rfl⟩
  | cons d rest ih =>
    obtain ⟨here,passes⟩ := List.forall_mem_cons.mp passes
    obtain ⟨checked,valid⟩ := List.forall_mem_cons.mp valid
    rcases here with uuid | ⟨named,placed,accepts⟩
    · rw [diffNodes,if_pos uuid]
      exact ih passes valid
    · obtain ⟨old,stands⟩ := named.stands
      by_cases config : old.config = d.config
      · obtain ⟨mid,loop⟩ := stands.goes_on placed (.inl ⟨config,rfl⟩) delta
        rw [loop]
        exact ih passes valid
      · have changes := stands.changed_iff.mpr config
        obtain ⟨u,updated,kept⟩ := retrigger_total checked same (accepts changes) (answers rest.length) tokens
        obtain ⟨mid,loop⟩ := stands.goes_on placed (.inr ⟨config,updated⟩) delta
        rw [loop]
        exact ih (fun e member => (passes e member).of_integrations kept.symm) valid

theorem diffNodes_ran (env : Env) (ran : NodeID → Bool) (existing : List WorkflowNodeDTO) :
    diffNodes { env with ran } r existing nodes delta s = diffNodes env r existing nodes delta s := by
  have update : ∀ left nodeType config s, TriggerRegistry.update { env with ran } left nodeType config s =
      TriggerRegistry.update env left nodeType config s := fun _ _ _ _ => rfl
  induction nodes generalizing delta s with
  | nil => rfl
  | cons d rest ih => simp only [diffNodes,ih,update]

/-- Up to its transaction a save does not look at the run history. -/
theorem planUpdate_ran (env : Env) (ran : NodeID → Bool) (r : UpdateRequest) (s : Store) :
    planUpdate { env with ran } r s = planUpdate env r s := by
  have validate : validateRequest { env with ran } r.nodes r.edges = validateRequest env r.nodes r.edges := rfl
  have render : renderWorkflowGraph { env with ran } r.workflowID s =
    renderWorkflowGraph env r.workflowID s := rfl
  simp only [planUpdate,validate,render,diffNodes_ran]

end Loop

section Save

variable {env : Env} {ran : NodeID → Bool} {parse : String → Option Int} {r : UpdateRequest} {s t u v : Store}
  {wf : Workflow} {plan : Plan}

/-- A save that comes to its commit was saveable and drops no node that has run. -/
theorem Patches.saveable (patches : Patches { env with ran } r plan u v) (planned : planUpdate env r s = (u,.ok plan))
    (stored : s.workflows r.workflowID = some wf) :
    ¬Blocked ran r wf.graph ∧ Saveable env.parseRFC3339 s r wf.graph := by
  obtain ⟨valid,wf',delta,stored',existing,looped,_⟩ := planUpdate_ok planned
  obtain rfl := Option.some.inj (stored.symm.trans stored')
  have quiet := planUpdate_quiet env r s
  rw [planned] at quiet
  obtain ⟨mid,between,graph,_⟩ := quiet.graph stored
  obtain ⟨x,_,applied,_⟩ := patches.rows between
  rw [existing,graph] at applied
  obtain ⟨free,storable,numbers,distinct⟩ :=
    (applyDelta_iff (plan_diffed planned stored) (validated_ends valid)).mp ⟨x,applied⟩
  exact ⟨free,⟨env,rfl,valid⟩,diffNodes_passes looped,storable,quiet.nextNode ▸ numbers,distinct⟩

theorem updateWorkflow_saveable (updated : updateWorkflow env r s = (t,.ok ()))
    (stored : s.workflows r.workflowID = some wf) :
    ¬Blocked env.ran r wf.graph ∧ Saveable env.parseRFC3339 s r wf.graph := by
  unfold updateWorkflow at updated
  split at updated
  next => simp at updated
  next u plan planned => exact Patches.saveable (writeUpdate_patches updated) planned stored

theorem Patches.exists {x : Writing} (current : u.workflows r.workflowID = some wf)
    (applied : applyDelta env.ran plan.delta plan.existing.nodes u.nextNode wf.graph = .ok x) :
    ∃ v, Patches env r plan u v := by
  unfold Patches
  split
  next => exact ⟨u,rfl⟩
  next =>
    simp only [patchWorkflow,current,applied,bind,Except.bind]
    exact ⟨_,rfl⟩

theorem Patches.answered (patches : Patches env r plan u v) (answers : env.answers .transaction = true) :
    writeUpdate env r plan u = (v,.ok ()) := by
  unfold Patches at patches
  unfold writeUpdate
  split at patches
  next same => rw [if_pos same,patches]
  next changes => simp only [if_neg changes,updateWorkflowRows,patches,Env.commit,if_pos answers]

/-- The COMMIT is applied and not answered. -/
theorem Patches.lost (patches : Patches env r plan u v) (changes : ¬plan.delta.unchanged)
    (unanswered : env.answers .transaction = false) (applied : env.applied = true) :
    ∃ err, writeUpdate env r plan u = (v,.error err) := by
  rw [Patches,if_neg changes] at patches
  unfold writeUpdate
  simp only [if_neg changes,updateWorkflowRows,patches,Env.commit,unanswered,applied]
  exact ⟨_,rfl⟩

/-- A saveable request comes to its commit if everything else answers and no history is in the way. -/
theorem Saveable.planned (saveable : Saveable env.parseRFC3339 s r wf.graph)
    (stored : s.workflows r.workflowID = some wf) (some_ : wf.graph.nodes ≠ [])
    (valid : validateRequest env r.nodes r.edges = .ok ()) (graph : env.answers .graph = true)
    (answers : ∀ left, env.answers (.triggerRow left) = true) (tokens : env.syncToken = fun _ _ => .ok "")
    (free : ¬Blocked env.ran r wf.graph) :
    ∃ u plan v, planUpdate env r s = (u,.ok plan) ∧ Patches env r plan u v := by
  have rendered := render_answers graph stored some_
  obtain ⟨u,delta,looped⟩ := @diffNodes_total env env r s wf.graph r.nodes (.start r
    ⟨wf.name,wf.description,wf.graph.nodes.map NodeRow.dto,wf.graph.edges.map edgeDTO⟩) saveable.passes
    (validateRequest_ok valid).2 rfl answers tokens
  obtain ⟨plan,planned⟩ : ∃ plan, planUpdate env r s = (u,.ok plan) := by
    unfold planUpdate
    rw [valid,rendered]
    simp only [wrap,looped]
    exact ⟨_,rfl⟩
  obtain ⟨_,wf',_,stored',existing,_⟩ := planUpdate_ok planned
  obtain rfl := Option.some.inj (stored.symm.trans stored')
  have quiet := planUpdate_quiet env r s
  rw [planned] at quiet
  obtain ⟨mid,between,same,_⟩ := quiet.graph stored
  obtain ⟨x,applied⟩ := (applyDelta_iff (plan_diffed planned stored) (validated_ends valid)).mpr
    ⟨free,saveable.storable,quiet.nextNode.symm ▸ saveable.free,saveable.distinct⟩
  obtain ⟨v,patches⟩ : ∃ v, Patches env r plan u v := Patches.exists between (by rw [existing,same]; exact applied)
  exact ⟨u,plan,v,planned,patches⟩

/-- Surroundings in which everything answers. -/
def Env.helpful (env : Env) : Env := { env with syncToken := fun _ _ => .ok "", answers := fun _ => true }

theorem Saveable.helpful (saveable : Saveable parse s r wf.graph) (stored : s.workflows r.workflowID = some wf)
    (some_ : wf.graph.nodes ≠ []) : ∃ env : Env, env.parseRFC3339 = parse ∧ ∀ ran, ¬Blocked ran r wf.graph →
      (updateWorkflow { env with ran } r s).2 = .ok () := by
  obtain ⟨env,rfl,valid⟩ := saveable.valid
  refine ⟨env.helpful,rfl,fun ran free => ?_⟩
  obtain ⟨u,plan,v,planned,patches⟩ : ∃ u plan v, planUpdate { env.helpful with ran } r s = (u,.ok plan) ∧
      Patches { env.helpful with ran } r plan u v :=
    Saveable.planned saveable stored some_ valid rfl (fun _ => rfl) rfl free
  rw [updateWorkflow,planned]
  dsimp only
  rw [patches.answered rfl]

end Save

end TinyAutomator.Workflows
