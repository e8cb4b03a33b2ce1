import TinyAutomator.Workflows.Effects
import TinyAutomator.Workflows.Saves

/-! Trigger rows follow trigger nodes. CreateWorkflow inserts one row for each root
trigger; UpdateWorkflow only rewrites the rows that are there, all of a kind at once. -/
namespace TinyAutomator.Workflows

open Transition

/-- What a trigger row carries of its node: the schedule type, or the calendar
configuration with the default calendar filled in. -/
inductive Label where
  | schedule (scheduleType : ScheduleType)
  | calendar (config : CalendarConfig)
  deriving DecidableEq

def label (handler : TriggerHandler) (config : Config) : Option Label :=
  match handler with
  | .schedule => ((asString config.scheduleType).bind scheduleTypes).map .schedule
  | .calendarEvent =>
    match buildCalendarConfig config with
    | .ok c => some (.calendar c.withPrimary)
    | .error _ => none

def rowLabels (wf : Workflow) : TriggerHandler → List (Option Label)
  | .schedule => wf.schedules.map fun row => some (.schedule row.scheduleType)
  | .calendarEvent => wf.calendars.map fun row => some (.calendar row.config.withPrimary)

/-- The labels of some trigger nodes of one type. -/
def triggerLabels (handler : TriggerHandler) (nodes : List WorkflowNode) : List (Option Label) :=
  (nodes.filter fun n => n.category = .trigger ∧ handlers n.nodeType = some handler).map
    fun n => label handler n.config

/-- The rows of a workflow and its root triggers are paired off, each row with a node that
has its label. -/
def Traced (wf : Workflow) : Prop := ∀ handler,
  (rowLabels wf handler).Perm (triggerLabels handler (getRootNodes wf.graph.workflowGraph))

section Labels

variable {env : Env} {handler other : TriggerHandler} {config : Config} {s : Store}
  {change : Workflow → Workflow} {wf : Workflow}

theorem asString_stored (value : Option Json) : asString (value.map Json.stored) = asString value := by
  cases value with
  | none => rfl
  | some value => cases value <;> rfl

theorem buildCalendarConfig_stored (c : Config) : buildCalendarConfig c.stored = buildCalendarConfig c := by
  simp only [buildCalendarConfig,Config.stored_calendarID,Config.stored_keywords,Config.stored_timeCondition,
    Config.stored_eventStatus,matching_stored,decode_stored decodeString_stored,
    decode_stored decodeStrings_stored,decode_stored decodeInt_stored,decode_stored decodeText_stored]

/-- A label does not depend on storage or on the service's keys. -/
theorem label_essence (handler : TriggerHandler) (config : Config) :
    label handler (Config.essence config) = label handler config := by
  cases handler with
  | schedule => simp only [label,Config.essence,Config.stored,asString_stored]
  | calendarEvent =>
    have same : buildCalendarConfig (Config.essence config) = buildCalendarConfig config.stored := rfl
    simp only [label,same,buildCalendarConfig_stored]

theorem label_schedule {parse : String → Option Int} {c : ScheduleTriggerConfig}
    (built : buildScheduleConfig parse config = .ok c) :
    label .schedule config = some (.schedule c.scheduleType) := by
  unfold buildScheduleConfig at built
  split at built
  next => contradiction
  next text known =>
    split at built
    next => contradiction
    next scheduleType listed =>
      split at built
      next => contradiction
      next =>
        split at built
        next => contradiction
        next => cases built; simp [label,known,listed]

theorem label_calendar {c : CalendarConfig} (built : buildCalendarConfig config = .ok c) :
    label .calendarEvent config = some (.calendar c.withPrimary) := by
  simp only [label,built]

theorem withPrimary_idem (c : CalendarConfig) : c.withPrimary.withPrimary = c.withPrimary := by
  unfold CalendarConfig.withPrimary
  split
  next => simp [primaryCalendarID]
  next => rfl

/-- An update gives every row of its kind the label of the node. -/
theorem Rewrite.labels (rewrite : Rewrite env config handler change) (wf : Workflow) (other : TriggerHandler) :
    rowLabels (change wf) other =
      if other = handler then (rowLabels wf other).map fun _ => label handler config else rowLabels wf other := by
  cases rewrite with
  | schedule built =>
    cases other with
    | schedule => simp [rowLabels,Workflow.updateSchedules,label_schedule built,Function.comp_def]
    | calendarEvent => rfl
  | calendar built =>
    cases other with
    | schedule => rfl
    | calendarEvent => simp [rowLabels,Workflow.updateCalendars,label_calendar built,Function.comp_def]

/-- An insert adds a row with the label of the node. -/
theorem Insert.labels (insert : Insert env config s handler change) (wf : Workflow) (other : TriggerHandler) :
    rowLabels (change wf) other =
      rowLabels wf other ++ if other = handler then [label handler config] else [] := by
  cases insert with
  | schedule built =>
    cases other with
    | schedule => simp [rowLabels,label_schedule built]
    | calendarEvent => simp [rowLabels]
  | calendar built =>
    cases other with
    | schedule => simp [rowLabels]
    | calendarEvent => simp [rowLabels,label_calendar built,withPrimary_idem]

theorem Insert.core (insert : Insert env config s handler change) (wf : Workflow) :
    (change wf).core = wf.core := by
  cases insert <;> rfl

theorem label_withIDs (handler : TriggerHandler) (config : Config) (userID : UserID) (w : WorkflowID) :
    label handler (Config.withIDs config userID w) = label handler config := by
  cases handler <;> rfl

end Labels

section Create

variable {env : Env} {userID : UserID} {w : WorkflowID} {s t : Store} {wf : Workflow}
  {nodes : List WorkflowNode} {handler : TriggerHandler}

/-- Executing the triggers of a workflow adds a row for each of them, in order. -/
theorem executeTriggers_ok (executed : executeTriggers env userID w nodes s = (t,.ok ()))
    (stored : s.workflows w = some wf) :
    (∀ x, x ≠ w → t.workflows x = s.workflows x) ∧ ∃ wf', t.workflows w = some wf' ∧
      wf'.core = wf.core ∧ ∀ handler, rowLabels wf' handler = rowLabels wf handler ++ triggerLabels handler nodes := by
  induction nodes generalizing s wf with
  | nil =>
    cases executed
    exact ⟨fun _ _ => rfl,wf,stored,rfl,fun handler => by simp [triggerLabels]⟩
  | cons n rest ih =>
    unfold executeTriggers at executed
    split at executed
    next trigger =>
      split at executed
      next => simp at executed
      next u first =>
        obtain ⟨wf₀,handler,change,registered,stored₀,insert,put,_⟩ := registry_execute_ok first
        obtain rfl := Option.some.inj (stored.symm.trans stored₀)
        have stored' : u.workflows w = some (change wf) := by rw [put,Store.put_self]
        obtain ⟨frame,wf',after,core,labels⟩ := ih executed stored'
        refine ⟨fun x apart => ?_,wf',after,core.trans (insert.core wf),fun other => ?_⟩
        · rw [frame x apart,put,Store.put_other s _ apart]
        · rw [labels other,insert.labels wf other,label_withIDs,List.append_assoc]
          congr 1
          by_cases same : other = handler
          · simp [triggerLabels,trigger,registered,same]
          · have apart : handlers n.nodeType ≠ some other := by
              rw [registered]
              exact fun is => same (Option.some.inj is).symm
            simp [triggerLabels,apart,same]
    next action =>
      obtain ⟨frame,wf',after,core,labels⟩ := ih executed stored
      refine ⟨frame,wf',after,core,fun other => ?_⟩
      rw [labels other]
      simp [triggerLabels,action]

/-- A node as JSONB gives it back. -/
def storedNode (n : WorkflowNode) : WorkflowNode := { n with config := n.config.stored }

theorem createGraphNode_ok {x y : Writing × List WorkflowNode} {d : WorkflowNodeDTO}
    (created : createGraphNode x d = .ok y)
    (same : x.1.graph.nodes.map (·.toWorkflowNode) = x.2.map storedNode) :
    y.1.graph.nodes.map (·.toWorkflowNode) = y.2.map storedNode := by
  unfold createGraphNode at created
  split at created
  next => contradiction
  next =>
    split at created
    next => contradiction
    next z inserted =>
      cases created
      obtain ⟨ids,nodes,_,_⟩ := createNode_ok inserted
      rw [nodes,List.map_append,same,List.map_append]
      simp [newRow,ids,NodeIDMap.set,storedNode,storedConfig]

theorem createGraphEdge_ok {x y : Writing} {e : WorkflowEdgeDTO} (created : createGraphEdge x e = .ok y) :
    y.graph.nodes = x.graph.nodes := by
  unfold createGraphEdge at created
  split at created
  next => contradiction
  next => exact (createEdge_ok created).1

/-- The graph that the repository returns is the stored one up to storage. -/
theorem insertWorkflow_ok {name description status : String} {dtos : List WorkflowNodeDTO}
    {edges : List WorkflowEdgeDTO} {now : Int} {g : WorkflowGraph}
    (created : insertWorkflow userID name description status dtos edges now s = .ok (t,g)) :
    s.workflows s.nextWorkflow = none ∧ (∀ x, x ≠ s.nextWorkflow → t.workflows x = s.workflows x) ∧
    ∃ wf, t.workflows s.nextWorkflow = some wf ∧ wf.schedules = [] ∧ wf.calendars = [] ∧
      wf.graph.nodes.map (·.toWorkflowNode) = g.nodes.map storedNode ∧ wf.graph.edges = g.edges := by
  unfold insertWorkflow at created
  split at created
  next => contradiction
  next =>
    split at created
    next => contradiction
    next =>
      split at created
      next => contradiction
      next => contradiction
      next status _ free =>
        obtain ⟨⟨x,listed⟩,first,created⟩ := Fold.bind_ok.mp created
        obtain ⟨y,second,created⟩ := Fold.bind_ok.mp created
        have nodes := Fold.foldlM_ok (fun (_ : List WorkflowNodeDTO) (x : Writing × List WorkflowNode) =>
          x.1.graph.nodes.map (·.toWorkflowNode) = x.2.map storedNode) rfl
          (fun _ _ _ _ same step => createGraphNode_ok step same) first
        have kept := Fold.foldlM_rel (fun x y : Writing => y.graph.nodes = x.graph.nodes)
          (fun _ => rfl) (fun _ _ _ first second => second.trans first)
          (fun _ _ _ step => createGraphEdge_ok step) second
        cases created
        refine ⟨free,fun x apart => Store.put_other s _ apart,_,Store.put_self s _ _,rfl,rfl,?_,rfl⟩
        exact (congrArg (List.map _) kept).trans nodes

theorem label_stored (handler : TriggerHandler) (config : Config) :
    label handler config.stored = label handler config := by
  rw [← label_essence handler config.stored,Config.essence_stored,label_essence]

theorem triggerLabels_stored (handler : TriggerHandler) (g : WorkflowGraph) :
    triggerLabels handler (getRootNodes ⟨g.nodes.map storedNode,g.edges⟩) =
      triggerLabels handler (getRootNodes g) := by
  simp only [triggerLabels,getRootNodes,List.filter_map,List.map_map]
  refine List.map_congr_left fun n _ => ?_
  exact label_stored handler n.config

/-- A creation that succeeds has inserted its rows and executed its root triggers. -/
theorem createWorkflow_ok {name description status : String} {dtos : List WorkflowNodeDTO}
    {edges : List WorkflowEdgeDTO}
    (created : createWorkflow env userID name description status dtos edges s = (t,.ok w)) :
    validateRequest env dtos edges = .ok () ∧ w = s.nextWorkflow ∧ ∃ u g,
      insertWorkflow userID name description status dtos edges env.now s = .ok (u,g) ∧
      executeTriggers env userID s.nextWorkflow (getRootNodes g) u = (t,.ok ()) := by
  unfold createWorkflow createWorkflowRows Env.commit at created
  split at created
  next => simp at created
  next valid =>
    cases inserted : insertWorkflow userID name description status dtos edges env.now s with
    | error err => simp [inserted] at created
    | ok written =>
      obtain ⟨u,g⟩ := written
      cases answers : env.answers .transaction with
      | false => simp [inserted,answers] at created
      | true =>
        simp only [inserted,answers,if_true] at created
        split at created
        next => simp at created
        next v executed =>
          cases created
          exact ⟨valid,rfl,u,g,rfl,executed⟩

/-- CreateWorkflow leaves the store behind that it found, or the one of its rows and of some
of its triggers. -/
theorem createWorkflow_store (env : Env) (userID : UserID) (name description status : String)
    (dtos : List WorkflowNodeDTO) (edges : List WorkflowEdgeDTO) (s : Store) :
    (createWorkflow env userID name description status dtos edges s).1 = s ∨
    ∃ u g triggers, insertWorkflow userID name description status dtos edges env.now s = .ok (u,g) ∧
      (createWorkflow env userID name description status dtos edges s).1 =
        (executeTriggers env userID s.nextWorkflow triggers u).1 := by
  unfold createWorkflow createWorkflowRows Env.commit
  split
  next => exact .inl rfl
  next =>
    cases inserted : insertWorkflow userID name description status dtos edges env.now s with
    | error err => exact .inl rfl
    | ok written =>
      obtain ⟨u,g⟩ := written
      cases env.answers .transaction with
      | false =>
        cases env.applied with
        | false => exact .inl rfl
        | true => exact .inr ⟨u,g,[],rfl,rfl⟩
      | true =>
        refine .inr ⟨u,g,getRootNodes g,rfl,?_⟩
        simp only [if_true]
        split
        next failed => rw [failed]
        next done => rw [done]

theorem createWorkflow_traced {name description status : String} {dtos : List WorkflowNodeDTO}
    {edges : List WorkflowEdgeDTO}
    (created : createWorkflow env userID name description status dtos edges s = (t,.ok w)) :
    (∀ x, x ≠ s.nextWorkflow → t.workflows x = s.workflows x) ∧
    ∃ wf, t.workflows s.nextWorkflow = some wf ∧ Traced wf := by
  obtain ⟨_,_,u,g,rows,executed⟩ := createWorkflow_ok created
  obtain ⟨_,frame,wf,stored,schedules,calendars,nodes,edges⟩ := insertWorkflow_ok rows
  obtain ⟨frame',wf',after,core,labels⟩ := executeTriggers_ok executed stored
  refine ⟨fun x apart => (frame' x apart).trans (frame x apart),wf',after,fun handler => ?_⟩
  have none_ : rowLabels wf handler = [] := by
    cases handler <;> simp [rowLabels,schedules,calendars]
  have graph := core_graph core
  have returned : wf'.graph.workflowGraph = ⟨g.nodes.map storedNode,g.edges⟩ := by
    rw [graph,Graph.workflowGraph,nodes,edges]
  rw [labels handler,none_,List.nil_append,returned,triggerLabels_stored]

end Create

section Update

/-- The labels of the root triggers that a request asks for. -/
def requestLabels (handler : TriggerHandler) (r : UpdateRequest) : List (Option Label) :=
  (r.nodes.filter fun d => d.id ∉ r.edges.map (·.targetNodeID) ∧ d.category = .trigger ∧
    handlers d.nodeType = some handler).map fun d => d.config.bind (label handler)

/-- The labels of the stored triggers whose config a request changes, roots or not. -/
def editLabels (handler : TriggerHandler) (g : Graph) (nodes : List WorkflowNodeDTO) : List (Option Label) :=
  (nodes.filter fun d => changed g d ∧ d.category = .trigger ∧ handlers d.nodeType = some handler).map
    fun d => d.config.bind (label handler)

/-- The last edit of a kind decides about all rows of that kind. -/
def edited (edits labels : List (Option Label)) : List (Option Label) :=
  match edits.getLast? with
  | none => labels
  | some last => labels.map fun _ => last

/-- What a request must ask for so that its rows still fit: the root triggers it has of a
kind are those stored, or, when it edits a trigger of that kind, as many as stored and all
with the label of the last edit. -/
def Keeps (g : Graph) (r : UpdateRequest) : Prop := ∀ handler, (requestLabels handler r).Perm
  (edited (editLabels handler g r.nodes) (triggerLabels handler (getRootNodes g.workflowGraph)))

variable {env : Env} {r : UpdateRequest} {g : Graph} {s t : Store} {wf : Workflow}
  {nodes : List WorkflowNodeDTO} {delta delta' : WorkflowDelta} {handler : TriggerHandler}
  {edits labels : List (Option Label)}

theorem edited_cons {edit : Option Label} :
    edited (edit :: edits) labels = edited edits (labels.map fun _ => edit) := by
  cases edits with
  | nil => rfl
  | cons later rest =>
    obtain ⟨last,ends⟩ : ∃ last, (later :: rest).getLast? = some last :=
      ⟨_,List.getLast?_eq_some_getLast (List.cons_ne_nil later rest)⟩
    simp only [edited,List.getLast?_cons_cons,ends,List.map_map]
    rfl

theorem edited_perm {other : List (Option Label)} (same : labels.Perm other) :
    (edited edits labels).Perm (edited edits other) := by
  unfold edited
  split
  · exact same
  · exact same.map _

/-- The node loop rewrites the rows once for each changed trigger. -/
theorem diffNodes_rows (ok : diffNodes env r (g.nodes.map NodeRow.dto) nodes delta s = (t,.ok delta'))
    (stored : s.workflows r.workflowID = some wf) :
    ∃ wf', t.workflows r.workflowID = some wf' ∧
      ∀ handler, rowLabels wf' handler = edited (editLabels handler g nodes) (rowLabels wf handler) := by
  induction nodes generalizing delta s wf with
  | nil =>
    cases ok
    exact ⟨wf,stored,fun handler => rfl⟩
  | cons d rest ih =>
    obtain ⟨u,mid,turn,loop⟩ := diffNodes_cons_ok ok
    have skip : changed g d = false → ∀ handler, editLabels handler g (d :: rest) = editLabels handler g rest := by
      intro settled handler
      simp [editLabels,settled]
    cases turn with
    | created uuid =>
      have settled : changed g d = false := by rw [changed,rowOf_uuid uuid]; rfl
      obtain ⟨wf',after,rows⟩ := ih loop stored
      exact ⟨wf',after,fun handler => by rw [rows,skip settled]⟩
    | kept stands same =>
      obtain ⟨row,listed,rfl,_⟩ := stands.stored
      obtain ⟨wf',after,rows⟩ := ih loop stored
      exact ⟨wf',after,fun handler => by rw [rows,skip ((unchanged_iff listed).mpr same)]⟩
    | changed stands differs updated =>
      obtain ⟨row,listed,rfl,_⟩ := stands.stored
      have changes : changed g d = true := (changed_iff listed).mpr differs
      rcases retrigger_ok updated with ⟨action,rfl⟩ | ⟨trigger,c,handler,change,given,registered,rewrite,rfl⟩
      · obtain ⟨wf',after,rows⟩ := ih loop stored
        refine ⟨wf',after,fun other => ?_⟩
        rw [rows]
        simp [editLabels,action]
      · have stored₁ : (s.amend r.workflowID change).workflows r.workflowID = some (change wf) := by
          simp [stored]
        obtain ⟨wf',after,rows⟩ := ih loop stored₁
        refine ⟨wf',after,fun other => ?_⟩
        rw [rows,rewrite.labels]
        by_cases same : other = handler
        · have edit : editLabels other g (d :: rest) = label handler c :: editLabels other g rest := by
            simp [editLabels,changes,trigger,registered,same,given]
          rw [edit,edited_cons,if_pos same]
        · have apart : handlers d.nodeType ≠ some other := by
            rw [registered]
            exact fun is => same (Option.some.inj is).symm
          have edit : editLabels other g (d :: rest) = editLabels other g rest := by
            simp [editLabels,apart]
          rw [edit,if_neg same]

theorem validateNode_config {d : WorkflowNodeDTO} (valid : validateNode env d = .ok ()) :
    ∃ c, d.config = some c := by
  unfold validateNode at valid
  split at valid
  next => contradiction
  next =>
    split at valid
    next => contradiction
    next =>
      split at valid
      next => contradiction
      next c given => exact ⟨c,given⟩

theorem triggerLabels_rows (handler : TriggerHandler) (g : Graph) :
    triggerLabels handler (getRootNodes g.workflowGraph) =
      (g.nodes.filter fun n => n.id ∉ g.edges.map (·.targetNodeID) ∧ n.category = .trigger ∧
        handlers n.nodeType = some handler).map fun n => label handler n.config := by
  have roots : getRootNodes g.workflowGraph = (g.nodes.map (·.toWorkflowNode)).filter fun n =>
    n.id ∉ g.edges.map (·.targetNodeID) := rfl
  rw [triggerLabels,roots,List.filter_filter,List.filter_map,List.map_map]
  refine congrArg _ (List.filter_congr fun n _ => ?_)
  rw [Function.comp_apply,← Bool.decide_and,decide_eq_decide]
  exact and_comm

/-- The root triggers of a stored request are the requested ones. -/
theorem Stores.triggerLabels {rename : ID → NodeID} {row : WorkflowNodeDTO → NodeRow}
    (stores : Stores r g rename row) (distinct : (r.nodes.map (·.id)).Nodup)
    (valid : validateRequest env r.nodes r.edges = .ok ()) (handler : TriggerHandler) :
    (triggerLabels handler (getRootNodes g.workflowGraph)).Perm (requestLabels handler r) := by
  have declared := declared_edges distinct valid
  have root : ∀ d ∈ r.nodes, (row d).id ∈ g.edges.map (·.targetNodeID) ↔
      d.id ∈ r.edges.map (·.targetNodeID) := by
    intro d member
    rw [stores.id d member]
    constructor
    · intro target
      obtain ⟨e,stored,same⟩ := List.mem_map.mp target
      obtain ⟨f,requested,rfl⟩ := (stores.edges e).mp stored
      have listed := (declared f requested).2
      have is : f.targetNodeID = d.id := by
        rw [← stores.original listed,← stores.original (List.mem_map_of_mem member)]
        exact congrArg _ same
      exact List.mem_map.mpr ⟨f,requested,is⟩
    · intro target
      obtain ⟨f,requested,same⟩ := List.mem_map.mp target
      exact List.mem_map.mpr ⟨_,(stores.edges _).mpr ⟨f,requested,rfl⟩,congrArg rename same⟩
  have config : ∀ d ∈ r.nodes, label handler (row d).config = d.config.bind (label handler) := by
    intro d member
    obtain ⟨c,given⟩ := validateNode_config ((validateRequest_ok valid).2 d member)
    rw [← label_essence,stores.config d member,given,label_essence]
    exact label_stored handler c
  rw [triggerLabels_rows]
  refine ((stores.nodes.filter _).map _).trans (List.Perm.of_eq ?_)
  rw [List.filter_map,List.map_map,requestLabels]
  have same : r.nodes.filter ((fun n : NodeRow => decide (n.id ∉ g.edges.map (·.targetNodeID) ∧
      n.category = .trigger ∧ handlers n.nodeType = some handler)) ∘ row) =
      r.nodes.filter fun d => decide (d.id ∉ r.edges.map (·.targetNodeID) ∧ d.category = .trigger ∧
        handlers d.nodeType = some handler) := by
    refine List.filter_congr fun d member => ?_
    simp only [Function.comp_apply,root d member,stores.category d member,stores.nodeType d member]
  rw [same]
  exact List.map_congr_left fun d member => config d (List.mem_filter.mp member).1

/-- A save of a traced workflow leaves it traced exactly when it keeps the triggers. -/
theorem updateWorkflow_traced (distinct : (r.nodes.map (·.id)).Nodup)
    (updated : updateWorkflow env r s = (t,.ok ())) (stored : s.workflows r.workflowID = some wf)
    (traced : Traced wf) :
    ∃ wf', t.workflows r.workflowID = some wf' ∧ (Traced wf' ↔ Keeps wf.graph r) := by
  unfold updateWorkflow at updated
  split at updated
  next => simp at updated
  next u plan planned =>
    obtain ⟨valid,wf₀,delta,stored₀,existing,looped,_⟩ := planUpdate_ok planned
    obtain rfl := Option.some.inj (stored.symm.trans stored₀)
    have quiet := planUpdate_quiet env r s
    rw [planned] at quiet
    obtain ⟨mid,between,rows⟩ := diffNodes_rows looped stored
    obtain ⟨mid',between',graph,_⟩ := quiet.graph stored
    obtain rfl := Option.some.inj (between.symm.trans between')
    obtain ⟨x,wf',applied,after,graph',schedules,calendars,_⟩ := writeUpdate_ok updated between
    rw [existing,graph] at applied
    have stores := applyDelta_stores (plan_diffed planned stored) distinct (declared_edges distinct valid)
      applied
    have labels : ∀ handler, rowLabels wf' handler = rowLabels mid handler := by
      intro handler
      cases handler <;> simp [rowLabels,schedules,calendars]
    refine ⟨wf',after,?_⟩
    have here : ∀ handler, (rowLabels wf' handler).Perm (edited (editLabels handler wf.graph r.nodes)
        (triggerLabels handler (getRootNodes wf.graph.workflowGraph))) := by
      intro handler
      rw [labels,rows]
      exact edited_perm (traced handler)
    have there : ∀ handler, (triggerLabels handler (getRootNodes wf'.graph.workflowGraph)).Perm
        (requestLabels handler r) := by
      intro handler
      rw [graph']
      exact stores.triggerLabels distinct valid handler
    constructor
    · intro kept handler
      exact ((there handler).symm.trans (kept handler).symm).trans (here handler)
    · intro keeps handler
      exact ((here handler).trans (keeps handler).symm).trans (there handler).symm

end Update

section Calls

inductive Call where
  | create (env : Env) (userID : UserID) (name description status : String)
      (nodes : List WorkflowNodeDTO) (edges : List WorkflowEdgeDTO)
  | update (env : Env) (request : UpdateRequest)
  | archive (env : Env) (workflowID : WorkflowID)

/-- Only a call that succeeds is a step. -/
def succeeded {α : Type} : Reply α → Option Store
  | (t,.ok _) => some t
  | (_,.error _) => none

def Call.step : Call → Store → Option Store
  | .create env userID name description status nodes edges, s =>
    succeeded (createWorkflow env userID name description status nodes edges s)
  | .update env request, s => succeeded (updateWorkflow env request s)
  | .archive env w, s => succeeded (archiveWorkflow env w s)

def service (integrations : UserID → Bool) : System Store Call := ⟨.fresh integrations,Call.step⟩

/-- A save of a workflow in use lists no node twice and keeps the triggers. -/
def Faithful (s : Store) : Call → Prop
  | .update _ r => ∀ wf, s.workflows r.workflowID = some wf → wf.status ≠ .archived →
      (r.nodes.map (·.id)).Nodup ∧ Keeps wf.graph r
  | .create .. | .archive .. => True

def AllTraced (s : Store) : Prop :=
  ∀ w wf, s.workflows w = some wf → wf.status ≠ .archived → Traced wf

variable {s t : Store} {env : Env} {w x : WorkflowID} {wf : Workflow} {r : UpdateRequest} {call : Call}

theorem succeeded_some {α : Type} {reply : Reply α} (ok : succeeded reply = some t) :
    ∃ a, reply = (t,.ok a) := by
  obtain ⟨u,result⟩ := reply
  cases result with
  | ok a => cases ok; exact ⟨a,rfl⟩
  | error => contradiction

theorem archiveTriggers_frame {nodes : List WorkflowNode} (other : x ≠ w) :
    (archiveTriggers env w nodes s).workflows x = s.workflows x := by
  induction nodes generalizing s with
  | nil => rfl
  | cons n rest ih =>
    unfold archiveTriggers
    split
    next => rw [ih,Store.amend_other s _ other]
    next => exact ih

theorem archiveTriggers_status {nodes : List WorkflowNode} :
    ((archiveTriggers env w nodes s).workflows w).map (·.status) = (s.workflows w).map (·.status) := by
  induction nodes generalizing s with
  | nil => rfl
  | cons n rest ih =>
    unfold archiveTriggers
    split
    next => rw [ih,Store.amend_self,Option.map_map]; rfl
    next => exact ih

theorem archiveWorkflow_ok (archived : archiveWorkflow env w s = (t,.ok ())) :
    (∀ x, x ≠ w → t.workflows x = s.workflows x) ∧
    ∀ wf, t.workflows w = some wf → wf.status = .archived := by
  unfold archiveWorkflow at archived
  split at archived
  next => simp at archived
  next wf found =>
    have stored : s.workflows w = some wf := by
      split at found
      next => exact found
      next => contradiction
    split at archived
    next already =>
      cases archived
      refine ⟨fun _ _ => rfl,fun wf' here => ?_⟩
      obtain rfl := Option.some.inj (stored.symm.trans here)
      exact already
    next =>
      split at archived
      next => simp at archived
      next =>
        dsimp only at archived
        split at archived
        next => simp at archived
        next graph _ =>
          cases archived
          refine ⟨fun x other => ?_,fun wf' here => ?_⟩
          · rw [archiveTriggers_frame other]
            exact Store.amend_other s _ other
          · have status : ((archiveTriggers env w (getRootNodes graph) (s.archive w env.now)).workflows w).map
                (·.status) = _ := archiveTriggers_status
            rw [here] at status
            simpa [Store.archive,stored] using status

theorem updateWorkflow_frame (env : Env) (r : UpdateRequest) (s : Store) (other : x ≠ r.workflowID) :
    (updateWorkflow env r s).1.workflows x = s.workflows x := by
  have quiet := planUpdate_quiet env r s
  unfold updateWorkflow
  split
  next t err planned =>
    rw [planned] at quiet
    exact quiet.other x other
  next t plan planned =>
    rw [planned] at quiet
    exact (writeUpdate_other env r plan t other).trans (quiet.other x other)

theorem updateWorkflow_status (updated : updateWorkflow env r s = (t,.ok ())) :
    ∃ wf wf', s.workflows r.workflowID = some wf ∧ t.workflows r.workflowID = some wf' ∧
      wf'.status = wf.status := by
  unfold updateWorkflow at updated
  split at updated
  next => simp at updated
  next u plan planned =>
    obtain ⟨_,wf,_,stored,_⟩ := planUpdate_ok planned
    have quiet := planUpdate_quiet env r s
    rw [planned] at quiet
    obtain ⟨mid,between,_,status,_⟩ := quiet.graph stored
    obtain ⟨_,wf',_,after,_,_,_,status',_⟩ := writeUpdate_ok updated between
    exact ⟨wf,wf',stored,after,status'.trans status⟩

theorem AllTraced.step (traced : AllTraced s) (faithful : Faithful s call) (step : call.step s = some t) :
    AllTraced t := by
  cases call with
  | create env userID name description status nodes edges =>
    obtain ⟨w,created⟩ := succeeded_some step
    obtain ⟨frame,wf,stored,here⟩ := createWorkflow_traced created
    intro x wf' after inUse
    by_cases same : x = s.nextWorkflow
    · subst same
      obtain rfl := Option.some.inj (stored.symm.trans after)
      exact here
    · exact traced x wf' (frame x same ▸ after) inUse
  | update env r =>
    obtain ⟨⟨⟩,updated⟩ := succeeded_some step
    intro x wf' after inUse
    by_cases same : x = r.workflowID
    · subst same
      obtain ⟨wf,wf₁,stored,after₁,status⟩ := updateWorkflow_status updated
      obtain rfl := Option.some.inj (after₁.symm.trans after)
      rw [status] at inUse
      obtain ⟨distinct,keeps⟩ := faithful wf stored inUse
      obtain ⟨wf₂,after₂,iff⟩ := updateWorkflow_traced distinct updated stored (traced _ wf stored inUse)
      obtain rfl := Option.some.inj (after₂.symm.trans after)
      exact iff.mpr keeps
    · have frame := updateWorkflow_frame env r s same
      rw [updated] at frame
      exact traced x wf' (frame ▸ after) inUse
  | archive env w =>
    obtain ⟨⟨⟩,archived⟩ := succeeded_some step
    obtain ⟨frame,status⟩ := archiveWorkflow_ok archived
    intro x wf' after inUse
    by_cases same : x = w
    · subst same
      exact absurd (status wf' after) inUse
    · exact traced x wf' (frame x same ▸ after) inUse

/-- Any run whose saves keep the triggers leaves every workflow in use with its rows. -/
theorem rows_traced (integrations : UserID → Bool) (reach : Reach (service integrations) Faithful s) :
    AllTraced s := by
  refine reach.invariant AllTraced ?_ ?_
  · intro w wf stored
    contradiction
  · intro s call t _ traced faithful step
    exact traced.step faithful step

end Calls

section Runs

instance (p : TriggerHandler → Prop) [DecidablePred p] : Decidable (∀ handler, p handler) :=
  decidable_of_iff (p .schedule ∧ p .calendarEvent)
    ⟨fun both handler => by cases handler; exacts [both.1,both.2],fun all => ⟨all _,all _⟩⟩

instance (wf : Workflow) : Decidable (Traced wf) :=
  inferInstanceAs (Decidable (∀ _ : TriggerHandler, List.Perm _ _))

instance (g : Graph) (r : UpdateRequest) : Decidable (Keeps g r) :=
  inferInstanceAs (Decidable (∀ _ : TriggerHandler, List.Perm _ _))

instance (s : Store) : (call : Call) → Decidable (Faithful s call)
  | .create .. | .archive .. => isTrue trivial
  | .update _ r =>
    match at_ : s.workflows r.workflowID with
    | none => isTrue fun wf stored => by rw [at_] at stored; contradiction
    | some wf =>
      decidable_of_iff (wf.status ≠ .archived → (r.nodes.map (·.id)).Nodup ∧ Keeps wf.graph r)
        ⟨fun holds wf' stored => by rw [at_] at stored; cases stored; exact holds,fun holds => holds wf at_⟩

/-- A surrounding on New Year's Day 2026 that reads one date. -/
def Env.dated : Env := { Env.calm with
  now := 1767225600000
  parseRFC3339 := fun text => if text = "2030-01-01T00:00:00Z" then some 1893456000000 else none
  isFuture := fun date => 1767225600000 < date
  stillFuture := fun date => 1767225600000 < date }

/-- The config of a schedule trigger. -/
def scheduled (scheduleType : String) : Config := { Config.blank with
  scheduleType := some (.str scheduleType)
  scheduledDate := some (.str "2030-01-01T00:00:00Z") }

def trigger (id : ID) (scheduleType : String) : WorkflowNodeDTO :=
  ⟨id,.trigger,"schedule",some (scheduled scheduleType),some ⟨0,0⟩⟩

def mail (id : ID) : WorkflowNodeDTO := ⟨id,.action,"send_email",some .blank,some ⟨0,0⟩⟩

/-- Workflow 1 with a daily trigger, node 1, before a mail, node 2. -/
def reminderStore : Store := (createWorkflow .dated "alice" "reminder" "a daily mail" "active"
  [trigger (.uuid "t") "daily",mail (.uuid "m")] [⟨"",.uuid "t",.uuid "m"⟩] (.fresh fun _ => false)).1

/-- A reminder with a daily trigger before its mail. -/
def reminder : Call := .create .dated "alice" "reminder" "a daily mail" "active"
  [trigger (.uuid "t") "daily",mail (.uuid "m")] [⟨"",.uuid "t",.uuid "m"⟩]

/-- The save that makes the trigger weekly. -/
def weekly : Call := .update .dated ⟨"alice",1,"reminder","a weekly mail",
  [trigger (.row 1) "weekly",mail (.row 2)],[⟨"",.row 1,.row 2⟩]⟩

/-- The save that drops the trigger. -/
def manual : Call := .update .dated ⟨"alice",1,"reminder","no trigger",[mail (.row 2)],[]⟩

theorem weekly_traced : ∃ s, Reach (service fun _ => false) Faithful s ∧
    (s.workflows 1).any (fun wf => wf.schedules.map (·.scheduleType) = [.weekly]) = true ∧ AllTraced s := by
  have run : ∃ s, Reach (service fun _ => false) Faithful s ∧
      (s.workflows 1).any (fun wf => wf.schedules.map (·.scheduleType) = [.weekly]) = true :=
    follow_exists [reminder,weekly] (by decide +kernel)
  obtain ⟨s,reach,row⟩ := run
  exact ⟨s,reach,row,rows_traced _ reach⟩

/-- The row of a dropped trigger stays. -/
theorem manual_untraced : ¬∀ integrations s, Reach (service integrations) (fun _ _ => True) s →
    AllTraced s := by
  intro traced
  have run : ∃ s, Reach (service fun _ => false) (fun _ _ => True) s ∧
      (s.workflows 1).any (fun wf => wf.status ≠ .archived ∧ ¬Traced wf) = true :=
    follow_exists [reminder,manual] (by decide +kernel)
  obtain ⟨s,reach,found⟩ := run
  obtain ⟨wf,stored,holds⟩ := (Option.any_eq_true _ _).mp found
  obtain ⟨inUse,lost⟩ := of_decide_eq_true holds
  exact lost (traced _ s reach 1 wf stored inUse)

end Runs

end TinyAutomator.Workflows
