import TinyAutomator.Workflows.Atomic
import TinyAutomator.Workflows.Calendar
import TinyAutomator.Workflows.CalendarTriggers
import TinyAutomator.Workflows.Creations
import TinyAutomator.Workflows.Transactions
import TinyAutomator.Workflows.Vetted

/-! The save paths with their nil pointers. JSON leaves nodes, edges, configs and positions nil, and
the validators look at the configs only; a nil pointer that is dereferenced ends the call in a panic. -/
namespace TinyAutomator.Workflows.NilPointers

open Deferred

/-- The nodes and edges of a body that has been bound; an entry null is a nil pointer. -/
structure Body where
  nodes : List (Option WorkflowNodeDTO)
  edges : List (Option WorkflowEdgeDTO)

def Stop.wrap (text : String) : Stop → Stop
  | .failed err => .failed (text ++ err)
  | .nilDereference => .nilDereference

/-- `fmt.Errorf` with `%w`; a panic passes through. -/
def wrapping {α : Type} (text : String) : Except Stop α → Except Stop α := Except.mapError (Stop.wrap text)

section Validate

/-- Both loops dereference every entry; from here on the entries are what they point to. -/
def Body.prepForValidate (body : Body) : Except Stop (List WorkflowNodeDTO × List WorkflowEdgeDTO) := do
  let nodes ← body.nodes.mapM dereference
  let edges ← body.edges.mapM dereference
  return (nodes,edges)

end Validate

/-- What the service sees of a call of the repository. -/
def outcome : Option Ending → Except Stop Unit
  | none => .error (.failed "no transaction")
  | some ⟨none,_,_⟩ => .error .nilDereference
  | some ⟨some (some err),_,_⟩ => .error (.failed err)
  | some ⟨some none,_,_⟩ => .ok ()

section Create

/-- What the database does with a creation: which statements fail, the ids that it gives, and the
tables once the transaction is committed. -/
structure Database where
  fails : TxStep → Nat → Bool
  newWorkflow : WorkflowID
  newNode : Nat → NodeID
  written : Store

def createdNodeIDMap (newNode : Nat → NodeID) (nodes : List WorkflowNodeDTO) : NodeIDMap :=
  nodes.zipIdx.foldl (fun ids node => ids.set node.1.id (newNode node.2)) fun _ => 0

/-- GetRootNodes of the graph that the repository returns: its nodes share the configs of the
request. -/
def getRootNodes (newNode : Nat → NodeID) (nodes : List WorkflowNodeDTO) (edges : List WorkflowEdgeDTO) :
    List WorkflowNodeDTO :=
  let ids := createdNodeIDMap newNode nodes
  let targets := edges.map fun edge => ids edge.targetNodeID
  (nodes.zipIdx.filter fun node => newNode node.2 ∉ targets).map (·.1)

def executeTriggers (env : Env) (userID : UserID) (w : WorkflowID) :
    List WorkflowNodeDTO → Store → Store × Except Stop Unit
  | [], s => (s,.ok ())
  | node :: rest, s =>
    if node.category = .trigger then
      match dereference node.config with
      | .error stop => (s,.error stop)
      | .ok config =>
        match TriggerRegistry.execute env rest.length node.nodeType (Config.withIDs config userID w) s with
        | .error err => (s,.error (.failed ("failed to execute trigger: " ++ err)))
        | .ok t => executeTriggers env userID w rest t
    else executeTriggers env userID w rest s

def createWorkflow (env : Env) (db : Database) (userID : UserID) (name description status : String)
    (body : Body) (s : Store) : Store × Except Stop WorkflowID :=
  match body.prepForValidate with
  | .error stop => (s,.error stop)
  | .ok (nodes,edges) =>
    match failing "" (validateRequest env nodes edges) with
    | .error stop => (s,.error stop)
    | .ok () =>
      match wrapping "failed to create workflow: "
        (outcome (createWorkflowTx db.fails userID name description status nodes edges)) with
      | .error stop => (s,.error stop)
      | .ok () =>
        match executeTriggers env userID db.newWorkflow (getRootNodes db.newNode nodes edges) db.written with
        | (t,.error stop) => (t,.error stop)
        | (t,.ok ()) => (t,.ok db.newWorkflow)

end Create

section Update

/-- Update of a handler: only that of the calendar dereferences what may be nil. -/
def updateHandler (env : Env) (left : Nat) (config : Config) (s : Store) : TriggerHandler → Except Stop Store
  | .schedule => failing "" (TriggerHandler.schedule.update env left config s)
  | .calendarEvent => do
    let c ← failing "failed to build calendar config: " (buildCalendarConfig config)
    let some (.int32 workflowID) := config.workflowID | .error (.failed "workflow id is required")
    let some (.str userID) := config.userID | .error (.failed "user id is required")
    let calendarID ← dereference c.calendarID
    let syncToken ← failing "failed to get sync token: " (getSyncToken env s calendarID userID)
    failing "failed to update workflow calendar: failed to validate calendar config: " (validateCalendarConfig c)
    if env.answers (.triggerRow left) then
      return s.amend workflowID fun wf => wf.updateCalendars c syncToken .queued env.now
    else .error (.failed "failed to update workflow calendar: failed to update workflow calendar")

def updateTrigger (env : Env) (left : Nat) (nodeType : String) (config : Config) (s : Store) :
    Except Stop Store :=
  match handlers nodeType with
  | none => .error (.failed ("unknown trigger type: " ++ nodeType))
  | some handler => wrapping "failed to update trigger: " (updateHandler env left config s handler)

def compareUI (old node : WorkflowNodeDTO) (delta : WorkflowDelta) : Except Stop WorkflowDelta := do
  let before ← dereference old.position
  let after ← dereference node.position
  if before.x ≠ after.x ∨ before.y ≠ after.y then
    return { delta with nodesToUpdateUI := delta.nodesToUpdateUI ++ [node] }
  else return delta

/-- A turn of the loop over the nodes of a request. -/
def diffNode (env : Env) (r : UpdateRequest) (existing : List WorkflowNodeDTO) (left : Nat)
    (node : WorkflowNodeDTO) (delta : WorkflowDelta) (s : Store) : Store × Except Stop WorkflowDelta :=
  if ID.isUUID node.id then (s,.ok { delta with nodesToCreate := delta.nodesToCreate ++ [node] })
  else
    match existing.find? fun old => old.id = node.id with
    | none => (s,.error (.failed "node ID is not present in the existing workflow"))
    | some old =>
      if old.category ≠ node.category ∨ old.nodeType ≠ node.nodeType then
        (s,.error (.failed "node category or type cannot be changed"))
      else if old.config = node.config then (s,compareUI old node delta)
      else
        match dereference node.config with
        | .error stop => (s,.error stop)
        | .ok config =>
          let config := Config.withIDs config r.userID r.workflowID
          let node := { node with config := some config }
          match (if node.category = .trigger then
            wrapping "failed to update trigger: " (updateTrigger env left node.nodeType config s) else .ok s) with
          | .error stop => (s,.error stop)
          | .ok t => (t,compareUI old node { delta with nodesToUpdate := delta.nodesToUpdate ++ [node] })

def diffNodes (env : Env) (r : UpdateRequest) (existing : List WorkflowNodeDTO) :
    List WorkflowNodeDTO → WorkflowDelta → Store → Store × Except Stop WorkflowDelta
  | [], delta, s => (s,.ok delta)
  | node :: rest, delta, s =>
    match diffNode env r existing rest.length node delta s with
    | (t,.error stop) => (t,.error stop)
    | (t,.ok delta) => diffNodes env r existing rest delta t

/-- UpdateWorkflow up to its transaction, without its first statement. -/
def planUpdate (env : Env) (r : UpdateRequest) (s : Store) : Store × Except Stop Plan :=
  match failing "" (validateRequest env r.nodes r.edges) with
  | .error stop => (s,.error stop)
  | .ok () =>
    match failing "failed to get workflow: " (renderWorkflowGraph env r.workflowID s) with
    | .error stop => (s,.error stop)
    | .ok existing =>
      match diffNodes env r existing.nodes r.nodes (.start r existing) s with
      | (t,.error stop) => (t,.error stop)
      | (t,.ok delta) => (t,.ok ⟨existing,diffRest r existing delta⟩)

def writeUpdate (fails : TxStep → Nat → Bool) (plan : Plan) : Except Stop Unit :=
  if plan.delta.unchanged then .ok ()
  else wrapping "failed to update workflow: " (outcome (updateWorkflowTx fails plan.delta plan.existing.nodes))

def updateWorkflow (env : Env) (fails : TxStep → Nat → Bool) (userID : UserID) (workflowID : WorkflowID)
    (name description : String) (body : Body) (s : Store) : Store × Except Stop Unit :=
  match body.prepForValidate with
  | .error stop => (s,.error stop)
  | .ok (nodes,edges) =>
    match planUpdate env ⟨userID,workflowID,name,description,nodes,edges⟩ s with
    | (t,.error stop) => (t,.error stop)
    | (t,.ok plan) => (t,writeUpdate fails plan)

end Update

section Conditions

/-- The first insert that does not go through comes to a node without a position. -/
def Unplaced (fails : TxStep → Nat → Bool) (nodes : List WorkflowNodeDTO) : Prop :=
  FirstLost (fun i d => RowPasses (InsertFails fails i) d (fails .createWorkflowNodeUi i))
    (fun i d => ¬InsertFails fails i ∧ d.position = none) nodes

def CreateReturns (env : Env) (fails : TxStep → Nat → Bool) (userID : UserID)
    (name description status : String) (body : Body) : Prop :=
  ∃ nodes edges, body = ⟨nodes.map some,edges.map some⟩ ∧
    (validateRequest env nodes edges = .ok () → userID ≠ "" → name ≠ "" → description ≠ "" → status ≠ "" →
      nodes ≠ [] → fails .beginTx 0 = false → fails .createWorkflow 0 = false → ¬Unplaced fails nodes)

/-- The config names a calendar. -/
def Names (d : WorkflowNodeDTO) (calendarID : String) : Prop :=
  ∃ c, d.config = some c ∧ NamesCalendar c calendarID

/-- A trigger of the calendar that does not name one. -/
structure Unnamed (d : WorkflowNodeDTO) : Prop where
  trigger : d.category = .trigger
  calendar : handlers d.nodeType = some .calendarEvent
  unnamed : ∀ calendarID, ¬Names d calendarID

/-- What the update of a changed trigger needs. -/
structure Served (env : Env) (s : Store) (userID : UserID) (left : Nat) (d : WorkflowNodeDTO) : Prop where
  answers : env.answers (.triggerRow left) = true
  token : handlers d.nodeType = some .calendarEvent → ∃ calendarID, Names d calendarID ∧
    ∃ token, getSyncToken env s calendarID userID = .ok token

/-- The stored node that a requested one stands for. -/
def Stored (existing : List WorkflowNodeDTO) (d old : WorkflowNodeDTO) : Prop :=
  existing.find? (fun old => old.id = d.id) = some old ∧ old.category = d.category ∧ old.nodeType = d.nodeType

/-- The loop gets past a node: it is new, or it is stored, what changes can be updated, and it has
a position. -/
def Passes (env : Env) (s : Store) (userID : UserID) (existing : List WorkflowNodeDTO) (left : Nat)
    (d : WorkflowNodeDTO) : Prop :=
  ID.isUUID d.id = true ∨ ∃ old, Stored existing d old ∧
    (old.config ≠ d.config → d.category = .trigger → Served env s userID left d) ∧ d.position ≠ none

/-- The loop panics at a node: a changed trigger names no calendar, or it comes to the position and
there is none. -/
def Crashes (env : Env) (s : Store) (userID : UserID) (existing : List WorkflowNodeDTO) (left : Nat)
    (d : WorkflowNodeDTO) : Prop :=
  ID.isUUID d.id = false ∧ ∃ old, Stored existing d old ∧ (old.config ≠ d.config ∧ Unnamed d ∨
    (old.config ≠ d.config → d.category = .trigger → Served env s userID left d) ∧ d.position = none)

/-- Among the existing nodes, those that the request does not have. -/
def dropped (existing nodes : List WorkflowNodeDTO) : List WorkflowNodeDTO :=
  existing.filter fun old => old.id ∉ nodes.map (·.id)

def UpdateReturns (env : Env) (fails : TxStep → Nat → Bool) (userID : UserID) (workflowID : WorkflowID)
    (name description : String) (body : Body) (s : Store) : Prop :=
  ∃ nodes edges, body = ⟨nodes.map some,edges.map some⟩ ∧ (validateRequest env nodes edges = .ok () →
    ∀ existing, renderWorkflowGraph env workflowID s = .ok existing →
      ¬FirstLost (fun i => Passes env s userID existing.nodes (nodes.length - 1 - i))
        (fun i => Crashes env s userID existing.nodes (nodes.length - 1 - i)) nodes ∧
      (AllPass (fun i => Passes env s userID existing.nodes (nodes.length - 1 - i)) nodes →
        fails .beginTx 0 = false →
        (existing.name ≠ name ∨ existing.description ≠ description → fails .updateWorkflow 0 = false) →
        (∀ i < (dropped existing.nodes nodes).length, fails .deleteWorkflowNode i = false) →
        (∀ i < existing.nodes.length, fails .existingNodeID i = false) →
        ¬Unplaced fails (nodes.filter fun d => ID.isUUID d.id)))

end Conditions

section Stops

variable {α : Type} {text : String} {y : Except Stop α}

theorem wrapping_nil : wrapping text y = .error .nilDereference ↔ y = .error .nilDereference := by
  rcases y with (_ | _) | _ <;> simp [wrapping,Except.mapError,Stop.wrap]

/-- A loop that dereferences what it ranges over: either no entry is nil, or it panics. -/
theorem dereference_all (l : List (Option α)) : (∃ m, l = m.map some ∧ l.mapM dereference = .ok m) ∨
    none ∈ l ∧ l.mapM dereference = .error .nilDereference := by
  induction l with
  | nil => exact .inl ⟨[],rfl,rfl⟩
  | cons entry rest ih =>
    cases entry with
    | none => exact .inr ⟨List.mem_cons_self,rfl⟩
    | some a =>
      rw [List.mapM_cons,dereference_some]
      rcases ih with ⟨m,rfl,later⟩ | ⟨member,later⟩
      · rw [later]
        exact .inl ⟨a :: m,rfl,rfl⟩
      · rw [later]
        exact .inr ⟨List.mem_cons_of_mem _ member,rfl⟩

theorem prepForValidate_cases (body : Body) :
    (∃ nodes edges, body = ⟨nodes.map some,edges.map some⟩ ∧ body.prepForValidate = .ok (nodes,edges)) ∨
    (none ∈ body.nodes ∨ none ∈ body.edges) ∧ body.prepForValidate = .error .nilDereference := by
  obtain ⟨entries,pairs⟩ := body
  unfold Body.prepForValidate
  rcases dereference_all entries with ⟨nodes,rfl,first⟩ | ⟨member,first⟩
  · rcases dereference_all pairs with ⟨edges,rfl,second⟩ | ⟨member,second⟩
    · rw [first,second]
      exact .inl ⟨nodes,edges,rfl,rfl⟩
    · rw [first,second]
      exact .inr ⟨.inr member,rfl⟩
  · rw [first]
    exact .inr ⟨.inl member,rfl⟩

/-- A body without null entries is that of its entries. -/
theorem full_iff {p : List WorkflowNodeDTO → List WorkflowEdgeDTO → Prop} {nodes : List WorkflowNodeDTO}
    {edges : List WorkflowEdgeDTO} : (∃ nodes' edges', (⟨nodes.map some,edges.map some⟩ : Body) =
      ⟨nodes'.map some,edges'.map some⟩ ∧ p nodes' edges') ↔ p nodes edges := by
  constructor
  · rintro ⟨nodes',edges',same,holds⟩
    injection same with sameNodes sameEdges
    cases (List.map_inj_right fun _ _ => Option.some.inj).mp sameNodes
    cases (List.map_inj_right fun _ _ => Option.some.inj).mp sameEdges
    exact holds
  · exact fun holds => ⟨nodes,edges,rfl,holds⟩

theorem outcome_nil {call : Option Ending} :
    outcome call = .error .nilDereference ↔ ∃ ending, call = some ending ∧ ending.returned = none := by
  rcases call with _ | ⟨_ | _ | _,_,_⟩ <;> simp [outcome]

end Stops

section Creations

variable {fails : TxStep → Nat → Bool} {nodes : List WorkflowNodeDTO} {edges : List WorkflowEdgeDTO}
  {i : Nat} {d : WorkflowNodeDTO} {x : Deferred.Body Unit} {ui : Bool} {text : String} {before : Prop}

/-- Some steps that do not panic, the position, and the statement for the user interface. -/
theorem row_panics (pass : x = .ok () ↔ ¬before) (none_ : ¬Deferred.Panics x) :
    Deferred.Panics (x >>= fun _ => deref nilDereference d.position >>= fun _ => shadowed text ui) ↔
      ¬before ∧ d.position = none := by
  rw [panics_bind,panics_bind,or_iff_right none_,pass,panics_deref]
  simp

theorem insertNode_panics {node uiText : String} :
    Deferred.Panics (insertNode fails node uiText i d) ↔ ¬InsertFails fails i ∧ d.position = none :=
  row_panics (by simp [InsertFails]) panics_attempts

theorem createNodeTurn_panics :
    Deferred.Panics (createNodeTurn fails i d) ↔ ¬CreateFails fails i d ∧ d.position = none := by
  rw [createNodeTurn,panics_bind,or_iff_right panics_shadowed,passes_shadowed,insertNode_panics]
  unfold CreateFails
  cases missing d <;> simp

/-- Nodes that are complete fail for what the database answers only. -/
theorem unplaced_iff (complete : ∀ d ∈ nodes, missing d = none) :
    FirstLost (fun i d => RowPasses (CreateFails fails i d) d (fails .createWorkflowNodeUi i))
      (fun i d => ¬CreateFails fails i d ∧ d.position = none) nodes ↔ Unplaced fails nodes := by
  have same : ∀ (i : Nat) d, nodes[i]? = some d → (CreateFails fails i d ↔ InsertFails fails i) := by
    intro i d at_
    have whole := complete d (List.mem_of_getElem? at_)
    exact or_iff_right fun misses => misses whole
  constructor
  · refine FirstLost.mono (fun i d at_ passes => ?_) fun i d at_ crashes => ?_
    · exact ⟨fun either => passes.1 ((same i d at_).mpr either),passes.2⟩
    · exact ⟨fun either => crashes.1 ((same i d at_).mpr either),crashes.2⟩
  · refine FirstLost.mono (fun i d at_ passes => ?_) fun i d at_ crashes => ?_
    · exact ⟨fun either => passes.1 ((same i d at_).mp either),passes.2⟩
    · exact ⟨fun either => crashes.1 ((same i d at_).mp either),crashes.2⟩

theorem createWorkflowTx_panics {userID : UserID} {name description status : String}
    (complete : ∀ d ∈ nodes, missing d = none) :
    outcome (createWorkflowTx fails userID name description status nodes edges) = .error .nilDereference ↔
      userID ≠ "" ∧ name ≠ "" ∧ description ≠ "" ∧ status ≠ "" ∧ nodes ≠ [] ∧ fails .beginTx 0 = false ∧
        fails .createWorkflow 0 = false ∧ Unplaced fails nodes := by
  have loop := @inTurn_panics _ (createNodeTurn fails) nodes _ _ (fun _ _ => createNodeTurn_turn.1)
    fun _ _ => createNodeTurn_panics
  have edgeLoop : ¬Deferred.Panics (inTurn (createEdgeTurn fails) 0 edges) :=
    never_inTurn fun _ _ => panics_attempts
  rw [outcome_nil,← unplaced_iff complete]
  unfold createWorkflowTx
  split
  next incomplete =>
    refine iff_of_false nofun fun ⟨user,name_,description_,status_,_⟩ => ?_
    rcases incomplete with h | h | h | h <;> contradiction
  next metadata =>
    simp only [not_or] at metadata
    obtain ⟨user,name_,description_,status_⟩ := metadata
    simp only [user,name_,description_,status_,ne_eq,not_false_eq_true,true_and]
    split
    next none_ => exact iff_of_false nofun fun some_ => some_.1 none_
    next some_ =>
      split
      next refused =>
        refine iff_of_false nofun fun begun => ?_
        rw [refused] at begun
        exact absurd begun.2.1 (by simp)
      next begun =>
        simp only [Option.some.injEq,exists_eq_left',transact_panics,panics_bind,loop,edgeLoop,passes_held,
          panics_held,panics_shadowed,some_,begun,not_false_eq_true,true_and,and_false,or_false,false_or]

/-- After the commit only configs are dereferenced. -/
theorem executeTriggers_returns (env : Env) (userID : UserID) (w : WorkflowID)
    (configured : ∀ d ∈ nodes, d.config ≠ none) (s : Store) :
    (executeTriggers env userID w nodes s).2 ≠ .error .nilDereference := by
  induction nodes generalizing s with
  | nil => exact nofun
  | cons d rest ih =>
    have later := ih fun e member => configured e (List.mem_cons_of_mem _ member)
    unfold executeTriggers
    split
    next =>
      obtain ⟨c,given⟩ := Option.ne_none_iff_exists'.mp (configured d List.mem_cons_self)
      rw [given,dereference_some]
      dsimp only
      split
      next => exact nofun
      next t _ => exact later t
    next => exact later s

theorem mem_rootNodes {newNode : Nat → NodeID} (root : d ∈ getRootNodes newNode nodes edges) : d ∈ nodes := by
  obtain ⟨node,member,rfl⟩ := List.mem_map.mp root
  obtain ⟨_,_,at_⟩ := List.mem_zipIdx (List.mem_filter.mp member).1
  rw [at_]
  exact List.getElem_mem _

theorem create_returns (env : Env) (db : Database) (userID : UserID) (name description status : String)
    (body : Body) (s : Store) :
    (createWorkflow env db userID name description status body s).2 ≠ .error .nilDereference ↔
      CreateReturns env db.fails userID name description status body := by
  unfold createWorkflow CreateReturns
  rcases prepForValidate_cases body with ⟨nodes,edges,rfl,prepared⟩ | ⟨null,panics⟩
  · rw [prepared,full_iff]
    dsimp only
    cases valid : validateRequest env nodes edges with
    | error err => exact iff_of_true nofun nofun
    | ok =>
      have checked := (validateRequest_ok valid).2
      have tx := @createWorkflowTx_panics db.fails nodes edges userID name description status fun d member =>
        validateNode_missing (checked d member)
      have conditions : ¬(userID ≠ "" ∧ name ≠ "" ∧ description ≠ "" ∧ status ≠ "" ∧ nodes ≠ [] ∧
          db.fails .beginTx 0 = false ∧ db.fails .createWorkflow 0 = false ∧ Unplaced db.fails nodes) ↔
          (Except.ok () = (Except.ok () : Except String Unit) → userID ≠ "" → name ≠ "" → description ≠ "" →
            status ≠ "" → nodes ≠ [] → db.fails .beginTx 0 = false → db.fails .createWorkflow 0 = false →
            ¬Unplaced db.fails nodes) := by
        simp only [not_and,true_imp_iff]
      rw [← conditions,← tx,← @wrapping_nil _ "failed to create workflow: "]
      cases wrapping "failed to create workflow: "
          (outcome (createWorkflowTx db.fails userID name description status nodes edges)) with
      | error stop =>
        dsimp only [failing]
        rw [Ne,Except.error.injEq,Except.error.injEq]
      | ok =>
        refine iff_of_true ?_ nofun
        have configured : ∀ d ∈ getRootNodes db.newNode nodes edges, d.config ≠ none := by
          intro d root
          obtain ⟨c,given⟩ := validateNode_config (checked d (mem_rootNodes root))
          rw [given]
          exact nofun
        have executed := executeTriggers_returns env userID db.newWorkflow configured db.written
        dsimp only [failing]
        split
        next t stop fired =>
          rw [fired] at executed
          exact fun same => executed (congrArg _ (Except.error.inj same))
        next => exact nofun
  · rw [panics]
    refine iff_of_false (fun returns => returns rfl) ?_
    rintro ⟨nodes,edges,rfl,_⟩
    simp at null

end Creations

section Turns

variable {env : Env} {r : UpdateRequest} {s t : Store} {userID : UserID} {existing nodes : List WorkflowNodeDTO}
  {left : Nat} {d old : WorkflowNodeDTO} {delta delta' : WorkflowDelta} {c : Config} {w : WorkflowID}

theorem getSyncToken_same (same : t.integrations = s.integrations) (calendarID : String) :
    getSyncToken env t calendarID userID = getSyncToken env s calendarID userID := by
  rw [getSyncToken,getSyncToken,same]

theorem Served.same (same : t.integrations = s.integrations) (served : Served env t userID left d) :
    Served env s userID left d where
  answers := served.answers
  token calendar := by
    obtain ⟨calendarID,names,token,answered⟩ := served.token calendar
    exact ⟨calendarID,names,token,getSyncToken_same same calendarID ▸ answered⟩

theorem Served.named (served : Served env s userID left d) : ¬Unnamed d := by
  intro unnamed
  obtain ⟨calendarID,names,_⟩ := served.token unnamed.calendar
  exact unnamed.unnamed calendarID names

theorem updateSchedule_cases (built : ∃ sc, buildScheduleConfig env.parseRFC3339 c = .ok sc) (s : Store)
    (userID : UserID) (w : WorkflowID) (left : Nat) :
    env.answers (.triggerRow left) = true ∧ (∃ t, updateHandler env left (Config.withIDs c userID w) s .schedule =
      .ok t ∧ t.integrations = s.integrations) ∨
    env.answers (.triggerRow left) = false ∧
      ∃ err, updateHandler env left (Config.withIDs c userID w) s .schedule = .error (.failed err) := by
  obtain ⟨sc,built⟩ := built
  have built' : buildScheduleConfig env.parseRFC3339 (Config.withIDs c userID w) = .ok sc := built
  cases answers : env.answers (.triggerRow left) with
  | true =>
    refine .inl ⟨rfl,s.amend w fun wf => wf.updateSchedules sc.scheduleType (some sc.scheduledDate) none env.now,?_,rfl⟩
    rw [updateHandler,TriggerHandler.update,built']
    dsimp only [wrap,bind,Except.bind,Config.withIDs]
    rw [answers]
    rfl
  | false =>
    refine .inr ⟨rfl,"" ++ "failed to update workflow schedule: db error update workflow schedule",?_⟩
    rw [updateHandler,TriggerHandler.update,built']
    dsimp only [wrap,bind,Except.bind,Config.withIDs]
    rw [answers]
    rfl

/-- That of a calendar trigger dereferences the calendar id and asks for a sync token. -/
theorem updateCalendar_eq {cc : CalendarConfig} (built : buildCalendarConfig c = .ok cc)
    (checked : validateCalendarConfig cc = .ok ()) (s : Store) (userID : UserID) (w : WorkflowID) (left : Nat) :
    updateHandler env left (Config.withIDs c userID w) s .calendarEvent =
      (dereference cc.calendarID).bind fun calendarID =>
        (failing "failed to get sync token: " (getSyncToken env s calendarID userID)).bind fun syncToken =>
          if env.answers (.triggerRow left) then
            .ok (s.amend w fun wf => wf.updateCalendars cc syncToken .queued env.now)
          else .error (.failed "failed to update workflow calendar: failed to update workflow calendar") := by
  have built' : buildCalendarConfig (Config.withIDs c userID w) = .ok cc := built
  rw [updateHandler,built']
  dsimp only [failing,bind,Except.bind,Config.withIDs]
  rw [checked]
  rfl

/-- The names of a node are the calendar ids of its config, of which there is one at most. -/
theorem names_built {cc : CalendarConfig} (given : d.config = some c) (built : buildCalendarConfig c = .ok cc)
    (calendarID : String) : Names d calendarID ↔ cc.calendarID = some calendarID := by
  rw [built_calendarID built]
  constructor
  · rintro ⟨c',given',named⟩
    cases given.symm.trans given'
    exact named
  · exact fun named => ⟨c,given,named⟩

/-- The update of a validated trigger panics without a calendar, and goes through if it is served. -/
theorem updateTrigger_cases (given : d.config = some c) (trigger : d.category = .trigger)
    (valid : TriggerRegistry.validate env d.nodeType c = .ok ()) (s : Store) (userID : UserID) (w : WorkflowID)
    (left : Nat) :
    Unnamed d ∧ updateTrigger env left d.nodeType (Config.withIDs c userID w) s = .error .nilDereference ∨
    Served env s userID left d ∧ (∃ t, updateTrigger env left d.nodeType (Config.withIDs c userID w) s = .ok t ∧
      t.integrations = s.integrations) ∨
    ¬Unnamed d ∧ ¬Served env s userID left d ∧
      ∃ err, updateTrigger env left d.nodeType (Config.withIDs c userID w) s = .error (.failed err) := by
  obtain ⟨handler,registered,passed⟩ := registry_validate_iff.mp valid
  simp only [updateTrigger,registered]
  cases handler with
  | schedule =>
    have other : handlers d.nodeType ≠ some .calendarEvent := by
      rw [registered]
      nofun
    obtain ⟨sc,built,_⟩ := schedule_validate_iff.mp passed
    rcases updateSchedule_cases ⟨sc,built⟩ s userID w left with ⟨answers,t,updated,same⟩ | ⟨refused,err,failed⟩
    · rw [updated]
      exact .inr (.inl ⟨⟨answers,fun calendar => absurd calendar other⟩,t,rfl,same⟩)
    · rw [failed]
      refine .inr (.inr ⟨fun unnamed => other unnamed.calendar,fun served => ?_,_,rfl⟩)
      exact absurd (refused.symm.trans served.answers) nofun
  | calendarEvent =>
    obtain ⟨cc,built,checked⟩ := calendar_validate_iff.mp passed
    rw [updateCalendar_eq built checked]
    have names := names_built given built
    cases named : cc.calendarID with
    | none =>
      refine .inl ⟨⟨trigger,registered,fun calendarID known => ?_⟩,rfl⟩
      rw [names,named] at known
      contradiction
    | some calendarID =>
      have known : Names d calendarID := (names calendarID).mpr named
      have only : ∀ other, Names d other → other = calendarID := fun other also =>
        Option.some.inj (((names other).mp also).symm.trans named)
      rw [dereference_some]
      dsimp only [Except.bind]
      cases token : getSyncToken env s calendarID userID with
      | error err =>
        refine .inr (.inr ⟨fun unnamed => unnamed.unnamed calendarID known,fun served => ?_,_,rfl⟩)
        obtain ⟨other,also,token',answered⟩ := served.token registered
        rw [only other also,token] at answered
        contradiction
      | ok syncToken =>
        dsimp only [failing]
        cases answers : env.answers (.triggerRow left) with
        | true => exact .inr (.inl ⟨⟨answers,fun _ => ⟨calendarID,known,syncToken,token⟩⟩,_,rfl,rfl⟩)
        | false =>
          refine .inr (.inr ⟨fun unnamed => unnamed.unnamed calendarID known,fun served => ?_,_,rfl⟩)
          exact absurd (answers.symm.trans served.answers) nofun

/-- The rows that a turn or some turns have added to a delta. -/
structure Grown (nodes : List WorkflowNodeDTO) (delta delta' : WorkflowDelta) : Prop where
  created : delta'.nodesToCreate = delta.nodesToCreate ++ nodes.filter fun d => ID.isUUID d.id
  updated : (∀ d ∈ delta.nodesToUpdate, d.position ≠ none) → ∀ d ∈ delta'.nodesToUpdate, d.position ≠ none
  moved : (∀ d ∈ delta.nodesToUpdateUI, d.position ≠ none) → ∀ d ∈ delta'.nodesToUpdateUI, d.position ≠ none
  metadata : delta'.updateMetadata = delta.updateMetadata

theorem Grown.trans {first later : List WorkflowNodeDTO} {delta'' : WorkflowDelta}
    (grown : Grown first delta delta') (more : Grown later delta' delta'') : Grown (first ++ later) delta delta'' where
  created := by rw [more.created,grown.created,List.filter_append,List.append_assoc]
  updated placed := more.updated (grown.updated placed)
  moved placed := more.moved (grown.moved placed)
  metadata := more.metadata.trans grown.metadata

/-- What a turn comes to. -/
inductive Turn (env : Env) (s : Store) (userID : UserID) (existing : List WorkflowNodeDTO) (left : Nat)
    (d : WorkflowNodeDTO) (delta : WorkflowDelta) : Store × Except Stop WorkflowDelta → Prop where
  | passed {t : Store} {delta' : WorkflowDelta} (passes : Passes env s userID existing left d)
      (same : t.integrations = s.integrations) (grown : Grown [d] delta delta') :
      Turn env s userID existing left d delta (t,.ok delta')
  | crashed {t : Store} (crashes : Crashes env s userID existing left d) :
      Turn env s userID existing left d delta (t,.error .nilDereference)
  | failed {t : Store} {err : String} (stops : ¬Passes env s userID existing left d)
      (returns : ¬Crashes env s userID existing left d) :
      Turn env s userID existing left d delta (t,.error (.failed err))

theorem Stored.unique {other : WorkflowNodeDTO} (stored : Stored existing d old) (also : Stored existing d other) :
    other = old :=
  Option.some.inj (also.1.symm.trans stored.1)

theorem compareUI_turn {node : WorkflowNodeDTO} {before : Position} (oldPosition : old.position = some before)
    (position : node.position = d.position) (plain : ID.isUUID d.id = false) (stored : Stored existing d old)
    (served : old.config ≠ d.config → d.category = .trigger → Served env s userID left d)
    (same : t.integrations = s.integrations) (grown : d.position ≠ none → Grown [d] delta delta') :
    Turn env s userID existing left d delta (t,compareUI old node delta') := by
  rw [compareUI,oldPosition,dereference_some,position]
  cases placed : d.position with
  | none => exact .crashed ⟨plain,old,stored,.inr ⟨served,placed⟩⟩
  | some after =>
    have some_ : d.position ≠ none := by
      rw [placed]
      nofun
    have grown := grown some_
    have passes : Passes env s userID existing left d := .inr ⟨old,stored,served,some_⟩
    rw [dereference_some]
    dsimp only [bind,Except.bind]
    split
    next =>
      refine .passed passes same ⟨grown.created,grown.updated,fun all => ?_,grown.metadata⟩
      refine List.forall_mem_append.mpr ⟨grown.moved all,List.forall_mem_singleton.mpr ?_⟩
      rw [position]
      exact some_
    next => exact .passed passes same grown

/-- A changed trigger that names a calendar and is not served stops the loop with an error. -/
theorem unserved_turn {err : String} (plain : ID.isUUID d.id = false) (stored : Stored existing d old)
    (changed : old.config ≠ d.config) (trigger : d.category = .trigger) (named : ¬Unnamed d)
    (unserved : ¬Served env s userID left d) :
    Turn env s userID existing left d delta (t,.error (.failed err)) := by
  refine .failed ?_ ?_
  · rintro (uuid | ⟨other,also,served,_⟩)
    · exact absurd (plain.symm.trans uuid) nofun
    · cases stored.unique also
      exact unserved (served changed trigger)
  · rintro ⟨_,other,also,⟨_,unnamed⟩ | ⟨served,_⟩⟩
    · exact named unnamed
    · cases stored.unique also
      exact unserved (served changed trigger)

theorem diffNode_turn (valid : validateNode env d = .ok ()) (rendered : ∀ old ∈ existing, old.position ≠ none)
    (s : Store) (left : Nat) (delta : WorkflowDelta) :
    Turn env s r.userID existing left d delta (diffNode env r existing left d delta s) := by
  unfold diffNode
  split
  next uuid =>
    refine .passed (.inl uuid) rfl ⟨?_,id,id,rfl⟩
    simp [uuid]
  next plain =>
    have plain := Bool.eq_false_iff.mpr plain
    have stays : delta.nodesToCreate = delta.nodesToCreate ++ [d].filter fun d => ID.isUUID d.id := by simp [plain]
    have unknown : (∀ old, ¬Stored existing d old) → ∀ err,
        Turn env s r.userID existing left d delta (s,.error (.failed err)) := by
      intro none_ err
      refine .failed ?_ fun ⟨_,old,stored,_⟩ => none_ old stored
      rintro (uuid | ⟨old,stored,_⟩)
      · exact absurd (plain.symm.trans uuid) nofun
      · exact none_ old stored
    split
    next missing => exact unknown (fun old stored => absurd (missing.symm.trans stored.1) nofun) _
    next old found =>
      split
      next differs =>
        refine unknown (fun other stored => ?_) _
        cases found.symm.trans stored.1
        exact differs.elim (fun category => category stored.2.1) fun nodeType => nodeType stored.2.2
      next kind =>
        simp only [ne_eq,not_or,not_not] at kind
        have stored : Stored existing d old := ⟨found,kind⟩
        obtain ⟨before,position⟩ := Option.ne_none_iff_exists'.mp (rendered old (List.mem_of_find?_eq_some found))
        split
        next same =>
          exact compareUI_turn position rfl plain stored (fun changed => absurd same changed) rfl fun _ =>
            ⟨stays,id,id,rfl⟩
        next changed =>
          obtain ⟨c,given⟩ := validateNode_config valid
          rw [given,dereference_some]
          dsimp only
          have grown : d.position ≠ none → Grown [d] delta { delta with nodesToUpdate := delta.nodesToUpdate ++
              [{ d with config := some (Config.withIDs c r.userID r.workflowID) }] } := fun some_ =>
            ⟨stays,fun all => List.forall_mem_append.mpr ⟨all,List.forall_mem_singleton.mpr some_⟩,id,rfl⟩
          by_cases trigger : d.category = .trigger
          · rw [if_pos trigger]
            rcases updateTrigger_cases given trigger (validateNode_trigger valid given trigger) s r.userID
                r.workflowID left with ⟨unnamed,panics⟩ | ⟨served,t,updated,same⟩ | ⟨named,unserved,err,failed⟩
            · rw [panics]
              exact .crashed ⟨plain,old,stored,.inl ⟨changed,unnamed⟩⟩
            · rw [updated]
              exact compareUI_turn position rfl plain stored (fun _ _ => served) same grown
            · rw [failed]
              exact unserved_turn plain stored changed trigger named unserved
          · rw [if_neg trigger]
            exact compareUI_turn position rfl plain stored (fun _ is => absurd is trigger) rfl grown

theorem Passes.returns (passes : Passes env s userID existing left d) : ¬Crashes env s userID existing left d := by
  rintro ⟨plain,old,stored,crashes⟩
  rcases passes with uuid | ⟨other,also,served,placed⟩
  · exact absurd (plain.symm.trans uuid) nofun
  · cases stored.unique also
    rcases crashes with ⟨changed,unnamed⟩ | ⟨_,unplaced⟩
    · exact (served changed unnamed.trigger).named unnamed
    · exact placed unplaced

/-- Passing and crashing depend on the tables only as far as the integrations. -/
theorem Passes.same (same : t.integrations = s.integrations) (passes : Passes env t userID existing left d) :
    Passes env s userID existing left d := by
  rcases passes with uuid | ⟨old,stored,served,placed⟩
  · exact .inl uuid
  · exact .inr ⟨old,stored,fun changed trigger => (served changed trigger).same same,placed⟩

theorem Crashes.same (same : t.integrations = s.integrations) (crashes : Crashes env t userID existing left d) :
    Crashes env s userID existing left d := by
  obtain ⟨plain,old,stored,unnamed | ⟨served,unplaced⟩⟩ := crashes
  · exact ⟨plain,old,stored,.inl unnamed⟩
  · exact ⟨plain,old,stored,.inr ⟨fun changed trigger => (served changed trigger).same same,unplaced⟩⟩

/-- The loop over the nodes panics at the first node that it does not get past, if that is one. -/
theorem diffNodes_run (valid : ∀ d ∈ nodes, validateNode env d = .ok ())
    (rendered : ∀ old ∈ existing, old.position ≠ none) (s : Store) (delta : WorkflowDelta) :
    ((diffNodes env r existing nodes delta s).2 = .error .nilDereference ↔
      FirstLost (fun i => Passes env s r.userID existing (nodes.length - 1 - i))
        (fun i => Crashes env s r.userID existing (nodes.length - 1 - i)) nodes) ∧
    (AllPass (fun i => Passes env s r.userID existing (nodes.length - 1 - i)) nodes →
      ∃ t delta', diffNodes env r existing nodes delta s = (t,.ok delta')) ∧
    ∀ t delta', diffNodes env r existing nodes delta s = (t,.ok delta') →
      AllPass (fun i => Passes env s r.userID existing (nodes.length - 1 - i)) nodes ∧ Grown nodes delta delta' := by
  induction nodes generalizing s delta with
  | nil =>
    refine ⟨iff_of_false nofun ?_,fun _ => ⟨s,delta,rfl⟩,?_⟩
    · rintro ⟨i,d,at_,_⟩
      contradiction
    · intro t delta' ended
      cases ended
      exact ⟨fun i d at_ => by contradiction,(List.append_nil _).symm,id,id,rfl⟩
  | cons d rest ih =>
    have turn := diffNode_turn (r := r) (valid d List.mem_cons_self) rendered s rest.length delta
    have left : ∀ i, (d :: rest).length - 1 - (i + 1) = rest.length - 1 - i := by
      intro i
      rw [List.length_cons]
      omega
    have first : (d :: rest).length - 1 - 0 = rest.length := rfl
    rw [firstLost_cons,allPass_cons,diffNodes]
    simp only [left,first]
    generalize diffNode env r existing rest.length d delta s = result at turn ⊢
    cases turn with
    | @passed t delta₁ passes same grown =>
      obtain ⟨panics,ends,ended⟩ := ih (fun e member => valid e (List.mem_cons_of_mem _ member)) t delta₁
      dsimp only
      rw [panics,or_iff_right passes.returns,and_iff_right passes]
      refine ⟨⟨FirstLost.mono (fun _ _ _ => .same same) fun _ _ _ => .same same,
        FirstLost.mono (fun _ _ _ => .same same.symm) fun _ _ _ => .same same.symm⟩,?_,?_⟩
      · exact fun all => ends fun i e at_ => (all.2 i e at_).same same.symm
      · intro u delta₂ later
        obtain ⟨all,more⟩ := ended u delta₂ later
        exact ⟨⟨passes,fun i e at_ => (all i e at_).same same⟩,grown.trans more⟩
    | crashed crashes =>
      have stops : ¬Passes env s r.userID existing rest.length d := fun passes => passes.returns crashes
      exact ⟨iff_of_true rfl (.inl crashes),fun all => absurd all.1 stops,by simp⟩
    | failed stops returns =>
      refine ⟨iff_of_false (by simp) ?_,fun all => absurd all.1 stops,by simp⟩
      exact fun either => either.elim returns fun later => stops later.1

end Turns

section Saves

variable {env : Env} {fails : TxStep → Nat → Bool} {r : UpdateRequest} {s : Store} {delta : WorkflowDelta}
  {existing nodes : List WorkflowNodeDTO}

theorem placed_loop {f : Nat → WorkflowNodeDTO → Deferred.Body Unit}
    (panics : ∀ i d, Deferred.Panics (f i d) → d.position = none) (placed : ∀ d ∈ nodes, d.position ≠ none) :
    ¬Deferred.Panics (inTurn f 0 nodes) := by
  rw [panics_inTurn]
  rintro ⟨i,d,at_,panic,_⟩
  exact placed d (List.mem_of_getElem? at_) (panics _ d panic)

/-- With its positions in place, the transaction of a save panics in its inserts only. -/
theorem updateWorkflowTx_panics (updated : ∀ d ∈ delta.nodesToUpdate, d.position ≠ none)
    (moved : ∀ d ∈ delta.nodesToUpdateUI, d.position ≠ none) :
    outcome (updateWorkflowTx fails delta existing) = .error .nilDereference ↔
      fails .beginTx 0 = false ∧ (delta.updateMetadata = true → fails .updateWorkflow 0 = false) ∧
      (∀ i < delta.nodeIDsToDelete.length, fails .deleteWorkflowNode i = false) ∧
      (∀ i < existing.length, fails .existingNodeID i = false) ∧ Unplaced fails delta.nodesToCreate := by
  have inserts := @inTurn_panics _ (insertNodeTurn fails) delta.nodesToCreate _ _
    (fun _ _ => insertNode_turn.1) fun _ _ => insertNode_panics
  have updates : ¬Deferred.Panics (inTurn (updateNodeTurn fails) 0 delta.nodesToUpdate) := by
    refine placed_loop (fun i d panics => ?_) updated
    have turn : Deferred.Panics (updateNodeTurn fails i d) ↔ ¬UpdateFails fails i ∧ d.position = none :=
      row_panics (by simp [UpdateFails]) panics_attempts
    exact (turn.mp panics).2
  have moves : ¬Deferred.Panics (inTurn (moveNodeTurn fails) 0 delta.nodesToUpdateUI) := by
    refine placed_loop (fun i d panics => ?_) moved
    have turn : Deferred.Panics (moveNodeTurn fails i d) ↔ ¬fails .moveNodeID i = true ∧ d.position = none :=
      row_panics (by simp) panics_attempts
    exact (turn.mp panics).2
  have deletes : ¬Deferred.Panics (inTurn (deleteNodeTurn fails) 0 delta.nodeIDsToDelete) :=
    never_inTurn fun _ _ => panics_held
  have ids : ¬Deferred.Panics (inTurn (existingNodeTurn fails) 0 existing) :=
    never_inTurn fun _ _ => panics_shadowed
  have cuts : ¬Deferred.Panics (inTurn (deleteEdgeTurn fails) 0 delta.edgesToDelete) :=
    never_inTurn fun _ _ => panics_attempts
  have adds : ¬Deferred.Panics (inTurn (addEdgeTurn fails) 0 delta.edgesToAdd) :=
    never_inTurn fun _ _ => panics_held
  have deleted := @passes_each _ (deleteNodeTurn fails) delta.nodeIDsToDelete _ fun _ _ => passes_held
  have known := @passes_each _ (existingNodeTurn fails) existing _ fun _ _ => passes_shadowed
  rw [outcome_nil]
  unfold updateWorkflowTx
  split
  next refused =>
    refine iff_of_false (by simp) fun begun => ?_
    rw [refused] at begun
    exact absurd begun.1 (by simp)
  next begun =>
    simp only [Option.some.injEq,exists_eq_left',transact_panics,panics_bind,panics_held,passes_held,inserts,
      updates,moves,deletes,ids,cuts,adds,deleted,known,and_false,or_false,false_or]
    simp [begun,Unplaced]


theorem dropped_length (rows : List NodeRow) (existingDTO : WorkflowGraphDTO)
    (same : existingDTO.nodes = rows.map NodeRow.dto) :
    (diffRest r existingDTO delta).nodeIDsToDelete.length = (dropped existingDTO.nodes r.nodes).length := by
  have named : ∀ n : NodeID, ID.row n ∈ (r.nodes.map (·.id)).filter (fun id => !ID.isUUID id) ↔
      ID.row n ∈ r.nodes.map (·.id) := by
    intro n
    rw [List.mem_filter]
    exact and_iff_left rfl
  have dropped_ : existingDTO.nodes.filter (fun old => old.id ∉ (r.nodes.map (·.id)).filter fun id => !ID.isUUID id) =
      dropped existingDTO.nodes r.nodes := by
    refine List.filter_congr fun old member => ?_
    rw [same] at member
    obtain ⟨row,_,rfl⟩ := List.mem_map.mp member
    exact decide_eq_decide.mpr (not_congr (named row.id))
  have all : ∀ old ∈ dropped existingDTO.nodes r.nodes, (ID.atoi old.id).isSome = true := by
    intro old member
    have member := (List.mem_filter.mp member).1
    rw [same] at member
    obtain ⟨row,_,rfl⟩ := List.mem_map.mp member
    rfl
  rw [diffRest,dropped_]
  exact List.filterMap_length_eq_length.mpr all

theorem writeUpdate_panics {existing : WorkflowGraphDTO} (grown : Grown r.nodes (.start r existing) delta)
    (rows : List NodeRow) (same : existing.nodes = rows.map NodeRow.dto) :
    writeUpdate fails ⟨existing,diffRest r existing delta⟩ = .error .nilDereference ↔
      fails .beginTx 0 = false ∧
      (existing.name ≠ r.name ∨ existing.description ≠ r.description → fails .updateWorkflow 0 = false) ∧
      (∀ i < (dropped existing.nodes r.nodes).length, fails .deleteWorkflowNode i = false) ∧
      (∀ i < existing.nodes.length, fails .existingNodeID i = false) ∧
      Unplaced fails (r.nodes.filter fun d => ID.isUUID d.id) := by
  have created : (diffRest r existing delta).nodesToCreate = r.nodes.filter fun d => ID.isUUID d.id :=
    grown.created
  have metadata : (diffRest r existing delta).updateMetadata = true ↔
      existing.name ≠ r.name ∨ existing.description ≠ r.description := by
    have kept : (diffRest r existing delta).updateMetadata = (WorkflowDelta.start r existing).updateMetadata :=
      grown.metadata
    rw [kept]
    exact decide_eq_true_iff
  have tx := @updateWorkflowTx_panics fails (diffRest r existing delta) existing.nodes
    (grown.updated fun _ none_ => absurd none_ List.not_mem_nil)
    (grown.moved fun _ none_ => absurd none_ List.not_mem_nil)
  rw [metadata,created,dropped_length rows existing same] at tx
  rw [← tx,writeUpdate]
  split
  next unchanged =>
    refine iff_of_false nofun fun panics => ?_
    obtain ⟨_,_,_,_,i,d,at_,_⟩ := tx.mp panics
    rw [← created,unchanged.2.1] at at_
    contradiction
  next => exact wrapping_nil

theorem update_returns (env : Env) (fails : TxStep → Nat → Bool) (userID : UserID) (workflowID : WorkflowID)
    (name description : String) (body : Body) (s : Store) :
    (updateWorkflow env fails userID workflowID name description body s).2 ≠ .error .nilDereference ↔
      UpdateReturns env fails userID workflowID name description body s := by
  unfold updateWorkflow UpdateReturns
  rcases prepForValidate_cases body with ⟨nodes,edges,rfl,prepared⟩ | ⟨null,panics⟩
  · rw [prepared,full_iff]
    dsimp only
    unfold planUpdate
    dsimp only
    cases valid : validateRequest env nodes edges with
    | error err => exact iff_of_true nofun nofun
    | ok =>
      cases rendered : renderWorkflowGraph env workflowID s with
      | error err => exact iff_of_true nofun nofun
      | ok existing =>
        obtain ⟨wf,_,shape⟩ := render_ok rendered
        have rows : existing.nodes = wf.graph.nodes.map NodeRow.dto := by rw [shape]
        have positions : ∀ old ∈ existing.nodes, old.position ≠ none := by
          intro old member
          rw [rows] at member
          obtain ⟨row,_,rfl⟩ := List.mem_map.mp member
          exact nofun
        have run := @diffNodes_run env ⟨userID,workflowID,name,description,nodes,edges⟩ existing.nodes nodes
          (validateRequest_ok valid).2 positions s (.start ⟨userID,workflowID,name,description,nodes,edges⟩ existing)
        obtain ⟨panics,ends,ended⟩ := run
        dsimp only [failing]
        simp only [Except.ok.injEq,true_imp_iff,forall_eq']
        cases result : diffNodes env ⟨userID,workflowID,name,description,nodes,edges⟩ existing.nodes nodes
            (.start ⟨userID,workflowID,name,description,nodes,edges⟩ existing) s with
        | mk t outcome_ =>
          rw [result] at panics
          cases outcome_ with
          | error stop =>
            have unfinished : ¬AllPass _ nodes := fun all => by
              obtain ⟨_,_,ends⟩ := ends all
              cases result.symm.trans ends
            rw [← panics,and_iff_left fun all => absurd all unfinished]
            dsimp only
            rw [Ne,Except.error.injEq,Except.error.injEq]
          | ok delta =>
            obtain ⟨all,grown⟩ := ended t delta result
            have write := @writeUpdate_panics fails ⟨userID,workflowID,name,description,nodes,edges⟩ delta existing
              grown wf.graph.nodes rows
            rw [← panics,and_iff_right (by simp)]
            dsimp only
            rw [Ne,write]
            simp only [not_and]
            exact ⟨fun stays _ => stays,fun stays => stays all⟩
  · rw [panics]
    refine iff_of_false (fun returns => returns rfl) ?_
    rintro ⟨nodes,edges,rfl,_⟩
    simp at null

end Saves

section Agreement

variable {α β : Type} {text text' : String} {x : Except Stop α} {y : Except String α} {env : Env} {r : UpdateRequest}
  {s : Store} {existing nodes : List WorkflowNodeDTO}

/-- A computation with its pointers and one without them end alike, up to the error. -/
def Agree (x : Except Stop α) (y : Except String α) : Prop :=
  (∃ a, x = .ok a ∧ y = .ok a) ∨ ∃ stop err, x = .error stop ∧ y = .error err

theorem Agree.failing (y : Except String α) : Agree (failing text y) (wrap text' y) := by
  cases y with
  | ok a => exact .inl ⟨a,rfl,rfl⟩
  | error err => exact .inr ⟨_,_,rfl,rfl⟩

theorem Agree.wrap (agree : Agree x y) : Agree (wrapping text x) (wrap text' y) := by
  rcases agree with ⟨a,rfl,rfl⟩ | ⟨stop,err,rfl,rfl⟩
  · exact .inl ⟨a,rfl,rfl⟩
  · exact .inr ⟨_,_,rfl,rfl⟩

theorem Agree.bind {f : α → Except Stop β} {g : α → Except String β} (agree : Agree x y)
    (later : ∀ a, Agree (f a) (g a)) : Agree (x >>= f) (y >>= g) := by
  rcases agree with ⟨a,rfl,rfl⟩ | ⟨stop,err,rfl,rfl⟩
  · exact later a
  · exact .inr ⟨stop,err,rfl,rfl⟩

theorem updateHandler_agrees (env : Env) (left : Nat) (config : Config) (s : Store) (handler : TriggerHandler) :
    Agree (updateHandler env left config s handler) (handler.update env left config s) := by
  cases handler with
  | schedule =>
    rw [updateHandler]
    cases TriggerHandler.update env left config s .schedule with
    | ok t => exact .inl ⟨t,rfl,rfl⟩
    | error err => exact .inr ⟨_,err,rfl,rfl⟩
  | calendarEvent =>
    rw [updateHandler,TriggerHandler.update]
    refine (Agree.failing _).bind fun c => ?_
    cases config.workflowID with
    | none => exact .inr ⟨_,_,rfl,rfl⟩
    | some owner =>
      cases owner with
      | null | bool | num | str | strs | other => exact .inr ⟨_,_,rfl,rfl⟩
      | int32 workflowID =>
        cases config.userID with
        | none => exact .inr ⟨_,_,rfl,rfl⟩
        | some user =>
          cases user with
          | null | bool | num | strs | other | int32 => exact .inr ⟨_,_,rfl,rfl⟩
          | str userID =>
            cases c.calendarID with
            | none => exact .inr ⟨_,_,rfl,rfl⟩
            | some calendarID =>
              refine (Agree.failing _).bind fun syncToken => (Agree.failing _).bind fun _ => ?_
              cases env.answers (.triggerRow left) with
              | true => exact .inl ⟨_,rfl,rfl⟩
              | false => exact .inr ⟨_,_,rfl,rfl⟩

theorem updateTrigger_agrees (env : Env) (left : Nat) (nodeType : String) (config : Config) (s : Store) :
    Agree (updateTrigger env left nodeType config s) (TriggerRegistry.update env left nodeType config s) := by
  rw [updateTrigger,TriggerRegistry.update]
  cases handlers nodeType with
  | none => exact .inr ⟨_,_,rfl,rfl⟩
  | some handler => exact (updateHandler_agrees env left config s handler).wrap

theorem compareUI_agrees (old node : WorkflowNodeDTO) (delta : WorkflowDelta) :
    Agree (compareUI old node delta) (Workflows.compareUI old node delta) := by
  rw [compareUI,Workflows.compareUI]
  cases old.position with
  | none => exact .inr ⟨_,_,rfl,rfl⟩
  | some before =>
    cases node.position with
    | none => exact .inr ⟨_,_,rfl,rfl⟩
    | some after =>
      dsimp only [dereference,bind,Except.bind]
      split
      next => exact .inl ⟨_,rfl,rfl⟩
      next => exact .inl ⟨_,rfl,rfl⟩

theorem changed_agrees (env : Env) (left : Nat) (d : WorkflowNodeDTO) (config : Config) (s : Store) : Agree
    (if d.category = .trigger then wrapping text (updateTrigger env left d.nodeType config s) else .ok s)
    (if d.category = .trigger then TriggerRegistry.update env left d.nodeType config s else .ok s) := by
  split
  next =>
    rcases updateTrigger_agrees env left d.nodeType config s with ⟨t,one,two⟩ | ⟨stop,err,one,two⟩
    · exact .inl ⟨t,by rw [one]; rfl,two⟩
    · exact .inr ⟨_,err,by rw [one]; rfl,two⟩
  next => exact .inl ⟨s,rfl,rfl⟩

/-- With configs in place, the loop over the nodes leaves the same tables and the same delta. -/
theorem diffNodes_agrees (configured : ∀ d ∈ nodes, d.config ≠ none) (delta : WorkflowDelta) (s : Store) :
    (diffNodes env r existing nodes delta s).1 = (Workflows.diffNodes env r existing nodes delta s).1 ∧
    Agree (diffNodes env r existing nodes delta s).2 (Workflows.diffNodes env r existing nodes delta s).2 := by
  induction nodes generalizing delta s with
  | nil => exact ⟨rfl,.inl ⟨delta,rfl,rfl⟩⟩
  | cons d rest ih =>
    have ih := ih fun e member => configured e (List.mem_cons_of_mem _ member)
    have stopped : ∀ t stop err, ((t,.error stop) : Store × Except Stop WorkflowDelta).1 =
        ((t,.error err) : Reply WorkflowDelta).1 ∧
        Agree (α := WorkflowDelta) (.error stop) (.error err) := fun _ stop err => ⟨rfl,.inr ⟨stop,err,rfl,rfl⟩⟩
    rw [diffNodes,Workflows.diffNodes,diffNode]
    by_cases uuid : ID.isUUID d.id = true
    · rw [if_pos uuid,if_pos uuid]
      exact ih _ s
    · rw [if_neg uuid,if_neg uuid]
      cases existing.find? fun old => old.id = d.id with
      | none => exact stopped _ _ _
      | some old =>
        dsimp only
        by_cases kind : old.category ≠ d.category ∨ old.nodeType ≠ d.nodeType
        · rw [if_pos kind,if_pos kind]
          exact stopped _ _ _
        · rw [if_neg kind,if_neg kind]
          by_cases same : old.config = d.config
          · rw [if_pos same,if_pos same]
            rcases compareUI_agrees old d delta with ⟨delta',one,two⟩ | ⟨stop,err,one,two⟩
            · rw [one,two]
              exact ih delta' s
            · rw [one,two]
              exact stopped _ _ _
          · rw [if_neg same,if_neg same]
            obtain ⟨c,given⟩ := Option.ne_none_iff_exists'.mp (configured d List.mem_cons_self)
            have sent : d.withIDs r = { d with config := some (Config.withIDs c r.userID r.workflowID) } := by
              rw [WorkflowNodeDTO.withIDs,given]
              rfl
            rw [given,dereference_some,sent,Option.getD_some]
            dsimp only
            rcases @changed_agrees "failed to update trigger: " env rest.length d
              (Config.withIDs c r.userID r.workflowID) s with ⟨t,one,two⟩ | ⟨stop,err,one,two⟩
            · rw [one,two]
              dsimp only
              rcases compareUI_agrees old { d with config := some (Config.withIDs c r.userID r.workflowID) }
                { delta with nodesToUpdate := delta.nodesToUpdate ++
                  [{ d with config := some (Config.withIDs c r.userID r.workflowID) }] } with
                ⟨delta',one,two⟩ | ⟨stop,err,one,two⟩
              · rw [one,two]
                exact ih delta' t
              · rw [one,two]
                exact stopped _ _ _
            · rw [one,two]
              exact stopped _ _ _

/-- Up to its transaction, a save whose entries are not nil is UpdateWorkflow as it is modelled without
pointers. -/
theorem planUpdate_agrees (env : Env) (r : UpdateRequest) (s : Store) :
    (planUpdate env r s).1 = (Workflows.planUpdate env r s).1 ∧
    Agree (planUpdate env r s).2 (Workflows.planUpdate env r s).2 := by
  unfold planUpdate Workflows.planUpdate
  cases valid : validateRequest env r.nodes r.edges with
  | error err => exact ⟨rfl,.inr ⟨_,err,rfl,rfl⟩⟩
  | ok =>
    cases renderWorkflowGraph env r.workflowID s with
    | error err => exact ⟨rfl,.inr ⟨_,_,rfl,rfl⟩⟩
    | ok existing =>
      have configured : ∀ d ∈ r.nodes, d.config ≠ none := by
        intro d member
        obtain ⟨c,given⟩ := validateNode_config ((validateRequest_ok valid).2 d member)
        rw [given]
        exact nofun
      have loop := @diffNodes_agrees env r existing.nodes _ configured (.start r existing) s
      dsimp only [failing,wrap]
      obtain ⟨same,agree⟩ := loop
      rcases with_ : diffNodes env r existing.nodes r.nodes (.start r existing) s with ⟨t,x⟩
      rcases without : Workflows.diffNodes env r existing.nodes r.nodes (.start r existing) s with ⟨u,y⟩
      rw [with_,without] at same agree
      cases same
      rcases agree with ⟨delta,rfl,rfl⟩ | ⟨stop,err,rfl,rfl⟩
      · exact ⟨rfl,.inl ⟨_,rfl,rfl⟩⟩
      · exact ⟨rfl,.inr ⟨stop,err,rfl,rfl⟩⟩

end Agreement

section Iff

/-- A request with every pointer in place. -/
structure Whole (nodes : List WorkflowNodeDTO) : Prop where
  placed : ∀ d ∈ nodes, d.position ≠ none
  named : ∀ d ∈ nodes, ¬Unnamed d

theorem not_unplaced {fails : TxStep → Nat → Bool} {nodes : List WorkflowNodeDTO}
    (placed : ∀ d ∈ nodes, d.position ≠ none) : ¬Unplaced fails nodes :=
  fun ⟨_,d,at_,⟨_,unplaced⟩,_⟩ => placed d (List.mem_of_getElem? at_) unplaced

/-- Nothing else that a request, the tables or the database may do makes the save paths panic. -/
theorem Whole.returns {nodes : List WorkflowNodeDTO} (whole : Whole nodes) (edges : List WorkflowEdgeDTO)
    (env : Env) (fails : TxStep → Nat → Bool) (userID : UserID) (workflowID : WorkflowID)
    (name description status : String) (s : Store) :
    CreateReturns env fails userID name description status ⟨nodes.map some,edges.map some⟩ ∧
    UpdateReturns env fails userID workflowID name description ⟨nodes.map some,edges.map some⟩ s := by
  constructor
  · refine ⟨nodes,edges,rfl,fun _ _ _ _ _ _ _ _ => ?_⟩
    exact not_unplaced whole.placed
  · refine ⟨nodes,edges,rfl,fun _ existing _ => ⟨?_,fun _ _ _ _ _ => ?_⟩⟩
    · rintro ⟨i,d,at_,⟨_,old,_,⟨_,unnamed⟩ | ⟨_,unplaced⟩⟩,_⟩
      · exact whole.named d (List.mem_of_getElem? at_) unnamed
      · exact whole.placed d (List.mem_of_getElem? at_) unplaced
    · exact not_unplaced fun d member => whole.placed d (List.mem_filter.mp member).1

/-- A creation or a save returns exactly if no entry is null, the node loop stops at no nil pointer, and
neither does the first insert that does not go through. -/
theorem nil_iff (env : Env) (db : Database) (userID : UserID) (workflowID : WorkflowID)
    (name description status : String) (body : Body) (s : Store) :
    ((createWorkflow env db userID name description status body s).2 ≠ .error .nilDereference ↔
      CreateReturns env db.fails userID name description status body) ∧
    ((updateWorkflow env db.fails userID workflowID name description body s).2 ≠ .error .nilDereference ↔
      UpdateReturns env db.fails userID workflowID name description body s) :=
  ⟨create_returns env db userID name description status body s,
    update_returns env db.fails userID workflowID name description body s⟩

/-- A database that fails nowhere. -/
def Database.calm : Database := ⟨fun _ _ => false,1,fun i => i + 1,.fresh fun _ => true⟩

/-- A list of nodes that is `[null]`. -/
theorem null_panics : ¬((∀ env db userID name description status body s,
      (createWorkflow env db userID name description status body s).2 ≠ .error .nilDereference) ∧
    ∀ env fails userID workflowID name description body s,
      (updateWorkflow env fails userID workflowID name description body s).2 ≠ .error .nilDereference) := by
  intro ⟨create,_⟩
  exact create .calm .calm "alice" "mails" "some mails" "active" ⟨[none],[]⟩ (.fresh fun _ => true) rfl

end Iff

end TinyAutomator.Workflows.NilPointers
