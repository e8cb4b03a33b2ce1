import TinyAutomator.Workflows.Triggers

/-! The workflow service and its repository: create, update by a delta, archive, and the
account deletion that archives everything of a user. -/
namespace TinyAutomator.Workflows

structure WorkflowNodeDTO where
  id : ID
  category : Category
  nodeType : String
  config : Option Config
  position : Option Position
  deriving DecidableEq

structure WorkflowEdgeDTO where
  id : String
  sourceNodeID : ID
  targetNodeID : ID
  deriving DecidableEq

/-- The pair of ids that `edgeKey` compares. -/
def WorkflowEdgeDTO.key (e : WorkflowEdgeDTO) : ID × ID := (e.sourceNodeID,e.targetNodeID)

structure WorkflowGraphDTO where
  name : String
  description : String
  nodes : List WorkflowNodeDTO
  edges : List WorkflowEdgeDTO
  deriving DecidableEq

section Validate

def prepForValidate (nodes : List WorkflowNodeDTO) (edges : List WorkflowEdgeDTO) :
    List ValidateNode × List ValidateEdge :=
  (nodes.map fun node => ⟨node.id,node.nodeType,node.category⟩,
    edges.map fun edge => ⟨edge.sourceNodeID,edge.targetNodeID⟩)

def validateNode (env : Env) (node : WorkflowNodeDTO) : Except String Unit :=
  if node.category = .other "" then .error "validation error: node category is empty"
  else if node.nodeType = "" then .error "validation error: node type is empty"
  else
    match node.config with
    | none => .error "validation error: node config is nil"
    | some config =>
      if node.category = .trigger then
        wrap "trigger validation error: " (TriggerRegistry.validate env node.nodeType config)
      else .ok ()

/-- What CreateWorkflow and UpdateWorkflow check before they touch the database. -/
def validateRequest (env : Env) (nodes : List WorkflowNodeDTO) (edges : List WorkflowEdgeDTO) :
    Except String Unit := do
  let (n,e) := prepForValidate nodes edges
  wrap "failed to validate workflow graph: " (validateWorkflowGraph env.visits n e)
  nodes.forM fun node => wrap "failed to validate node: " (validateNode env node)

end Validate

section Repository

/-- The map from ids of a request to row ids, with 0 for a missing key. -/
abbrev NodeIDMap := ID → NodeID

def NodeIDMap.set (ids : NodeIDMap) (id : ID) (value : NodeID) : NodeIDMap :=
  fun other => if other = id then value else ids other

/-- A transaction under way. -/
structure Writing where
  graph : Graph
  nextNode : NodeID
  nodeIDs : NodeIDMap

/-- `json.Marshal` of the config pointer; a nil config is stored as null and read back as
an empty map. -/
def storedConfig (config : Option Config) : Config := (config.getD .blank).stored

def Writing.createNode (text : String) (x : Writing) (node : WorkflowNodeDTO) : Except String Writing :=
  match node.position with
  | none => .error nilDereference
  | some position =>
    let row : NodeRow := ⟨⟨x.nextNode,node.category,node.nodeType,storedConfig node.config⟩,position⟩
    match wrap text (x.graph.createWorkflowNode row) with
    | .error err => .error err
    | .ok graph => .ok ⟨graph,x.nextNode + 1,x.nodeIDs.set node.id x.nextNode⟩

def Writing.createEdge (x : Writing) (edge : ID × ID) : Except String Writing :=
  match wrap "db error create workflow edges: "
    (x.graph.createWorkflowEdge ⟨x.nodeIDs edge.1,x.nodeIDs edge.2⟩) with
  | .error err => .error err
  | .ok graph => .ok { x with graph }

/-- The repository's CreateWorkflow checks each node once more. -/
def missing (node : WorkflowNodeDTO) : Option String :=
  if node.category = .other "" then some s!"node category is missing for node {node.id.text}"
  else if node.nodeType = "" then some s!"node type is missing for node {node.id.text}"
  else if node.config = none then some s!"node config is missing for node {node.id.text}"
  else none

/-- One turn of the create loop; the returned graph keeps the config of the request. -/
def createGraphNode (x : Writing × List WorkflowNode) (node : WorkflowNodeDTO) :
    Except String (Writing × List WorkflowNode) :=
  match missing node with
  | some err => .error err
  | none =>
    match x.1.createNode "db error create workflow nodes: " node with
    | .error err => .error err
    | .ok y => .ok (y,x.2 ++ [⟨x.1.nextNode,node.category,node.nodeType,node.config.getD .blank⟩])

def createGraphEdge (x : Writing) (edge : WorkflowEdgeDTO) : Except String Writing :=
  if edge.sourceNodeID = ID.empty ∨ edge.targetNodeID = ID.empty then
    .error s!"edge source or target node ID is missing for edge {edge.id}"
  else x.createEdge edge.key

/-- The statements of the repository's CreateWorkflow. -/
def insertWorkflow (userID : UserID) (name description status : String) (nodes : List WorkflowNodeDTO)
    (edges : List WorkflowEdgeDTO) (now : Int) (s : Store) : Except String (Store × WorkflowGraph) :=
  if userID = "" ∨ name = "" ∨ description = "" ∨ status = "" then .error "workflow metadata is missing"
  else if nodes = [] then .error "no workflow nodes to create"
  else
    match WorkflowStatus.ofText status, s.workflows s.nextWorkflow with
    | none, _ => .error "db error create workflow: violates check constraint on workflow.status"
    | some _, some _ => .error "db error create workflow: duplicate key value in workflow"
    | some status, none => do
      let (x,created) ← nodes.foldlM createGraphNode (⟨.empty,s.nextNode,fun _ => 0⟩,[])
      let x ← edges.foldlM createGraphEdge x
      let row := ⟨userID,name,description,status,x.graph,[],[],now,now⟩
      return ({ s.put s.nextWorkflow row with
        nextWorkflow := s.nextWorkflow + 1, nextNode := x.nextNode },⟨created,x.graph.edges⟩)

/-- The repository's CreateWorkflow: the new workflow and its graph. -/
def createWorkflowRows (env : Env) (userID : UserID) (name description status : String)
    (nodes : List WorkflowNodeDTO) (edges : List WorkflowEdgeDTO) (s : Store) : Reply WorkflowGraph :=
  match insertWorkflow userID name description status nodes edges env.now s with
  | .error err => (s,.error err)
  | .ok (t,graph) => env.commit "failed to commit transaction in create workflow" s t graph

def NodeRow.dto (row : NodeRow) : WorkflowNodeDTO :=
  ⟨.row row.id,row.category,row.nodeType,some row.config,some row.position⟩

def edgeDTO (e : WorkflowEdge) : WorkflowEdgeDTO :=
  ⟨s!"{e.sourceNodeID}-{e.targetNodeID}",.row e.sourceNodeID,.row e.targetNodeID⟩

/-- The join has no rows for a workflow without nodes. Its rows and the Go map of the nodes have no
order of their own; here they come as they are stored. -/
def renderWorkflowGraph (env : Env) (w : WorkflowID) (s : Store) : Except String WorkflowGraphDTO :=
  match s.workflows w with
  | none => .error "no rows found for rendered workflow graph"
  | some wf =>
    if ¬env.answers .graph then .error "error loading workflow graph from db"
    else if wf.graph.nodes = [] then .error "no rows found for rendered workflow graph"
    else .ok ⟨wf.name,wf.description,wf.graph.nodes.map NodeRow.dto,wf.graph.edges.map edgeDTO⟩

/-- In the stored order, like renderWorkflowGraph. -/
def getWorkflowGraph (env : Env) (w : WorkflowID) (s : Store) : Except String WorkflowGraph :=
  match s.workflows w with
  | none => .error "no rows found for workflow graph"
  | some wf =>
    if ¬env.answers .graph then .error "error loading workflow graph from db"
    else if wf.graph.nodes = [] then .error "no rows found for workflow graph"
    else .ok ⟨wf.graph.nodes.map (·.toWorkflowNode),wf.graph.edges⟩

structure WorkflowDelta where
  name : String
  description : String
  updateMetadata : Bool
  nodesToCreate : List WorkflowNodeDTO
  nodesToUpdate : List WorkflowNodeDTO
  nodesToUpdateUI : List WorkflowNodeDTO
  nodeIDsToDelete : List NodeID
  edgesToAdd : List (ID × ID)
  edgesToDelete : List (ID × ID)
  deriving DecidableEq

/-- strconv.Atoi of an id that a row has. -/
def ID.atoi : ID → Option NodeID
  | .row n => some n
  | .uuid _ | .other _ => none

def updateNode (g : Graph) (node : WorkflowNodeDTO) : Except String Graph :=
  match ID.atoi node.id, node.position with
  | none, _ => .error "invalid node id"
  | some _, none => .error nilDereference
  | some id, some position =>
    .ok ((g.updateWorkflowNode id (storedConfig node.config)).updateWorkflowNodeUI id position)

def updateNodeUI (g : Graph) (node : WorkflowNodeDTO) : Except String Graph :=
  match ID.atoi node.id, node.position with
  | none, _ => .error "invalid node id"
  | some _, none => .error nilDereference
  | some id, some position => .ok (g.updateWorkflowNodeUI id position)

def deleteEdge (g : Graph) (edge : ID × ID) : Except String Graph :=
  match ID.atoi edge.1, ID.atoi edge.2 with
  | none, _ => .error "invalid edge source id"
  | some _, none => .error "invalid edge target id"
  | some src, some dst => .ok (g.deleteWorkflowEdge ⟨src,dst⟩)

def existingNodeIDs (existingNodes : List WorkflowNodeDTO) : NodeIDMap :=
  fun id => if id ∈ existingNodes.map (·.id) then (ID.atoi id).getD 0 else 0

/-- The statements of the repository's UpdateWorkflow on the graph, in their order. -/
def applyDelta (ran : NodeID → Bool) (delta : WorkflowDelta) (existingNodes : List WorkflowNodeDTO)
    (nextNode : NodeID) (graph : Graph) : Except String Writing := do
  let deleted ← delta.nodeIDsToDelete.foldlM
    (fun g id => wrap "db error delete workflow node: " (g.deleteWorkflowNode ran id)) graph
  let created ← delta.nodesToCreate.foldlM (Writing.createNode "db error create workflow node: ")
    ⟨deleted,nextNode,existingNodeIDs existingNodes⟩
  let updated ← delta.nodesToUpdate.foldlM updateNode created.graph
  let moved ← delta.nodesToUpdateUI.foldlM updateNodeUI updated
  let cut ← delta.edgesToDelete.foldlM deleteEdge moved
  delta.edgesToAdd.foldlM Writing.createEdge { created with graph := cut }

/-- The statements of the repository's UpdateWorkflow. -/
def patchWorkflow (env : Env) (w : WorkflowID) (delta : WorkflowDelta) (existingNodes : List WorkflowNodeDTO)
    (s : Store) : Except String Store :=
  match s.workflows w with
  | none => .error "violates foreign key constraint on workflow_node"
  | some wf => do
    let x ← applyDelta env.ran delta existingNodes s.nextNode wf.graph
    let wf := if delta.updateMetadata then
      { wf with name := delta.name, description := delta.description, updatedAt := env.now } else wf
    return { s.put w { wf with graph := x.graph } with nextNode := x.nextNode }

/-- The repository's UpdateWorkflow. -/
def updateWorkflowRows (env : Env) (w : WorkflowID) (delta : WorkflowDelta)
    (existingNodes : List WorkflowNodeDTO) (s : Store) : Reply Unit :=
  match patchWorkflow env w delta existingNodes s with
  | .error err => (s,.error err)
  | .ok t => env.commit "commit tx failed" s t ()

end Repository

/-- The keys that the service writes into the config of a trigger or a changed node. -/
def Config.withIDs (c : Config) (userID : UserID) (workflowID : WorkflowID) : Config :=
  { c with userID := some (.str userID), workflowID := some (.int32 workflowID) }

section Create

def executeTriggers (env : Env) (userID : UserID) (w : WorkflowID) :
    List WorkflowNode → Store → Reply Unit
  | [], s => (s,.ok ())
  | node :: rest, s =>
    if node.category = .trigger then
      match TriggerRegistry.execute env rest.length node.nodeType (Config.withIDs node.config userID w) s with
      | .error err => (s,.error ("failed to execute trigger: " ++ err))
      | .ok s => executeTriggers env userID w rest s
    else executeTriggers env userID w rest s

def createWorkflow (env : Env) (userID : UserID) (name description status : String)
    (nodes : List WorkflowNodeDTO) (edges : List WorkflowEdgeDTO) (s : Store) : Reply WorkflowID :=
  match validateRequest env nodes edges with
  | .error err => (s,.error err)
  | .ok () =>
    match createWorkflowRows env userID name description status nodes edges s with
    | (t,.error err) => (t,.error ("failed to create workflow: " ++ err))
    | (t,.ok w) =>
      match executeTriggers env userID s.nextWorkflow (getRootNodes w) t with
      | (t,.error err) => (t,.error err)
      | (t,.ok ()) => (t,.ok s.nextWorkflow)

end Create

section Update

def ID.isUUID : ID → Bool
  | .uuid _ => true
  | .row _ | .other _ => false

structure UpdateRequest where
  userID : UserID
  workflowID : WorkflowID
  name : String
  description : String
  nodes : List WorkflowNodeDTO
  edges : List WorkflowEdgeDTO
  deriving DecidableEq

def WorkflowNodeDTO.withIDs (node : WorkflowNodeDTO) (r : UpdateRequest) : WorkflowNodeDTO :=
  { node with config := node.config.map (Config.withIDs · r.userID r.workflowID) }

/-- The part of the node loop after the config: a nil position of the request panics. -/
def compareUI (old node : WorkflowNodeDTO) (delta : WorkflowDelta) : Except String WorkflowDelta :=
  match old.position, node.position with
  | some before, some after =>
    if before.x ≠ after.x ∨ before.y ≠ after.y then
      .ok { delta with nodesToUpdateUI := delta.nodesToUpdateUI ++ [node] }
    else .ok delta
  | _, _ => .error nilDereference

/-- The loop over the nodes of a request. A changed trigger is updated on the spot. -/
def diffNodes (env : Env) (r : UpdateRequest) (existing : List WorkflowNodeDTO) :
    List WorkflowNodeDTO → WorkflowDelta → Store → Reply WorkflowDelta
  | [], delta, s => (s,.ok delta)
  | node :: rest, delta, s =>
    if ID.isUUID node.id then
      diffNodes env r existing rest { delta with nodesToCreate := delta.nodesToCreate ++ [node] } s
    else
      match existing.find? fun old => old.id = node.id with
      | none => (s,.error "node ID is not present in the existing workflow")
      | some old =>
        if old.category ≠ node.category ∨ old.nodeType ≠ node.nodeType then
          (s,.error "node category or type cannot be changed")
        else if old.config = node.config then
          match compareUI old node delta with
          | .error err => (s,.error err)
          | .ok delta => diffNodes env r existing rest delta s
        else
          let node := node.withIDs r
          match (if node.category = .trigger then
            TriggerRegistry.update env rest.length node.nodeType (node.config.getD .blank) s else .ok s) with
          | .error err => (s,.error ("failed to update trigger: " ++ err))
          | .ok t =>
            match compareUI old node { delta with nodesToUpdate := delta.nodesToUpdate ++ [node] } with
            | .error err => (t,.error err)
            | .ok delta => diffNodes env r existing rest delta t

/-- What is left to the delta after the node loop. -/
def diffRest (r : UpdateRequest) (existing : WorkflowGraphDTO) (delta : WorkflowDelta) : WorkflowDelta :=
  let inputNodeIDs := (r.nodes.map (·.id)).filter fun id => !ID.isUUID id
  let existingEdgeSet := existing.edges.map (·.key)
  let inputEdgeSet := r.edges.map (·.key)
  { delta with
    nodeIDsToDelete := (existing.nodes.filter fun old => old.id ∉ inputNodeIDs).filterMap
      fun old => ID.atoi old.id
    edgesToAdd := inputEdgeSet.filter (· ∉ existingEdgeSet)
    edgesToDelete := existingEdgeSet.filter (· ∉ inputEdgeSet) }

def WorkflowDelta.start (r : UpdateRequest) (existing : WorkflowGraphDTO) : WorkflowDelta where
  name := r.name
  description := r.description
  updateMetadata := existing.name ≠ r.name ∨ existing.description ≠ r.description
  nodesToCreate := []
  nodesToUpdate := []
  nodesToUpdateUI := []
  nodeIDsToDelete := []
  edgesToAdd := []
  edgesToDelete := []

def WorkflowDelta.unchanged (delta : WorkflowDelta) : Prop :=
  delta.updateMetadata = false ∧ delta.nodesToCreate = [] ∧ delta.nodesToUpdate = [] ∧
  delta.nodesToUpdateUI = [] ∧ delta.nodeIDsToDelete = [] ∧ delta.edgesToAdd = [] ∧
  delta.edgesToDelete = []

instance : DecidablePred WorkflowDelta.unchanged := fun delta => inferInstanceAs (Decidable
  (delta.updateMetadata = false ∧ delta.nodesToCreate = [] ∧ delta.nodesToUpdate = [] ∧
  delta.nodesToUpdateUI = [] ∧ delta.nodeIDsToDelete = [] ∧ delta.edgesToAdd = [] ∧
  delta.edgesToDelete = []))

/-- What UpdateWorkflow carries from its read to its write. -/
structure Plan where
  existing : WorkflowGraphDTO
  delta : WorkflowDelta
  deriving DecidableEq

/-- UpdateWorkflow up to its transaction. -/
def planUpdate (env : Env) (r : UpdateRequest) (s : Store) : Reply Plan :=
  match validateRequest env r.nodes r.edges with
  | .error err => (s,.error err)
  | .ok () =>
    match wrap "failed to get workflow: " (renderWorkflowGraph env r.workflowID s) with
    | .error err => (s,.error err)
    | .ok existing =>
      match diffNodes env r existing.nodes r.nodes (.start r existing) s with
      | (t,.error err) => (t,.error err)
      | (t,.ok delta) => (t,.ok ⟨existing,diffRest r existing delta⟩)

/-- UpdateWorkflow from its transaction on. -/
def writeUpdate (env : Env) (r : UpdateRequest) (plan : Plan) (s : Store) : Reply Unit :=
  if plan.delta.unchanged then (s,.ok ())
  else
    match updateWorkflowRows env r.workflowID plan.delta plan.existing.nodes s with
    | (t,.error err) => (t,.error ("failed to update workflow: " ++ err))
    | (t,.ok ()) => (t,.ok ())

def updateWorkflow (env : Env) (r : UpdateRequest) (s : Store) : Reply Unit :=
  match planUpdate env r s with
  | (t,.error err) => (t,.error err)
  | (t,.ok plan) => writeUpdate env r plan t

end Update

section Archive

def Category.text : Category → String
  | .trigger => "trigger"
  | .action => "action"
  | .other text => text

def triggerTypeScheduled : String := "schedule"

/-- The loop over the root nodes compares the category, not the node type. -/
def archiveTriggers (env : Env) (w : WorkflowID) : List WorkflowNode → Store → Store
  | [], s => s
  | node :: rest, s =>
    if Category.text node.category = triggerTypeScheduled ∧ env.answers (.triggerRow rest.length) then
      archiveTriggers env w rest (s.amend w fun wf => { wf with schedules := [] })
    else archiveTriggers env w rest s

/-- The repository's ArchiveWorkflow. -/
def Store.archive (s : Store) (w : WorkflowID) (updatedAt : Int) : Store :=
  s.amend w fun wf => { wf with status := .archived, updatedAt }

def archiveWorkflow (env : Env) (w : WorkflowID) (s : Store) : Reply Unit :=
  match (if env.answers .workflow then s.workflows w else none) with
  | none => (s,.error s!"failed to fetch workflow {w}")
  | some wf =>
    if wf.status = .archived then (s,.ok ())
    else if ¬env.answers (.status w) then (s,.error "failed to archive workflow")
    else
      let t := s.archive w env.now
      match wrap "failed to fetch workflow graph: " (getWorkflowGraph env w t) with
      | .error err => (t,.error err)
      | .ok graph => (archiveTriggers env w (getRootNodes graph) t,.ok ())

/-- Every id ever given out is below the counter. -/
def getUserWorkflows (userID : UserID) (s : Store) : List WorkflowID :=
  (List.range s.nextWorkflow).filter fun w => (s.workflows w).any fun wf => wf.userID = userID

def archiveAll (env : Env) : List WorkflowID → Store → Reply Unit
  | [], s => (s,.ok ())
  | w :: rest, s =>
    if env.answers (.status w) then archiveAll env rest (s.archive w env.now)
    else (s,.error "failed to archive workflow")

def deleteUserData (env : Env) (userID : UserID) (s : Store) : Reply Unit :=
  if ¬env.answers .workflow then (s,.error "failed to fetch user workflows")
  else
    match archiveAll env (getUserWorkflows userID s) s with
    | (t,.error err) => (t,.error err)
    | (t,.ok ()) =>
      if env.answers .integrations then
        ({ t with integrations := fun u => if u = userID then false else t.integrations u },.ok ())
      else (t,.error "failed to delete user OAuth integrations")

end Archive

end TinyAutomator.Workflows
