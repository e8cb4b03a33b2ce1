import TinyAutomator.Graph

/-! The tables behind a workflow and the statements on them. Rows are grouped by their
workflow; keys, foreign keys and checks are fields of a group, so a statement that breaks
one is refused. -/
namespace TinyAutomator.Workflows

inductive WorkflowStatus where
  | draft
  | active
  | archived
  deriving DecidableEq, Repr

/-- The CHECK constraint of workflow.status. -/
def WorkflowStatus.ofText : String → Option WorkflowStatus
  | "draft" => some .draft
  | "active" => some .active
  | "archived" => some .archived
  | _ => none

inductive ExecutionState where
  | queued
  | paused
  | running
  | completed
  | failed
  deriving DecidableEq, Repr

inductive ScheduleType where
  | once
  | daily
  | weekly
  | monthly
  deriving DecidableEq, Repr

structure Position where
  x : Rat
  y : Rat
  deriving DecidableEq

/-- A workflow_node row and its workflow_node_ui row. -/
structure NodeRow extends WorkflowNode where
  position : Position
  deriving DecidableEq

/-- Instants are in milliseconds. -/
structure ScheduleRow where
  id : Nat
  scheduleType : ScheduleType
  nextRunAt : Option Int
  lastRunAt : Option Int
  executionState : ExecutionState
  updatedAt : Int
  deriving DecidableEq

/-- models.WorkflowCalendarConfig; no keywords and an empty list are stored alike. -/
structure CalendarConfig where
  calendarID : Option String
  keywords : List String
  timeCondition : Option Int
  eventStatusCondition : String
  deriving DecidableEq

structure CalendarRow where
  id : Nat
  config : CalendarConfig
  syncToken : String
  executionState : ExecutionState
  lastSyncedAt : Int
  deriving DecidableEq

/-- The CHECK constraint of workflow_node.category. -/
def Allowed : Category → Prop
  | .trigger | .action => True
  | .other _ => False

instance : DecidablePred Allowed
  | .trigger | .action => isTrue trivial
  | .other _ => isFalse id

/-- The nodes and edges of one workflow. -/
structure Graph where
  nodes : List NodeRow
  edges : List WorkflowEdge
  nodeKey : (nodes.map (·.id)).Nodup
  edgeKey : edges.Nodup
  endpoints : ∀ e ∈ edges, e.sourceNodeID ∈ nodes.map (·.id) ∧ e.targetNodeID ∈ nodes.map (·.id)
  categories : ∀ n ∈ nodes, Allowed n.category

theorem Graph.ext_rows {g h : Graph} (nodes : g.nodes = h.nodes) (edges : g.edges = h.edges) :
    g = h := by
  cases g
  cases h
  cases nodes
  cases edges
  rfl

instance : DecidableEq Graph := fun g h =>
  decidable_of_iff (g.nodes = h.nodes ∧ g.edges = h.edges)
    ⟨fun same => Graph.ext_rows same.1 same.2,fun same => same ▸ ⟨rfl,rfl⟩⟩

def Graph.ids (g : Graph) : List NodeID := g.nodes.map (·.id)

def Graph.empty : Graph := ⟨[],[],List.nodup_nil,List.nodup_nil,by simp,by simp⟩

section Statements

variable (g : Graph)

/-- A node that a workflow_node_run row refers to is not deleted; the edges of a deleted
node go with it. -/
def Graph.deleteWorkflowNode (ran : NodeID → Bool) (id : NodeID) : Except String Graph :=
  if id ∈ g.ids ∧ ran id = true then
    Except.error "violates foreign key constraint on workflow_node_run"
  else .ok {
    nodes := g.nodes.filter fun n => n.id ≠ id
    edges := g.edges.filter fun e => e.sourceNodeID ≠ id ∧ e.targetNodeID ≠ id
    nodeKey := g.nodeKey.sublist (List.filter_sublist.map _)
    edgeKey := g.edgeKey.filter _
    endpoints := by
      intro e member
      obtain ⟨member,apart⟩ := List.mem_filter.mp member
      obtain ⟨src,dst⟩ := of_decide_eq_true apart
      obtain ⟨fromSrc,fromDst⟩ := g.endpoints e member
      obtain ⟨a,ina,source⟩ := List.mem_map.mp fromSrc
      obtain ⟨b,inb,target⟩ := List.mem_map.mp fromDst
      refine ⟨List.mem_map.mpr ⟨a,List.mem_filter.mpr ⟨ina,?_⟩,source⟩,?_⟩
      · simpa [source] using src
      · exact List.mem_map.mpr ⟨b,List.mem_filter.mpr ⟨inb,by simpa [target] using dst⟩,target⟩
    categories := fun n member => g.categories n (List.mem_filter.mp member).1 }

/-- Both inserts of a new node; `row.id` is the SERIAL value. -/
def Graph.createWorkflowNode (row : NodeRow) : Except String Graph :=
  if fresh : row.id ∈ g.ids then .error "duplicate key value in workflow_node"
  else if checked : Allowed row.category then .ok {
    nodes := g.nodes ++ [row]
    edges := g.edges
    nodeKey := by
      rw [List.map_append,List.nodup_append]
      refine ⟨g.nodeKey,List.nodup_singleton _,?_⟩
      rintro a member b new rfl
      obtain rfl : a = row.id := List.mem_singleton.mp new
      exact fresh member
    edgeKey := g.edgeKey
    endpoints := by
      intro e member
      obtain ⟨src,dst⟩ := g.endpoints e member
      rw [List.map_append]
      exact ⟨List.mem_append_left _ src,List.mem_append_left _ dst⟩
    categories := by
      intro n member
      rcases List.mem_append.mp member with old | new
      · exact g.categories n old
      · exact List.mem_singleton.mp new ▸ checked }
  else .error "violates check constraint on workflow_node.category"

/-- An UPDATE of the row with an id, which keeps its key and its category. -/
def Graph.amend (id : NodeID) (change : NodeRow → NodeRow)
    (key : ∀ n, (change n).id = n.id ∧ (change n).category = n.category) : Graph :=
  let update := fun n : NodeRow => if n.id = id then change n else n
  have kept : ∀ n, (update n).id = n.id ∧ (update n).category = n.category := by
    intro n
    by_cases same : n.id = id
    · simpa [update,same] using same ▸ key n
    · simp [update,same]
  have ids : (g.nodes.map update).map (·.id) = g.nodes.map (·.id) := by
    rw [List.map_map]
    exact List.map_congr_left fun n _ => (kept n).1
  { nodes := g.nodes.map update
    edges := g.edges
    nodeKey := ids ▸ g.nodeKey
    edgeKey := g.edgeKey
    endpoints := fun e member => ids ▸ g.endpoints e member
    categories := by
      intro n member
      obtain ⟨old,stored,rfl⟩ := List.mem_map.mp member
      exact (kept old).2 ▸ g.categories old stored }

def Graph.updateWorkflowNode (id : NodeID) (config : Config) : Graph :=
  g.amend id (fun n => { n with config }) fun _ => ⟨rfl,rfl⟩

def Graph.updateWorkflowNodeUI (id : NodeID) (position : Position) : Graph :=
  g.amend id (fun n => { n with position }) fun _ => ⟨rfl,rfl⟩

def Graph.deleteWorkflowEdge (edge : WorkflowEdge) : Graph :=
  { g with
    edges := g.edges.filter (· ≠ edge)
    edgeKey := g.edgeKey.filter _
    endpoints := fun e member => g.endpoints e (List.mem_filter.mp member).1 }

def Graph.createWorkflowEdge (edge : WorkflowEdge) : Except String Graph :=
  if fresh : edge ∈ g.edges then .error "duplicate key value in workflow_edge"
  else if joins : edge.sourceNodeID ∈ g.ids ∧ edge.targetNodeID ∈ g.ids then .ok { g with
    edges := g.edges ++ [edge]
    edgeKey := by
      rw [List.nodup_append]
      refine ⟨g.edgeKey,List.nodup_singleton _,?_⟩
      rintro a member b new rfl
      exact fresh (List.mem_singleton.mp new ▸ member)
    endpoints := by
      intro e member
      rcases List.mem_append.mp member with old | new
      · exact g.endpoints e old
      · exact List.mem_singleton.mp new ▸ joins }
  else .error "violates foreign key constraint on workflow_edge"

end Statements

structure Workflow where
  userID : UserID
  name : String
  description : String
  status : WorkflowStatus
  graph : Graph
  schedules : List ScheduleRow
  calendars : List CalendarRow
  createdAt : Int
  updatedAt : Int
  deriving DecidableEq

/-- The database; the counters are the SERIAL sequences. A rolled back transaction gives
its ids back here, which only closes gaps. `integrations` are the users with a Google
token. -/
structure Store where
  workflows : WorkflowID → Option Workflow
  nextWorkflow : WorkflowID
  nextNode : NodeID
  nextSchedule : Nat
  nextCalendar : Nat
  integrations : UserID → Bool

/-- No workflows yet, and some users with a Google token. -/
def Store.fresh (integrations : UserID → Bool) : Store := ⟨fun _ => none,1,1,1,1,integrations⟩

def Store.put (s : Store) (w : WorkflowID) (row : Workflow) : Store :=
  { s with workflows := fun x => if x = w then some row else s.workflows x }

/-- An UPDATE of the rows of a workflow, which does nothing when there is none. -/
def Store.amend (s : Store) (w : WorkflowID) (change : Workflow → Workflow) : Store :=
  { s with workflows := fun x => if x = w then (s.workflows w).map change else s.workflows x }

@[simp] theorem Store.put_self (s : Store) (w : WorkflowID) (row : Workflow) :
    (s.put w row).workflows w = some row := by simp [Store.put]

@[simp] theorem Store.put_other (s : Store) {w x : WorkflowID} (row : Workflow) (other : x ≠ w) :
    (s.put w row).workflows x = s.workflows x := by simp [Store.put,other]

@[simp] theorem Store.amend_self (s : Store) (w : WorkflowID) (change : Workflow → Workflow) :
    (s.amend w change).workflows w = (s.workflows w).map change := by simp [Store.amend]

@[simp] theorem Store.amend_other (s : Store) {w x : WorkflowID} (change : Workflow → Workflow)
    (other : x ≠ w) : (s.amend w change).workflows x = s.workflows x := by simp [Store.amend,other]

end TinyAutomator.Workflows
