import TinyAutomator.GraphLevels
import Mathlib.Data.Finset.Card

/-! What the parties of one run share: the database rows of the run, its Redis keys
and its messages at the broker, with one definition for each call made on them. -/
namespace TinyAutomator.Run

inductive NodeStatus where
  | pending
  | running
  | success
  | failed
  deriving DecidableEq, Repr

inductive RunStatus where
  | running
  | success
  | failed
  | cancelled
  deriving DecidableEq, Repr

/-- A workflow_node_run row; the run and the node are its key. -/
structure NodeRun where
  status : NodeStatus
  retryCount : Nat
  startedAt : Option Int
  finishedAt : Option Int
  errorMessage : Option String
  deriving DecidableEq

structure WorkflowRun where
  status : RunStatus
  finishedAt : Option Int
  deriving DecidableEq, Repr

/-- A task message: the node of its body and its x-retry-count header, zero when absent. -/
structure Message where
  nodeID : NodeID
  retryCount : Nat
  deriving DecidableEq, Repr

/-- A call of an action handler and its return. -/
inductive Event where
  | started (node : NodeID)
  | finished (node : NodeID) (succeeded : Bool)
  deriving DecidableEq, Repr

/-- Redis drops an empty set, so the running-node set exists when it is not empty.
`published` and `history` only record what happened. -/
structure Infra where
  run : WorkflowRun
  nodeRuns : NodeID → NodeRun
  runningSet : Finset NodeID
  finalizeLock : Bool
  updates : List (NodeID × NodeStatus)
  queue : List Message
  delayed : List Message
  deadLetters : List Message
  published : List Message
  history : List Event

section Graph

variable (g : WorkflowGraph)

def ids : List NodeID := g.nodes.map (·.id)

def isTrigger (n : NodeID) : Bool := g.nodes.any fun node => node.id = n ∧ node.category = .trigger

def parents (n : NodeID) : List NodeID :=
  (g.edges.filter fun edge => edge.targetNodeID = n).map (·.sourceNodeID)

def children (n : NodeID) : List NodeID :=
  (g.edges.filter fun edge => edge.sourceNodeID = n).map (·.targetNodeID)

/-- The ids that OrchestrateWorkflow puts into the running-node set. -/
def nonRoots : List NodeID :=
  (ids g).filter fun n => n ∉ (getRootNodes g).map (·.id)

theorem mem_parents {n p : NodeID} : p ∈ parents g n ↔ ⟨p,n⟩ ∈ g.edges := by
  simp only [parents,List.mem_map,List.mem_filter,decide_eq_true_eq]
  constructor
  · rintro ⟨⟨a,b⟩,⟨member,rfl⟩,rfl⟩
    exact member
  · intro member
    exact ⟨⟨p,n⟩,⟨member,rfl⟩,rfl⟩

theorem mem_children {n c : NodeID} : c ∈ children g n ↔ ⟨n,c⟩ ∈ g.edges := by
  simp only [children,List.mem_map,List.mem_filter,decide_eq_true_eq]
  constructor
  · rintro ⟨⟨a,b⟩,⟨member,rfl⟩,rfl⟩
    exact member
  · intro member
    exact ⟨⟨n,c⟩,⟨member,rfl⟩,rfl⟩

theorem mem_parents_iff_children {n p : NodeID} : p ∈ parents g n ↔ n ∈ children g p := by
  rw [mem_parents,mem_children]

theorem isTrigger_mem {n : NodeID} (is : isTrigger g n = true) : n ∈ ids g := by
  simp only [isTrigger,List.any_eq_true,decide_eq_true_eq] at is
  obtain ⟨node,member,rfl,_⟩ := is
  exact List.mem_map_of_mem member

theorem mem_roots {n : NodeID} : n ∈ (getRootNodes g).map (·.id) ↔ n ∈ ids g ∧ parents g n = [] := by
  have target : ∀ k : NodeID, k ∉ g.edges.map (·.targetNodeID) ↔ parents g k = [] := by
    intro k
    simp [parents,List.filter_eq_nil_iff]
  rw [ids]
  constructor
  · intro root
    obtain ⟨node,member,rfl⟩ := List.mem_map.mp root
    obtain ⟨member,apart⟩ := List.mem_filter.mp member
    exact ⟨List.mem_map_of_mem member,(target _).mp (of_decide_eq_true apart)⟩
  · rintro ⟨member,none⟩
    obtain ⟨node,stored,rfl⟩ := List.mem_map.mp member
    exact List.mem_map_of_mem (List.mem_filter.mpr ⟨stored,decide_eq_true ((target _).mpr none)⟩)

end Graph

def validateNodes (g : WorkflowGraph) : List ValidateNode :=
  g.nodes.map fun node => ⟨.row node.id,node.nodeType,node.category⟩

def validateEdges (g : WorkflowGraph) : List ValidateEdge :=
  g.edges.map fun edge => ⟨.row edge.sourceNodeID,.row edge.targetNodeID⟩

/-- A stored graph that OrchestrateWorkflow goes on with. Row ids and edges are primary
keys, and a graph without nodes is not found. -/
structure AcceptedGraph where
  graph : WorkflowGraph
  nonempty : graph.nodes ≠ []
  distinct : (ids graph).Nodup
  simple : graph.edges.Nodup
  accepted : ∃ visits, validateWorkflowGraph visits (validateNodes graph) (validateEdges graph) = .ok ()

section Accepted

variable (g : AcceptedGraph)

theorem AcceptedGraph.layered :
    (∀ e ∈ g.graph.edges, e.sourceNodeID ∈ ids g.graph ∧ e.targetNodeID ∈ ids g.graph) ∧
    ∃ depth : NodeID → Nat, ∀ e ∈ g.graph.edges, depth e.targetNodeID = depth e.sourceNodeID + 1 := by
  obtain ⟨visits,accepted⟩ := g.accepted
  have rows : (validateNodes g.graph).map (·.id) = (ids g.graph).map ID.row := by
    simp [validateNodes,ids]
  have distinct : ((validateNodes g.graph).map (·.id)).Nodup := by
    rw [rows]
    exact g.distinct.map fun a b same => ID.row.inj same
  obtain ⟨_,declared,depth,layered⟩ := accepted_layered distinct accepted
  rw [rows] at declared
  have sent : ∀ e ∈ g.graph.edges, (⟨.row e.sourceNodeID,.row e.targetNodeID⟩ : ValidateEdge) ∈
      validateEdges g.graph := fun e member => List.mem_map_of_mem member
  have row : ∀ n, ID.row n ∈ (ids g.graph).map ID.row → n ∈ ids g.graph := by
    intro n member
    obtain ⟨k,found,same⟩ := List.mem_map.mp member
    exact ID.row.inj same ▸ found
  constructor
  · intro e member
    obtain ⟨source,target⟩ := declared _ (sent e member)
    exact ⟨row _ source,row _ target⟩
  · exact ⟨fun n => depth (.row n),fun e member => layered.edge _ (sent e member)⟩

theorem AcceptedGraph.child_mem {n c : NodeID} (child : c ∈ children g.graph n) : c ∈ ids g.graph :=
  (g.layered.1 _ ((mem_children g.graph).mp child)).2

theorem AcceptedGraph.parent_mem {n p : NodeID} (parent : p ∈ parents g.graph n) : p ∈ ids g.graph :=
  (g.layered.1 _ ((mem_parents g.graph).mp parent)).1

/-- Induction along the edges, from the roots down. -/
theorem AcceptedGraph.induction {motive : NodeID → Prop}
    (step : ∀ n, (∀ p ∈ parents g.graph n, motive p) → motive n) (n : NodeID) : motive n := by
  obtain ⟨depth,below⟩ := g.layered.2
  induction rank : depth n using Nat.strong_induction_on generalizing n with
  | _ d ih =>
    apply step
    intro p parent
    have edge := below _ ((mem_parents g.graph).mp parent)
    apply ih (depth p) _ p rfl
    simp only at edge
    omega

end Accepted

/-- Nodes with empty configs, for examples. -/
def bare (categories : List (NodeID × Category)) (edges : List (NodeID × NodeID)) : WorkflowGraph where
  nodes := categories.map fun entry => ⟨entry.1,entry.2,"",.blank⟩
  edges := edges.map fun edge => ⟨edge.1,edge.2⟩

/-- A trigger and two actions in a row. -/
def chain : AcceptedGraph where
  graph := bare [(1,.trigger),(2,.action),(3,.action)] [(1,2),(2,3)]
  nonempty := by decide
  distinct := by decide
  simple := by decide
  accepted := ⟨.insertion,rfl⟩

/-- Two actions without edges. -/
def apart : AcceptedGraph where
  graph := bare [(1,.action),(2,.action)] []
  nonempty := by decide
  distinct := by decide
  simple := by decide
  accepted := ⟨.insertion,rfl⟩

/-- CreateWorkflowRun commits the run and one row for each node, triggers done. -/
def createWorkflowRun (g : WorkflowGraph) : Infra where
  run := ⟨.running,none⟩
  nodeRuns := fun n => ⟨if isTrigger g n then .success else .pending,0,none,none,none⟩
  runningSet := ∅
  finalizeLock := false
  updates := []
  queue := []
  delayed := []
  deadLetters := []
  published := []
  history := []

namespace Infra

variable (x : Infra)

def setNodeRun (n : NodeID) (row : NodeRun) : Infra :=
  {x with nodeRuns := fun other => if other = n then row else x.nodeRuns other}

@[simp] theorem setNodeRun_self (n : NodeID) (row : NodeRun) : (x.setNodeRun n row).nodeRuns n = row := by
  simp [setNodeRun]

theorem setNodeRun_other {n k : NodeID} {row : NodeRun} (different : k ≠ n) :
    (x.setNodeRun n row).nodeRuns k = x.nodeRuns k := by
  simp [setNodeRun,different]

def markWorkflowNodeAsRunning (n : NodeID) (startedAt : Int) (retryCount : Nat) : Infra :=
  x.setNodeRun n {x.nodeRuns n with
    status := .running, startedAt := some startedAt, retryCount := retryCount}

def updateWorkflowNodeRunStatus (n : NodeID) (status : NodeStatus) (err : Option String)
    (finishedAt : Int) : Infra :=
  x.setNodeRun n {x.nodeRuns n with
    status := status, finishedAt := some finishedAt, errorMessage := err}

def completeWorkflowRun (status : RunStatus) (finishedAt : Int) : Infra :=
  {x with run := ⟨status,some finishedAt⟩}

/-- GetWorkflowNodeRuns with the status filter "pending". -/
def pendingNodes (g : WorkflowGraph) : List NodeID :=
  (ids g).filter fun n => (x.nodeRuns n).status = .pending

def pendingChildren (g : WorkflowGraph) (n : NodeID) : List NodeID :=
  (children g n).filter fun c => (x.nodeRuns c).status = .pending

theorem mem_pendingNodes {x : Infra} {g : WorkflowGraph} {n : NodeID} :
    n ∈ x.pendingNodes g ↔ n ∈ ids g ∧ (x.nodeRuns n).status = .pending := by
  simp [pendingNodes]

theorem mem_pendingChildren {x : Infra} {g : WorkflowGraph} {n p : NodeID} :
    n ∈ x.pendingChildren g p ↔ p ∈ parents g n ∧ (x.nodeRuns n).status = .pending := by
  simp [pendingChildren,mem_parents_iff_children]

def parentsSucceeded (g : WorkflowGraph) (n : NodeID) : Bool :=
  (parents g n).all fun p => (x.nodeRuns p).status = .success

/-- The status that the finalizer derives from all node runs. -/
def finalStatus (g : WorkflowGraph) : RunStatus :=
  if ∃ n ∈ ids g, (x.nodeRuns n).status = .failed then .failed else .success

def initializeRunningNodeSet (nodeIDs : List NodeID) : Infra :=
  {x with runningSet := x.runningSet ∪ nodeIDs.toFinset}

/-- The script of MarkNodeCompleteAndCountRemaining: the set after SREM. -/
def markNodeComplete (n : NodeID) : Infra := {x with runningSet := x.runningSet.erase n}

def acquireFinalizationLock : Infra := {x with finalizeLock := true}

def publishNodeStatusUpdate (n : NodeID) (status : NodeStatus) : Infra :=
  {x with updates := x.updates ++ [(n,status)]}

def publish (n : NodeID) : Infra :=
  {x with queue := x.queue ++ [⟨n,0⟩], published := x.published ++ [⟨n,0⟩]}

/-- The copy of a failed message that goes through the delayed exchange. -/
def publishRetry (m : Message) : Infra :=
  {x with
    delayed := x.delayed ++ [⟨m.nodeID,m.retryCount + 1⟩]
    published := x.published ++ [⟨m.nodeID,m.retryCount + 1⟩]}

def deadLetter (m : Message) : Infra := {x with deadLetters := x.deadLetters ++ [m]}

def requeue (m : Message) : Infra := {x with queue := x.queue ++ [m]}

def record (e : Event) : Infra := {x with history := x.history ++ [e]}

/-- A message of the node is at the broker. -/
def Announced (n : NodeID) : Prop := ∃ m ∈ x.queue ++ x.delayed, m.nodeID = n

/-- The node has used up its attempts without success. -/
def Exhausted (n : NodeID) : Prop := (x.nodeRuns n).status = .failed ∧ (x.nodeRuns n).retryCount = 3

instance : DecidablePred x.Exhausted := fun n =>
  inferInstanceAs (Decidable ((x.nodeRuns n).status = .failed ∧ (x.nodeRuns n).retryCount = 3))

end Infra

end TinyAutomator.Run
