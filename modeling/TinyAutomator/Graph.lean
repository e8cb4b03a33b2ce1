import TinyAutomator.Lib.Kahn
import TinyAutomator.Models
import Mathlib.Data.List.Dedup

/-! Validation of a workflow graph: Kahn's sort of the node indices, then one pass
that assigns levels. The graph package stores edges in a map, so each visit of a
node may list its neighbours in another order. -/
namespace TinyAutomator

/-- The orders in which ranging over a map may go: `call` numbers the visits. -/
structure MapOrder where
  pick : Nat → List Nat → List Nat
  perm : ∀ call neighbours, (pick call neighbours).Perm neighbours

/-- Insertion order, for examples. -/
def MapOrder.insertion : MapOrder := ⟨fun _ l => l,fun _ _ => .refl _⟩

def getRootNodes (graph : WorkflowGraph) : List WorkflowNode :=
  graph.nodes.filter fun node => node.id ∉ graph.edges.map (·.targetNodeID)

/-- `idToIdx` is written once per node, so the last node with an id wins. -/
def idToIdx : List ValidateNode → Nat → ID → Option Nat
  | [], _, _ => none
  | node :: rest, idx, id =>
    (idToIdx rest (idx + 1) id).or (if node.id = id then some idx else none)

/-- `idxToNode[idx].ID`, empty for a missing key. -/
def idOfIdx (nodes : List ValidateNode) (idx : Nat) : ID :=
  (nodes[idx]?.map ValidateNode.id).getD ID.empty

def edgeIdx (nodes : List ValidateNode) (edge : ValidateEdge) : Except String (Nat × Nat) :=
  match idToIdx nodes 0 edge.sourceNodeID, idToIdx nodes 0 edge.targetNodeID with
  | some fromIdx, some toIdx => .ok (fromIdx,toIdx)
  | _, _ => .error s!"validation error: invalid edge: {edge.sourceNodeID.text} -> {edge.targetNodeID.text}"

/-- `g.Add` keeps one edge for each pair of indices. -/
def neighbours (pairs : List (Nat × Nat)) (idx : Nat) : List Nat :=
  ((pairs.filter fun pair => pair.1 = idx).map Prod.snd).dedup

abbrev Levels := ID → Option Nat

def Levels.set (level : Levels) (id : ID) (value : Nat) : Levels :=
  fun other => if other = id then some value else level other

/-- The callback of `g.Visit`: the first neighbour that fails ends the visit. -/
def visitChildren (idOf : Nat → ID) (parent : ID) : List Nat → Levels → Except String Levels
  | [], level => .ok level
  | childIdx :: rest, level =>
    let child := idOf childIdx
    let parentLevel := level parent
    let childLevel := level child
    if parentLevel.isSome && childLevel.isSome && 0 < parentLevel.getD 0 && 0 < childLevel.getD 0
        && childLevel.getD 0 ≤ parentLevel.getD 0 then
      .error s!"validation error: node id {parent.text} → {child.text} invalid relationship"
    else visitChildren idOf parent rest (level.set child (parentLevel.getD 0 + 1))

def checkLevels (idOf : Nat → ID) (visit : Nat → List Nat) : List Nat → Levels → Except String Levels
  | [], level => .ok level
  | nodeIdx :: rest, level =>
    let id := idOf nodeIdx
    let level := if (level id).isNone then level.set id 0 else level
    match visitChildren idOf id (visit nodeIdx) level with
    | .ok level => checkLevels idOf visit rest level
    | .error err => .error err

def validateWorkflowGraph (visits : MapOrder) (nodes : List ValidateNode)
    (edges : List ValidateEdge) : Except String Unit :=
  if ∃ node ∈ nodes, node.id = ID.empty then .error "validation error: node ID is empty"
  else
    match edges.mapM (edgeIdx nodes) with
    | .error err => .error err
    | .ok pairs =>
      match Kahn.topSort (List.range nodes.length)
          (fun idx => visits.pick (2 * idx) (neighbours pairs idx)) with
      | none => .error "validation error: cycle detected"
      | some order =>
        match checkLevels (idOfIdx nodes)
            (fun idx => visits.pick (2 * idx + 1) (neighbours pairs idx)) order (fun _ => none) with
        | .ok _ => .ok ()
        | .error err => .error err

end TinyAutomator
