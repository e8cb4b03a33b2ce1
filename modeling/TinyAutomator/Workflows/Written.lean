import TinyAutomator.Workflows.Service
import TinyAutomator.Lib.Fold
import TinyAutomator.GraphLevels

/-! What a save leaves behind. A delta that is written to the graph it was computed from
stores the graph of the request: row ids stay, a UUID becomes a new row id. -/
namespace TinyAutomator.Workflows

/-- A config up to the keys that the service adds and to its storage. -/
def Config.essence (c : Config) : Config := { c.stored with userID := none, workflowID := none }

/-- The graph holds one row for each requested node and one edge for each requested edge. -/
structure Stores (r : UpdateRequest) (g : Graph) (rename : ID → NodeID)
    (row : WorkflowNodeDTO → NodeRow) : Prop where
  nodes : g.nodes.Perm (r.nodes.map row)
  id : ∀ d ∈ r.nodes, (row d).id = rename d.id
  category : ∀ d ∈ r.nodes, (row d).category = d.category
  nodeType : ∀ d ∈ r.nodes, (row d).nodeType = d.nodeType
  config : ∀ d ∈ r.nodes, Config.essence (row d).config = Config.essence (storedConfig d.config)
  position : ∀ d ∈ r.nodes, d.position = some (row d).position
  kept : ∀ n, ID.row n ∈ r.nodes.map (·.id) → rename (.row n) = n
  edges : ∀ e, e ∈ g.edges ↔ ∃ d ∈ r.edges, e = ⟨rename d.sourceNodeID,rename d.targetNodeID⟩

theorem wrap_ok {α : Type} {text : String} {x : Except String α} {a : α} :
    wrap text x = .ok a ↔ x = .ok a := by
  cases x <;> simp [wrap]

theorem stored_idem (j : Json) : j.stored.stored = j.stored := by cases j <;> rfl

theorem Config.stored_idem (c : Config) : c.stored.stored = c.stored := by
  simp [Config.stored,Workflows.stored_idem,Function.comp_def]

@[simp] theorem Config.essence_stored (c : Config) : Config.essence c.stored = Config.essence c := by
  rw [Config.essence,Config.stored_idem,Config.essence]

@[simp] theorem Config.essence_withIDs (c : Config) (userID : UserID) (w : WorkflowID) :
    Config.essence (Config.withIDs c userID w) = Config.essence c := by
  simp [Config.essence,Config.withIDs,Config.stored]

section Statements

variable {g h : Graph} {ran : NodeID → Bool} {text : String}

theorem deleteWorkflowNode_ok {id : NodeID} (deleted : g.deleteWorkflowNode ran id = .ok h) :
    h.nodes = g.nodes.filter (fun n => n.id ≠ id) ∧
    h.edges = g.edges.filter (fun e => e.sourceNodeID ≠ id ∧ e.targetNodeID ≠ id) := by
  unfold Graph.deleteWorkflowNode at deleted
  split at deleted
  next => contradiction
  next => cases deleted; exact ⟨rfl,rfl⟩

theorem deleteNodes_ok {ids : List NodeID}
    (deleted : ids.foldlM (fun g id => wrap text (g.deleteWorkflowNode ran id)) g = .ok h) :
    h.nodes = g.nodes.filter (fun n => n.id ∉ ids) ∧
    h.edges = g.edges.filter (fun e => e.sourceNodeID ∉ ids ∧ e.targetNodeID ∉ ids) := by
  refine Fold.foldlM_ok (fun done h => h.nodes = g.nodes.filter (fun n => n.id ∉ done) ∧
    h.edges = g.edges.filter fun e => e.sourceNodeID ∉ done ∧ e.targetNodeID ∉ done) ?_ ?_ deleted
  · simp
  · intro done id c d ⟨nodes,edges⟩ step
    obtain ⟨nodes',edges'⟩ := deleteWorkflowNode_ok (wrap_ok.mp step)
    rw [nodes',nodes,edges',edges,List.filter_filter,List.filter_filter]
    refine ⟨List.filter_congr fun n _ => ?_,List.filter_congr fun e _ => ?_⟩
    · simp [and_comm]
    · simp only [List.mem_append,List.mem_singleton,decide_eq_decide,not_or,
        ← Bool.decide_and]
      grind

theorem createWorkflowNode_ok {row : NodeRow} (created : g.createWorkflowNode row = .ok h) :
    h.nodes = g.nodes ++ [row] ∧ h.edges = g.edges := by
  unfold Graph.createWorkflowNode at created
  split at created
  next => contradiction
  next =>
    split at created
    next => cases created; exact ⟨rfl,rfl⟩
    next => contradiction

/-- The row of a new node, by the id that the transaction gave it. -/
def newRow (nodeIDs : NodeIDMap) (d : WorkflowNodeDTO) : NodeRow :=
  ⟨⟨nodeIDs d.id,d.category,d.nodeType,storedConfig d.config⟩,d.position.getD ⟨0,0⟩⟩

theorem createNode_ok {x y : Writing} {d : WorkflowNodeDTO} (created : x.createNode text d = .ok y) :
    y.nodeIDs = x.nodeIDs.set d.id x.nextNode ∧ y.graph.nodes = x.graph.nodes ++ [newRow y.nodeIDs d] ∧
    y.graph.edges = x.graph.edges ∧ d.position.isSome := by
  unfold Writing.createNode at created
  split at created
  next => contradiction
  next position known =>
    dsimp only at created
    split at created
    next => contradiction
    next g inserted =>
      cases created
      obtain ⟨nodes,edges⟩ := createWorkflowNode_ok (wrap_ok.mp inserted)
      refine ⟨rfl,?_,edges,by simp [known]⟩
      rw [nodes]
      simp [newRow,NodeIDMap.set,known]

theorem createNode_counter {x y : Writing} {d : WorkflowNodeDTO} (created : x.createNode text d = .ok y) :
    y.nextNode = x.nextNode + 1 := by
  unfold Writing.createNode at created
  split at created
  next => contradiction
  next =>
    dsimp only at created
    split at created
    next => contradiction
    next => cases created; rfl

theorem createNodes_ok {x y : Writing} {nodes : List WorkflowNodeDTO}
    (distinct : (nodes.map (·.id)).Nodup) (created : nodes.foldlM (Writing.createNode text) x = .ok y) :
    y.graph.nodes = x.graph.nodes ++ nodes.map (newRow y.nodeIDs) ∧ y.graph.edges = x.graph.edges ∧
    (∀ id, id ∉ nodes.map (·.id) → y.nodeIDs id = x.nodeIDs id) ∧
    ∀ d ∈ nodes, d.position.isSome := by
  induction nodes generalizing x with
  | nil =>
    rw [List.foldlM_nil] at created
    cases created
    simp
  | cons d rest ih =>
    obtain ⟨z,first,created⟩ := Fold.foldlM_cons_ok.mp created
    obtain ⟨fresh,distinct⟩ := List.nodup_cons.mp distinct
    obtain ⟨ids,nodes,edges,known⟩ := createNode_ok first
    obtain ⟨nodes',edges',ids',known'⟩ := ih distinct created
    have same : newRow y.nodeIDs d = newRow z.nodeIDs d := by
      simp only [newRow,ids' d.id fresh]
    refine ⟨?_,edges'.trans edges,?_,?_⟩
    · rw [nodes',nodes,List.map_cons,same,List.append_assoc]
      rfl
    · intro id apart
      rw [List.map_cons,List.mem_cons,not_or] at apart
      rw [ids' id apart.2,ids,NodeIDMap.set,if_neg apart.1]
    · intro e member
      rcases List.mem_cons.mp member with rfl | later
      · exact known
      · exact known' e later

/-- A turn of an update loop, seen from one row. -/
structure Targets (patch : NodeRow → WorkflowNodeDTO → NodeRow) : Prop where
  id : ∀ row d, (patch row d).id = row.id
  category : ∀ row d, (patch row d).category = row.category
  nodeType : ∀ row d, (patch row d).nodeType = row.nodeType
  apart : ∀ row d, d.id ≠ .row row.id → patch row d = row
  twice : ∀ row d, patch (patch row d) d = patch row d

def configure (row : NodeRow) (d : WorkflowNodeDTO) : NodeRow :=
  if d.id = .row row.id then
    { row with config := storedConfig d.config, position := d.position.getD row.position } else row

def place (row : NodeRow) (d : WorkflowNodeDTO) : NodeRow :=
  if d.id = .row row.id then { row with position := d.position.getD row.position } else row

theorem configure_targets : Targets configure where
  id := fun row d => by unfold configure; split <;> rfl
  category := fun row d => by unfold configure; split <;> rfl
  nodeType := fun row d => by unfold configure; split <;> rfl
  apart := fun row d apart => if_neg apart
  twice := fun row d => by
    by_cases own : d.id = .row row.id
    · cases position : d.position <;> simp [configure,own,position]
    · simp [configure,own]

theorem place_targets : Targets place where
  id := fun row d => by unfold place; split <;> rfl
  category := fun row d => by unfold place; split <;> rfl
  nodeType := fun row d => by unfold place; split <;> rfl
  apart := fun row d apart => if_neg apart
  twice := fun row d => by
    by_cases own : d.id = .row row.id
    · cases position : d.position <;> simp [place,own,position]
    · simp [place,own]

theorem atoi_some {id : ID} {n : NodeID} (parsed : ID.atoi id = some n) : id = .row n := by
  cases id <;> simp [ID.atoi] at parsed
  exact parsed ▸ rfl

theorem updateNode_ok {d : WorkflowNodeDTO} (updated : updateNode g d = .ok h) :
    h.nodes = g.nodes.map (configure · d) ∧ h.edges = g.edges := by
  unfold updateNode at updated
  split at updated
  next => contradiction
  next => contradiction
  next id position parsed known =>
    cases updated
    refine ⟨?_,rfl⟩
    have own := atoi_some parsed
    simp only [Graph.updateWorkflowNodeUI,Graph.updateWorkflowNode,Graph.amend,List.map_map]
    refine List.map_congr_left fun row _ => ?_
    by_cases same : row.id = id
    · simp [configure,own,same,known]
    · simp [configure,own,same,Ne.symm same]

theorem updateNodeUI_ok {d : WorkflowNodeDTO} (updated : updateNodeUI g d = .ok h) :
    h.nodes = g.nodes.map (place · d) ∧ h.edges = g.edges := by
  unfold updateNodeUI at updated
  split at updated
  next => contradiction
  next => contradiction
  next id position parsed known =>
    cases updated
    refine ⟨?_,rfl⟩
    have own := atoi_some parsed
    simp only [Graph.updateWorkflowNodeUI,Graph.amend]
    refine List.map_congr_left fun row _ => ?_
    by_cases same : row.id = id
    · simp [place,own,same,known]
    · simp [place,own,same,Ne.symm same]

theorem updates_ok {f : Graph → WorkflowNodeDTO → Except String Graph}
    {patch : NodeRow → WorkflowNodeDTO → NodeRow} {nodes : List WorkflowNodeDTO}
    (turn : ∀ g d h, f g d = .ok h → h.nodes = g.nodes.map (patch · d) ∧ h.edges = g.edges)
    (updated : nodes.foldlM f g = .ok h) :
    h.nodes = g.nodes.map (fun row => nodes.foldl patch row) ∧ h.edges = g.edges := by
  refine Fold.foldlM_ok (fun done h => h.nodes = g.nodes.map (fun row => done.foldl patch row) ∧
    h.edges = g.edges) ?_ ?_ updated
  · simp
  · intro done d c e ⟨nodes,edges⟩ step
    obtain ⟨nodes',edges'⟩ := turn c d e step
    rw [nodes',nodes,edges',edges,List.map_map]
    refine ⟨List.map_congr_left fun row _ => ?_,rfl⟩
    simp

theorem updateNodes_ok {nodes : List WorkflowNodeDTO} (updated : nodes.foldlM updateNode g = .ok h) :
    h.nodes = g.nodes.map (fun row => nodes.foldl configure row) ∧ h.edges = g.edges := by
  apply updates_ok _ updated
  intro g d h
  exact updateNode_ok

theorem updateNodesUI_ok {nodes : List WorkflowNodeDTO} (updated : nodes.foldlM updateNodeUI g = .ok h) :
    h.nodes = g.nodes.map (fun row => nodes.foldl place row) ∧ h.edges = g.edges := by
  apply updates_ok _ updated
  intro g d h
  exact updateNodeUI_ok

section Patches

variable {patch : NodeRow → WorkflowNodeDTO → NodeRow} {nodes : List WorkflowNodeDTO} {row : NodeRow}

theorem Targets.foldl_id (targets : Targets patch) : (nodes.foldl patch row).id = row.id := by
  induction nodes generalizing row with
  | nil => rfl
  | cons d rest ih => rw [List.foldl_cons,ih,targets.id]

theorem Targets.foldl_kind (targets : Targets patch) :
    (nodes.foldl patch row).category = row.category ∧ (nodes.foldl patch row).nodeType = row.nodeType := by
  induction nodes generalizing row with
  | nil => exact ⟨rfl,rfl⟩
  | cons d rest ih =>
    rw [List.foldl_cons]
    exact ⟨ih.1.trans (targets.category row d),ih.2.trans (targets.nodeType row d)⟩

theorem Targets.foldl_apart (targets : Targets patch) (apart : ∀ d ∈ nodes, d.id ≠ .row row.id) :
    nodes.foldl patch row = row := by
  induction nodes with
  | nil => rfl
  | cons d rest ih =>
    rw [List.foldl_cons,targets.apart row d (apart d List.mem_cons_self)]
    exact ih fun e member => apart e (List.mem_cons_of_mem _ member)

/-- Only the turns that name the row change it; they are all for one node. -/
theorem Targets.foldl_own (targets : Targets patch) {d : WorkflowNodeDTO}
    (single : ∀ e ∈ nodes, e.id = .row row.id → e = d) (member : d ∈ nodes) (own : d.id = .row row.id) :
    nodes.foldl patch row = patch row d := by
  induction nodes generalizing row with
  | nil => simp at member
  | cons e rest ih =>
    obtain ⟨first,single⟩ := List.forall_mem_cons.mp single
    rw [List.foldl_cons]
    by_cases names : e.id = .row row.id
    · rw [first names]
      have same : (patch row d).id = row.id := targets.id row d
      by_cases later : d ∈ rest
      · rw [ih (fun e member named => single e member (same ▸ named)) later (own.trans (same ▸ rfl)),targets.twice]
      · apply targets.foldl_apart
        intro e member named
        exact later (single e member (same ▸ named) ▸ member)
    · have later : d ∈ rest := by
        rcases List.mem_cons.mp member with rfl | later
        · exact absurd own names
        · exact later
      rw [targets.apart row e names]
      exact ih single later own

end Patches

theorem deleteEdges_ok {edges : List WorkflowEdge}
    (deleted : (edges.map fun e => (ID.row e.sourceNodeID,ID.row e.targetNodeID)).foldlM deleteEdge g = .ok h) :
    h.nodes = g.nodes ∧ h.edges = g.edges.filter (· ∉ edges) := by
  induction edges generalizing g with
  | nil =>
    rw [List.map_nil,List.foldlM_nil] at deleted
    cases deleted
    simp
  | cons e rest ih =>
    rw [List.map_cons] at deleted
    obtain ⟨c,first,deleted⟩ := Fold.foldlM_cons_ok.mp deleted
    cases first
    obtain ⟨nodes,edges⟩ := ih deleted
    refine ⟨nodes,?_⟩
    rw [edges]
    simp only [Graph.deleteWorkflowEdge,List.filter_filter]
    refine List.filter_congr fun x _ => ?_
    rw [← Bool.decide_and,decide_eq_decide,List.mem_cons,not_or]
    exact and_comm

theorem createEdge_ok {x y : Writing} {edge : ID × ID} (created : x.createEdge edge = .ok y) :
    y.graph.nodes = x.graph.nodes ∧ y.nodeIDs = x.nodeIDs ∧
    y.graph.edges = x.graph.edges ++ [⟨x.nodeIDs edge.1,x.nodeIDs edge.2⟩] := by
  unfold Writing.createEdge at created
  split at created
  next => contradiction
  next g inserted =>
    cases created
    have inserted := wrap_ok.mp inserted
    unfold Graph.createWorkflowEdge at inserted
    split at inserted
    next => contradiction
    next =>
      split at inserted
      next => cases inserted; exact ⟨rfl,rfl,rfl⟩
      next => contradiction

theorem createEdges_ok {x y : Writing} {edges : List (ID × ID)}
    (created : edges.foldlM Writing.createEdge x = .ok y) :
    y.graph.nodes = x.graph.nodes ∧ y.nodeIDs = x.nodeIDs ∧
    y.graph.edges = x.graph.edges ++ edges.map fun e => ⟨x.nodeIDs e.1,x.nodeIDs e.2⟩ := by
  refine Fold.foldlM_ok (fun done y => y.graph.nodes = x.graph.nodes ∧ y.nodeIDs = x.nodeIDs ∧
    y.graph.edges = x.graph.edges ++ done.map fun e => ⟨x.nodeIDs e.1,x.nodeIDs e.2⟩) ?_ ?_ created
  · simp
  · intro done e c d ⟨nodes,ids,edges⟩ step
    obtain ⟨nodes',ids',edges'⟩ := createEdge_ok step
    refine ⟨nodes'.trans nodes,ids'.trans ids,?_⟩
    rw [edges',edges,ids]
    simp

end Statements

section Delta

/-- The stored row that an id names. -/
def rowOf (g : Graph) (id : ID) : Option NodeRow := g.nodes.find? fun row => ID.row row.id = id

def changed (g : Graph) (d : WorkflowNodeDTO) : Bool :=
  (rowOf g d.id).any fun row => some row.config ≠ d.config

def moved (g : Graph) (d : WorkflowNodeDTO) : Bool :=
  (rowOf g d.id).any fun row =>
    d.position.any fun after => row.position.x ≠ after.x ∨ row.position.y ≠ after.y

/-- The node as it enters the delta: a changed config has got the service's keys. -/
def sent (r : UpdateRequest) (g : Graph) (d : WorkflowNodeDTO) : WorkflowNodeDTO :=
  if changed g d then d.withIDs r else d

/-- What the delta of a request against a graph is. -/
structure Diffed (r : UpdateRequest) (g : Graph) (delta : WorkflowDelta) : Prop where
  known : ∀ d ∈ r.nodes, ID.isUUID d.id = false → ∃ row, rowOf g d.id = some row ∧
    row.category = d.category ∧ row.nodeType = d.nodeType ∧ d.position.isSome
  create : delta.nodesToCreate = r.nodes.filter fun d => ID.isUUID d.id
  update : delta.nodesToUpdate = (r.nodes.filter (changed g)).map (·.withIDs r)
  updateUI : delta.nodesToUpdateUI = (r.nodes.filter (moved g)).map (sent r g)
  delete : delta.nodeIDsToDelete = g.ids.filter fun n => ID.row n ∉ r.nodes.map (·.id)
  add : delta.edgesToAdd = (r.edges.map (·.key)).filter
    (· ∉ g.edges.map fun e => (ID.row e.sourceNodeID,ID.row e.targetNodeID))
  cut : delta.edgesToDelete = (g.edges.filter fun e =>
    (ID.row e.sourceNodeID,ID.row e.targetNodeID) ∉ r.edges.map (·.key)).map
      fun e => (ID.row e.sourceNodeID,ID.row e.targetNodeID)

variable {g : Graph} {r : UpdateRequest} {delta delta' : WorkflowDelta} {env : Env} {s t : Store}
  {d : WorkflowNodeDTO} {row : NodeRow}

theorem rowOf_some {id : ID} (found : rowOf g id = some row) : row ∈ g.nodes ∧ id = .row row.id := by
  refine ⟨List.mem_of_find?_eq_some found,?_⟩
  have same := List.find?_some found
  exact (of_decide_eq_true same).symm

theorem rowOf_row (member : row ∈ g.nodes) : rowOf g (.row row.id) = some row := by
  have present : (rowOf g (.row row.id)).isSome := by
    rw [rowOf,List.find?_isSome]
    exact ⟨row,member,by simp⟩
  obtain ⟨other,found⟩ := Option.isSome_iff_exists.mp present
  obtain ⟨stored,same⟩ := rowOf_some found
  rw [found,List.inj_on_of_nodup_map g.nodeKey stored member (ID.row.inj same).symm]

theorem rowOf_uuid {id : ID} (uuid : ID.isUUID id = true) : rowOf g id = none := by
  cases found : rowOf g id with
  | none => rfl
  | some row =>
    rw [(rowOf_some found).2] at uuid
    contradiction

theorem find_dto (id : ID) : ((g.nodes.map NodeRow.dto).find? fun old => old.id = id) =
    (rowOf g id).map NodeRow.dto := by
  rw [List.find?_map]
  rfl

theorem compareUI_ok {node : WorkflowNodeDTO} (compared : compareUI row.dto node delta = .ok delta') :
    node.position.isSome ∧ delta' = if node.position.any fun after =>
      row.position.x ≠ after.x ∨ row.position.y ≠ after.y then
        { delta with nodesToUpdateUI := delta.nodesToUpdateUI ++ [node] } else delta := by
  unfold compareUI at compared
  split at compared
  next before after old new =>
    cases old
    refine ⟨by simp [new],?_⟩
    simp only [new,Option.any_some,decide_eq_true_eq]
    split at compared
    next differs => cases compared; rw [if_pos differs]
    next same => cases compared; rw [if_neg same]
  next => contradiction

theorem changed_iff (stored : rowOf g d.id = some row) : changed g d = true ↔ some row.config ≠ d.config := by
  simp [changed,stored]

theorem unchanged_iff (stored : rowOf g d.id = some row) : changed g d = false ↔ some row.config = d.config := by
  simp [changed,stored]

theorem compareUI_moved {node : WorkflowNodeDTO} (stored : rowOf g d.id = some row)
    (placed : node.position = d.position) (compared : compareUI row.dto node delta = .ok delta') :
    d.position.isSome ∧ delta' =
      if moved g d then { delta with nodesToUpdateUI := delta.nodesToUpdateUI ++ [node] } else delta := by
  obtain ⟨some_,first⟩ := compareUI_ok compared
  have moves : moved g d = node.position.any fun after =>
      row.position.x ≠ after.x ∨ row.position.y ≠ after.y := by
    rw [moved,stored,placed]
    rfl
  exact ⟨placed ▸ some_,moves ▸ first⟩

/-- The listed node that a node of the request stands for. -/
structure StandsFor (existing : List WorkflowNodeDTO) (d old : WorkflowNodeDTO) : Prop where
  found : existing.find? (fun old => old.id = d.id) = some old
  category : old.category = d.category
  nodeType : old.nodeType = d.nodeType
  plain : ID.isUUID d.id = false

theorem StandsFor.stored {old : WorkflowNodeDTO} (stands : StandsFor (g.nodes.map NodeRow.dto) d old) :
    ∃ row, rowOf g d.id = some row ∧ old = row.dto ∧ row.category = d.category ∧ row.nodeType = d.nodeType := by
  have found := stands.found
  rw [find_dto] at found
  obtain ⟨row,stored,rfl⟩ := Option.map_eq_some_iff.mp found
  exact ⟨row,stored,rfl,stands.category,stands.nodeType⟩

/-- The update of a node whose config has changed. -/
def retrigger (env : Env) (r : UpdateRequest) (left : Nat) (d : WorkflowNodeDTO) (s : Store) : Except String Store :=
  if (d.withIDs r).category = .trigger then
    TriggerRegistry.update env left (d.withIDs r).nodeType ((d.withIDs r).config.getD .blank) s
  else .ok s

/-- A turn of the node loop: the tables that it leaves, and the delta for the rest or the error that
ends the loop. -/
inductive NodeTurn (env : Env) (r : UpdateRequest) (existing : List WorkflowNodeDTO) (left : Nat)
    (d : WorkflowNodeDTO) (delta : WorkflowDelta) (s : Store) : Store → Except String WorkflowDelta → Prop where
  | created (uuid : ID.isUUID d.id = true) :
      NodeTurn env r existing left d delta s s (.ok { delta with nodesToCreate := delta.nodesToCreate ++ [d] })
  | refused (err : String) : NodeTurn env r existing left d delta s s (.error err)
  | kept {old : WorkflowNodeDTO} {delta' : WorkflowDelta} (stands : StandsFor existing d old)
      (same : old.config = d.config) (compared : compareUI old d delta = .ok delta') :
      NodeTurn env r existing left d delta s s (.ok delta')
  | stuck {old : WorkflowNodeDTO} {t : Store} (stands : StandsFor existing d old) (differs : old.config ≠ d.config)
      (updated : retrigger env r left d s = .ok t) (err : String) :
      NodeTurn env r existing left d delta s t (.error err)
  | changed {old : WorkflowNodeDTO} {t : Store} {delta' : WorkflowDelta} (stands : StandsFor existing d old)
      (differs : old.config ≠ d.config) (updated : retrigger env r left d s = .ok t)
      (compared : compareUI old (d.withIDs r) { delta with nodesToUpdate := delta.nodesToUpdate ++ [d.withIDs r] } =
        .ok delta') :
      NodeTurn env r existing left d delta s t (.ok delta')

/-- A turn leaves the tables as they are, or as the update of a changed node has left them. -/
theorem NodeTurn.leaves {existing : List WorkflowNodeDTO} {left : Nat} {result : Except String WorkflowDelta}
    (turn : NodeTurn env r existing left d delta s t result) :
    t = s ∨ ∃ old, StandsFor existing d old ∧ old.config ≠ d.config ∧ retrigger env r left d s = .ok t := by
  cases turn with
  | created | refused | kept => exact .inl rfl
  | stuck stands differs updated => exact .inr ⟨_,stands,differs,updated⟩
  | changed stands differs updated => exact .inr ⟨_,stands,differs,updated⟩

theorem diffNodes_turn (env : Env) (r : UpdateRequest) (existing rest : List WorkflowNodeDTO) (d : WorkflowNodeDTO)
    (delta : WorkflowDelta) (s : Store) : ∃ t result, NodeTurn env r existing rest.length d delta s t result ∧
      diffNodes env r existing (d :: rest) delta s = match result with
        | .error err => (t,.error err)
        | .ok delta' => diffNodes env r existing rest delta' t := by
  rw [diffNodes]
  split
  next uuid => exact ⟨s,_,.created uuid,rfl⟩
  next plain =>
    split
    next => exact ⟨s,_,.refused _,rfl⟩
    next old found =>
      split
      next => exact ⟨s,_,.refused _,rfl⟩
      next kind =>
        rw [not_or,not_not,not_not] at kind
        have stands : StandsFor existing d old := ⟨found,kind.1,kind.2,by simpa using plain⟩
        split
        next same =>
          split
          next => exact ⟨s,_,.refused _,rfl⟩
          next compared => exact ⟨s,_,.kept stands same compared,rfl⟩
        next differs =>
          dsimp only
          split
          next => exact ⟨s,_,.refused _,rfl⟩
          next t updated =>
            split
            next => exact ⟨t,_,.stuck stands differs updated _,rfl⟩
            next compared => exact ⟨t,_,.changed stands differs updated compared,rfl⟩

section StoredNodes

variable {existing rest : List WorkflowNodeDTO} {old : WorkflowNodeDTO}

theorem StandsFor.kind (stands : StandsFor existing d old) :
    ¬(old.category ≠ d.category ∨ old.nodeType ≠ d.nodeType) := by
  rw [not_or,not_not,not_not]
  exact ⟨stands.category,stands.nodeType⟩

theorem StandsFor.diffNodes_same (stands : StandsFor existing d old) (same : old.config = d.config)
    (compared : compareUI old d delta = .ok delta') :
    diffNodes env r existing (d :: rest) delta s = diffNodes env r existing rest delta' s := by
  rw [diffNodes]
  simp only [stands.plain,Bool.false_eq_true,if_false,stands.found,if_neg stands.kind,if_pos same,compared]

theorem StandsFor.diffNodes_changed (stands : StandsFor existing d old) (differs : old.config ≠ d.config)
    (updated : retrigger env r rest.length d s = .ok t) (compared : compareUI old (d.withIDs r)
      { delta with nodesToUpdate := delta.nodesToUpdate ++ [d.withIDs r] } = .ok delta') :
    diffNodes env r existing (d :: rest) delta s = diffNodes env r existing rest delta' t := by
  unfold retrigger at updated
  rw [diffNodes]
  simp only [stands.plain,Bool.false_eq_true,if_false,stands.found,if_neg stands.kind,if_neg differs,updated,compared]

theorem StandsFor.diffNodes_stuck {err : String} (stands : StandsFor existing d old) (differs : old.config ≠ d.config)
    (updated : retrigger env r rest.length d s = .ok t) (failed : compareUI old (d.withIDs r)
      { delta with nodesToUpdate := delta.nodesToUpdate ++ [d.withIDs r] } = .error err) :
    diffNodes env r existing (d :: rest) delta s = (t,.error err) := by
  unfold retrigger at updated
  rw [diffNodes]
  simp only [stands.plain,Bool.false_eq_true,if_false,stands.found,if_neg stands.kind,if_neg differs,updated,failed]

end StoredNodes

/-- A loop that ends well began with a turn that did. -/
theorem diffNodes_cons_ok {existing rest : List WorkflowNodeDTO}
    (ok : diffNodes env r existing (d :: rest) delta s = (t,.ok delta')) :
    ∃ u mid, NodeTurn env r existing rest.length d delta s u (.ok mid) ∧
      diffNodes env r existing rest mid u = (t,.ok delta') := by
  obtain ⟨u,result,turn,loop⟩ := diffNodes_turn env r existing rest d delta s
  rw [loop] at ok
  cases result with
  | error err => simp at ok
  | ok mid => exact ⟨u,mid,turn,ok⟩

/-- The loop only sorts the nodes of the request into the delta. -/
theorem diffNodes_ok {nodes : List WorkflowNodeDTO}
    (ok : diffNodes env r (g.nodes.map NodeRow.dto) nodes delta s = (t,.ok delta')) :
    (∀ d ∈ nodes, ID.isUUID d.id = false → ∃ row, rowOf g d.id = some row ∧
      row.category = d.category ∧ row.nodeType = d.nodeType ∧ d.position.isSome) ∧
    delta' = { delta with
      nodesToCreate := delta.nodesToCreate ++ nodes.filter fun d => ID.isUUID d.id
      nodesToUpdate := delta.nodesToUpdate ++ (nodes.filter (changed g)).map (·.withIDs r)
      nodesToUpdateUI := delta.nodesToUpdateUI ++ (nodes.filter (moved g)).map (sent r g) } := by
  induction nodes generalizing delta s with
  | nil =>
    simp only [diffNodes,Prod.mk.injEq,Except.ok.injEq] at ok
    simp [← ok.2]
  | cons d rest ih =>
    obtain ⟨u,mid,turn,ok⟩ := diffNodes_cons_ok ok
    obtain ⟨known,built⟩ := ih ok
    cases turn with
    | created uuid =>
      have none_ := rowOf_uuid (g := g) uuid
      refine ⟨List.forall_mem_cons.mpr ⟨fun plain => ?_,known⟩,?_⟩
      · rw [uuid] at plain
        contradiction
      · rw [built]
        simp [changed,moved,none_,uuid]
    | kept stands same compared =>
      obtain ⟨row,stored,rfl,category,nodeType⟩ := stands.stored
      obtain ⟨placed,first⟩ := compareUI_moved stored rfl compared
      have settled : changed g d = false := (unchanged_iff stored).mpr same
      refine ⟨List.forall_mem_cons.mpr ⟨fun _ => ⟨row,stored,category,nodeType,placed⟩,known⟩,?_⟩
      rw [built,first]
      cases moves : moved g d <;> simp [stands.plain,settled,moves,sent]
    | changed stands differs updated compared =>
      obtain ⟨row,stored,rfl,category,nodeType⟩ := stands.stored
      have position : (d.withIDs r).position = d.position := rfl
      obtain ⟨placed,first⟩ := compareUI_moved stored position compared
      have changes : changed g d = true := (changed_iff stored).mpr differs
      refine ⟨List.forall_mem_cons.mpr ⟨fun _ => ⟨row,stored,category,nodeType,placed⟩,known⟩,?_⟩
      rw [built,first]
      cases moves : moved g d <;> simp [stands.plain,changes,moves,sent]

theorem filterMap_atoi (rows : List NodeRow) :
    (rows.map NodeRow.dto).filterMap (fun old => ID.atoi old.id) = rows.map (·.id) := by
  simp [List.filterMap_map,Function.comp_def,NodeRow.dto,ID.atoi]

/-- The read of a save, taken apart. -/
theorem render_ok {w : WorkflowID} {existing : WorkflowGraphDTO}
    (rendered : renderWorkflowGraph env w s = .ok existing) : ∃ wf, s.workflows w = some wf ∧
      existing = ⟨wf.name,wf.description,wf.graph.nodes.map NodeRow.dto,wf.graph.edges.map edgeDTO⟩ := by
  unfold renderWorkflowGraph at rendered
  split at rendered
  next => contradiction
  next wf stored =>
    split at rendered
    next => contradiction
    next =>
      split at rendered
      next => contradiction
      next => cases rendered; exact ⟨wf,stored,rfl⟩

theorem render_answers {w : WorkflowID} {wf : Workflow} (answers : env.answers .graph = true)
    (stored : s.workflows w = some wf) (some_ : wf.graph.nodes ≠ []) :
    renderWorkflowGraph env w s = .ok
      ⟨wf.name,wf.description,wf.graph.nodes.map NodeRow.dto,wf.graph.edges.map edgeDTO⟩ := by
  simp [renderWorkflowGraph,stored,answers,some_]

theorem planUpdate_ok {plan : Plan} (planned : planUpdate env r s = (t,.ok plan)) :
    validateRequest env r.nodes r.edges = .ok () ∧
    ∃ wf delta, s.workflows r.workflowID = some wf ∧
      plan.existing = ⟨wf.name,wf.description,wf.graph.nodes.map NodeRow.dto,wf.graph.edges.map edgeDTO⟩ ∧
      diffNodes env r (wf.graph.nodes.map NodeRow.dto) r.nodes (.start r plan.existing) s = (t,.ok delta) ∧
      plan.delta = diffRest r plan.existing delta := by
  unfold planUpdate at planned
  split at planned
  next => simp at planned
  next valid =>
    split at planned
    next => simp at planned
    next existing rendered =>
      obtain ⟨wf,stored,rfl⟩ := render_ok (wrap_ok.mp rendered)
      split at planned
      next => simp at planned
      next u delta diffed =>
        cases planned
        exact ⟨valid,wf,delta,stored,rfl,diffed,rfl⟩

theorem plan_diffed {plan : Plan} {wf : Workflow} (planned : planUpdate env r s = (t,.ok plan))
    (stored : s.workflows r.workflowID = some wf) : Diffed r wf.graph plan.delta := by
  obtain ⟨_,wf',delta,stored',existing,diffed,built⟩ := planUpdate_ok planned
  obtain rfl := Option.some.inj (stored.symm.trans stored')
  obtain ⟨known,sorted⟩ := diffNodes_ok diffed
  have keys : ((wf.graph.edges.map edgeDTO).map (·.key)) =
      wf.graph.edges.map fun e => (ID.row e.sourceNodeID,ID.row e.targetNodeID) := by
    rw [List.map_map]
    rfl
  rw [built,sorted,existing]
  refine ⟨known,rfl,rfl,rfl,?_,?_,?_⟩
  · have listed : ∀ n : NodeID, ID.row n ∈ (r.nodes.filter fun d => !ID.isUUID d.id).map (·.id) ↔
        ID.row n ∈ r.nodes.map (·.id) := by
      intro n
      simp only [List.mem_map,List.mem_filter]
      constructor
      · rintro ⟨d,⟨member,_⟩,own⟩
        exact ⟨d,member,own⟩
      · rintro ⟨d,member,own⟩
        exact ⟨d,⟨member,by simp [own,ID.isUUID]⟩,own⟩
    simp only [diffRest,List.filter_map,filterMap_atoi,Graph.ids]
    congr 1
    refine List.filter_congr fun row _ => ?_
    simp only [Function.comp_apply,NodeRow.dto,decide_not]
    exact congrArg not (decide_eq_decide.mpr (listed row.id))
  · simp only [diffRest,keys]
  · simp only [diffRest,keys,List.filter_map]
    rfl

end Delta

section Applied

variable {g : Graph} {r : UpdateRequest} {delta : WorkflowDelta} {x : Writing} {ran : NodeID → Bool}
  {nextNode : NodeID} {d : WorkflowNodeDTO} {row : NodeRow}

/-- The statements of a save one after another. -/
theorem applyDelta_ok (diffed : Diffed r g delta)
    (fresh : ((r.nodes.filter fun d => ID.isUUID d.id).map (·.id)).Nodup)
    (applied : applyDelta ran delta (g.nodes.map NodeRow.dto) nextNode g = .ok x) :
    x.graph.nodes = ((g.nodes.filter fun n => ID.row n.id ∈ r.nodes.map (·.id)) ++
        (r.nodes.filter fun d => ID.isUUID d.id).map (newRow x.nodeIDs)).map (fun row =>
          ((r.nodes.filter (moved g)).map (sent r g)).foldl place
            (((r.nodes.filter (changed g)).map (·.withIDs r)).foldl configure row)) ∧
    (∀ d ∈ r.nodes, ID.isUUID d.id = true → d.position.isSome) ∧
    (∀ n ∈ g.ids, x.nodeIDs (.row n) = n) ∧
    x.graph.edges = ((g.edges.filter fun e => ID.row e.sourceNodeID ∈ r.nodes.map (·.id) ∧
          ID.row e.targetNodeID ∈ r.nodes.map (·.id)).filter fun e =>
            (ID.row e.sourceNodeID,ID.row e.targetNodeID) ∈ r.edges.map (·.key)) ++
      ((r.edges.map (·.key)).filter
        (· ∉ g.edges.map fun e => (ID.row e.sourceNodeID,ID.row e.targetNodeID))).map
          fun e => ⟨x.nodeIDs e.1,x.nodeIDs e.2⟩ := by
  unfold applyDelta at applied
  obtain ⟨deleted,delete,applied⟩ := Fold.bind_ok.mp applied
  obtain ⟨created,create,applied⟩ := Fold.bind_ok.mp applied
  obtain ⟨updated,update,applied⟩ := Fold.bind_ok.mp applied
  obtain ⟨placed,move,applied⟩ := Fold.bind_ok.mp applied
  obtain ⟨cut,cutting,add⟩ := Fold.bind_ok.mp applied
  rw [diffed.create] at create
  rw [diffed.cut] at cutting
  obtain ⟨nodes₁,edges₁⟩ := deleteNodes_ok delete
  obtain ⟨nodes₂,edges₂,ids₂,known⟩ := createNodes_ok fresh create
  obtain ⟨nodes₃,edges₃⟩ := updateNodes_ok update
  obtain ⟨nodes₄,edges₄⟩ := updateNodesUI_ok move
  obtain ⟨nodes₅,edges₅⟩ := deleteEdges_ok cutting
  obtain ⟨nodes₆,ids₆,edges₆⟩ := createEdges_ok add
  have kept : ∀ n ∈ g.ids, n ∉ delta.nodeIDsToDelete ↔ ID.row n ∈ r.nodes.map (·.id) := by
    intro n member
    rw [diffed.delete]
    simp [member]
  refine ⟨?_,?_,?_,?_⟩
  · have stay : deleted.nodes = g.nodes.filter fun n => ID.row n.id ∈ r.nodes.map (·.id) := by
      rw [nodes₁]
      refine List.filter_congr fun n member => ?_
      exact decide_eq_decide.mpr (kept n.id (List.mem_map_of_mem member))
    rw [nodes₆,nodes₅,nodes₄,nodes₃,nodes₂,ids₆,stay,diffed.update,diffed.updateUI,List.map_map]
    rfl
  · intro d member uuid
    exact known d (List.mem_filter.mpr ⟨member,uuid⟩)
  · intro n member
    have unborn : ID.row n ∉ (r.nodes.filter fun d => ID.isUUID d.id).map (·.id) := by
      intro listed
      obtain ⟨d,born,own⟩ := List.mem_map.mp listed
      have uuid := (List.mem_filter.mp born).2
      rw [own] at uuid
      contradiction
    have same : x.nodeIDs (.row n) = created.nodeIDs (.row n) := congrFun ids₆ _
    rw [same,ids₂ _ unborn]
    obtain ⟨row,stored,rfl⟩ := List.mem_map.mp member
    have listed : ID.row row.id ∈ (g.nodes.map NodeRow.dto).map (·.id) :=
      List.mem_map.mpr ⟨row.dto,List.mem_map_of_mem stored,rfl⟩
    exact if_pos listed
  · have stay : deleted.edges = g.edges.filter fun e => ID.row e.sourceNodeID ∈ r.nodes.map (·.id) ∧
        ID.row e.targetNodeID ∈ r.nodes.map (·.id) := by
      rw [edges₁]
      refine List.filter_congr fun e member => ?_
      obtain ⟨src,dst⟩ := g.endpoints e member
      rw [decide_eq_decide,kept _ src,kept _ dst]
    have same : x.nodeIDs = created.nodeIDs := ids₆
    rw [edges₆,edges₅,edges₄,edges₃,edges₂,stay,diffed.add,same]
    congr 1
    refine List.filter_congr fun e member => ?_
    have own := (List.mem_filter.mp member).1
    simp [own]

/-- The updates of a save, seen from one row. -/
def patched (r : UpdateRequest) (g : Graph) (row : NodeRow) : NodeRow :=
  ((r.nodes.filter (moved g)).map (sent r g)).foldl place
    (((r.nodes.filter (changed g)).map (·.withIDs r)).foldl configure row)

/-- The row a requested node had, or the one it is inserted with. -/
def base (g : Graph) (nodeIDs : NodeIDMap) (d : WorkflowNodeDTO) : NodeRow :=
  (rowOf g d.id).getD (newRow nodeIDs d)

def landed (r : UpdateRequest) (g : Graph) (nodeIDs : NodeIDMap) (d : WorkflowNodeDTO) : NodeRow :=
  patched r g (base g nodeIDs d)

theorem patched_id : (patched r g row).id = row.id :=
  (place_targets.foldl_id).trans configure_targets.foldl_id

theorem patched_kind : (patched r g row).category = row.category ∧
    (patched r g row).nodeType = row.nodeType :=
  ⟨place_targets.foldl_kind.1.trans configure_targets.foldl_kind.1,
    place_targets.foldl_kind.2.trans configure_targets.foldl_kind.2⟩

/-- The stored rows that stay are those of the requested row ids. -/
theorem kept_perm (diffed : Diffed r g delta) (distinct : (r.nodes.map (·.id)).Nodup)
    (nodeIDs : NodeIDMap) :
    (g.nodes.filter fun n => ID.row n.id ∈ r.nodes.map (·.id)).Perm
      ((r.nodes.filter fun d => !ID.isUUID d.id).map (base g nodeIDs)) := by
  have found : ∀ d ∈ r.nodes.filter (fun d => !ID.isUUID d.id), ∃ row, rowOf g d.id = some row ∧
      base g nodeIDs d = row ∧ row ∈ g.nodes ∧ d.id = .row row.id := by
    intro d member
    obtain ⟨member,plain⟩ := List.mem_filter.mp member
    obtain ⟨row,found,_⟩ := diffed.known d member (by simpa using plain)
    obtain ⟨stored,own⟩ := rowOf_some found
    exact ⟨row,found,by rw [base,found,Option.getD_some],stored,own⟩
  refine (List.perm_ext_iff_of_nodup (g.nodeKey.of_map.filter _) ?_).mpr fun row => ?_
  · apply List.Nodup.of_map fun row : NodeRow => ID.row row.id
    rw [List.map_map]
    have same : (r.nodes.filter fun d => !ID.isUUID d.id).map
        ((fun row : NodeRow => ID.row row.id) ∘ base g nodeIDs) =
        (r.nodes.filter fun d => !ID.isUUID d.id).map (·.id) := by
      refine List.map_congr_left fun d member => ?_
      obtain ⟨row,_,is,_,own⟩ := found d member
      rw [Function.comp_apply,is,own]
    rw [same]
    exact distinct.sublist (List.filter_sublist.map _)
  · constructor
    · intro member
      obtain ⟨stored,listed⟩ := List.mem_filter.mp member
      obtain ⟨d,requested,own⟩ := List.mem_map.mp (of_decide_eq_true listed)
      have plain : (!ID.isUUID d.id) = true := by rw [own]; rfl
      refine List.mem_map.mpr ⟨d,List.mem_filter.mpr ⟨requested,plain⟩,?_⟩
      rw [base,own,rowOf_row stored,Option.getD_some]
    · intro member
      obtain ⟨d,requested,is⟩ := List.mem_map.mp member
      obtain ⟨row',_,is',stored,own⟩ := found d requested
      obtain rfl : row' = row := is'.symm.trans is
      refine List.mem_filter.mpr ⟨stored,decide_eq_true ?_⟩
      exact own ▸ List.mem_map_of_mem (List.mem_filter.mp requested).1

/-- Whatever a request lists under one id is one node. -/
def Consistent (r : UpdateRequest) : Prop := ∀ d ∈ r.nodes, ∀ e ∈ r.nodes, d.id = e.id → d = e

theorem Consistent.of_distinct (distinct : (r.nodes.map (·.id)).Nodup) : Consistent r :=
  fun _ member _ other same => List.inj_on_of_nodup_map distinct member other same

/-- The turns of the config updates that name a row are those of its own node. -/
theorem configured (consistent : Consistent r) (member : d ∈ r.nodes)
    (own : d.id = .row row.id) :
    ((r.nodes.filter (changed g)).map (·.withIDs r)).foldl configure row =
      if changed g d then configure row (d.withIDs r) else row := by
  have single : ∀ e ∈ (r.nodes.filter (changed g)).map (·.withIDs r), e.id = .row row.id → e = d.withIDs r := by
    intro e turn same
    obtain ⟨f,listed,rfl⟩ := List.mem_map.mp turn
    have is := consistent f (List.mem_filter.mp listed).1 d member (Eq.trans same own.symm)
    rw [is]
  cases changes : changed g d with
  | true =>
    have turn : d.withIDs r ∈ (r.nodes.filter (changed g)).map (·.withIDs r) :=
      List.mem_map_of_mem (List.mem_filter.mpr ⟨member,changes⟩)
    rw [if_pos rfl,configure_targets.foldl_own single turn own]
  | false =>
    rw [if_neg Bool.false_ne_true]
    apply configure_targets.foldl_apart
    intro e turn same
    obtain ⟨f,listed,rfl⟩ := List.mem_map.mp turn
    obtain ⟨requested,differs⟩ := List.mem_filter.mp listed
    have is : f = d := consistent f requested d member (Eq.trans same own.symm)
    rw [is,changes] at differs
    contradiction

theorem sent_id : (sent r g d).id = d.id := by
  unfold sent
  split <;> rfl

theorem sent_position : (sent r g d).position = d.position := by
  unfold sent
  split <;> rfl

theorem positioned (consistent : Consistent r) (member : d ∈ r.nodes)
    (own : d.id = .row row.id) :
    ((r.nodes.filter (moved g)).map (sent r g)).foldl place row =
      if moved g d then place row (sent r g d) else row := by
  have single : ∀ e ∈ (r.nodes.filter (moved g)).map (sent r g), e.id = .row row.id → e = sent r g d := by
    intro e turn same
    obtain ⟨f,listed,rfl⟩ := List.mem_map.mp turn
    have is := consistent f (List.mem_filter.mp listed).1 d member (sent_id.symm.trans (same.trans own.symm))
    rw [is]
  cases moves : moved g d with
  | true =>
    have turn : sent r g d ∈ (r.nodes.filter (moved g)).map (sent r g) :=
      List.mem_map_of_mem (List.mem_filter.mpr ⟨member,moves⟩)
    rw [if_pos rfl,place_targets.foldl_own single turn (sent_id.trans own)]
  | false =>
    rw [if_neg Bool.false_ne_true]
    apply place_targets.foldl_apart
    intro e turn same
    obtain ⟨f,listed,rfl⟩ := List.mem_map.mp turn
    obtain ⟨requested,differs⟩ := List.mem_filter.mp listed
    have is : f = d := consistent f requested d member (sent_id.symm.trans (same.trans own.symm))
    rw [is,moves] at differs
    contradiction

/-- A row that stays ends up with the position of its node, and with its config if that
has changed. -/
theorem patched_kept (consistent : Consistent r) (member : d ∈ r.nodes)
    (found : rowOf g d.id = some row) (placed : d.position.isSome) :
    (patched r g row).config = (if changed g d then storedConfig (d.withIDs r).config else row.config) ∧
    d.position = some (patched r g row).position := by
  obtain ⟨stored,own⟩ := rowOf_some found
  obtain ⟨after,position⟩ := Option.isSome_iff_exists.mp placed
  have stays : moved g d = false → row.position = after := by
    intro stay
    have same : row.position.x = after.x ∧ row.position.y = after.y := by
      simpa [moved,found,position] using stay
    cases before : row.position
    cases after
    simp_all
  obtain ⟨mid,configure_,own',config,place_⟩ : ∃ mid, ((r.nodes.filter (changed g)).map
      (·.withIDs r)).foldl configure row = mid ∧ d.id = .row mid.id ∧
      mid.config = (if changed g d then storedConfig (d.withIDs r).config else row.config) ∧
      (mid.position = after ∨ mid.position = row.position) := by
    refine ⟨_,rfl,?_⟩
    rw [configured consistent member own]
    cases changes : changed g d with
    | true =>
      have turn : configure row (d.withIDs r) = { row with
          config := storedConfig (d.withIDs r).config, position := after } := by
        have ids : (d.withIDs r).id = .row row.id := own
        have same : (d.withIDs r).position = some after := position
        rw [configure,if_pos ids,same,Option.getD_some]
      rw [if_pos rfl,turn]
      exact ⟨own,rfl,.inl rfl⟩
    | false =>
      rw [if_neg Bool.false_ne_true]
      exact ⟨own,rfl,.inr rfl⟩
  rw [patched,configure_,positioned consistent member own']
  cases moves : moved g d with
  | true =>
    have turn : place mid (sent r g d) = { mid with position := after } := by
      rw [place,if_pos (sent_id.trans own'),sent_position,position,Option.getD_some]
    rw [if_pos rfl,turn]
    exact ⟨config,position⟩
  | false =>
    rw [if_neg Bool.false_ne_true]
    refine ⟨config,?_⟩
    rcases place_ with same | same
    · rw [same,position]
    · rw [same,stays moves,position]

theorem changed_false (found : rowOf g d.id = some row) (settled : changed g d = false) :
    d.config = some row.config := by
  have same : some row.config = d.config := by simpa [changed,found] using settled
  exact same.symm

theorem patched_essence (consistent : Consistent r) (member : d ∈ r.nodes)
    (found : rowOf g d.id = some row) (placed : d.position.isSome) :
    Config.essence (patched r g row).config = Config.essence (storedConfig d.config) := by
  rw [(patched_kept consistent member found placed).1]
  split
  next => cases config : d.config <;> simp [storedConfig,WorkflowNodeDTO.withIDs,config]
  next settled =>
    rw [changed_false found (by simpa using settled)]
    simp [storedConfig]

/-- The edges that stay and the edges that are added are the requested ones. -/
theorem mem_saved_edges {nodeIDs : NodeIDMap} {e : WorkflowEdge}
    (declared : ∀ e ∈ r.edges, e.sourceNodeID ∈ r.nodes.map (·.id) ∧ e.targetNodeID ∈ r.nodes.map (·.id))
    (kept : ∀ n, ID.row n ∈ r.nodes.map (·.id) → nodeIDs (.row n) = n) :
    e ∈ ((g.edges.filter fun e => ID.row e.sourceNodeID ∈ r.nodes.map (·.id) ∧
          ID.row e.targetNodeID ∈ r.nodes.map (·.id)).filter fun e =>
            (ID.row e.sourceNodeID,ID.row e.targetNodeID) ∈ r.edges.map (·.key)) ++
      ((r.edges.map (·.key)).filter
        (· ∉ g.edges.map fun e => (ID.row e.sourceNodeID,ID.row e.targetNodeID))).map
          (fun e => ⟨nodeIDs e.1,nodeIDs e.2⟩) ↔
    ∃ d ∈ r.edges, e = ⟨nodeIDs d.sourceNodeID,nodeIDs d.targetNodeID⟩ := by
  have named : ∀ d ∈ r.edges, ∀ old : WorkflowEdge,
      d.key = (ID.row old.sourceNodeID,ID.row old.targetNodeID) →
      old = ⟨nodeIDs d.sourceNodeID,nodeIDs d.targetNodeID⟩ := by
    intro d member old key
    obtain ⟨src,dst⟩ := declared d member
    obtain ⟨source,target⟩ := Prod.mk.inj key
    rw [source,target,kept _ (source ▸ src),kept _ (target ▸ dst)]
  rw [List.mem_append]
  constructor
  · rintro (stays | added)
    · obtain ⟨_,listed⟩ := List.mem_filter.mp stays
      obtain ⟨d,member,key⟩ := List.mem_map.mp (of_decide_eq_true listed)
      exact ⟨d,member,named d member e key⟩
    · obtain ⟨key,fresh,rfl⟩ := List.mem_map.mp added
      obtain ⟨d,member,rfl⟩ := List.mem_map.mp (List.mem_filter.mp fresh).1
      exact ⟨d,member,rfl⟩
  · rintro ⟨d,member,rfl⟩
    by_cases old : d.key ∈ g.edges.map fun e => (ID.row e.sourceNodeID,ID.row e.targetNodeID)
    · obtain ⟨e,stored,key⟩ := List.mem_map.mp old
      obtain ⟨src,dst⟩ := declared d member
      obtain ⟨source,target⟩ := Prod.mk.inj key
      left
      rw [← named d member e key.symm]
      refine List.mem_filter.mpr ⟨List.mem_filter.mpr ⟨stored,decide_eq_true ?_⟩,decide_eq_true ?_⟩
      · exact ⟨source ▸ src,target ▸ dst⟩
      · exact key ▸ List.mem_map_of_mem member
    · right
      refine List.mem_map.mpr ⟨d.key,List.mem_filter.mpr ⟨List.mem_map_of_mem member,?_⟩,rfl⟩
      exact decide_eq_true old

/-- A node with a row id keeps its row, which the updates may patch. -/
theorem landed_old (diffed : Diffed r g delta) (nodeIDs : NodeIDMap) (member : d ∈ r.nodes)
    (plain : ID.isUUID d.id = false) : ∃ row, rowOf g d.id = some row ∧
      landed r g nodeIDs d = patched r g row ∧ row.category = d.category ∧
      row.nodeType = d.nodeType ∧ d.position.isSome := by
  obtain ⟨row,found,rest⟩ := diffed.known d member plain
  exact ⟨row,found,by rw [landed,base,found,Option.getD_some],rest⟩

theorem base_new (nodeIDs : NodeIDMap) (uuid : ID.isUUID d.id = true) : base g nodeIDs d = newRow nodeIDs d := by
  rw [base,rowOf_uuid uuid,Option.getD_none]

/-- A new id is none of the stored ones, so no update reaches a new row. -/
theorem landed_new (diffed : Diffed r g delta) (distinct : (r.nodes.map (·.id)).Nodup)
    (applied : applyDelta ran delta (g.nodes.map NodeRow.dto) nextNode g = .ok x)
    (member : d ∈ r.nodes) (uuid : ID.isUUID d.id = true) :
    landed r g x.nodeIDs d = newRow x.nodeIDs d := by
  obtain ⟨nodes,_⟩ := applyDelta_ok diffed (distinct.sublist (List.filter_sublist.map _)) applied
  have fresh : ((g.nodes.filter fun n => ID.row n.id ∈ r.nodes.map (·.id)).map (·.id) ++
      ((r.nodes.filter fun d => ID.isUUID d.id).map (newRow x.nodeIDs)).map (·.id)).Nodup := by
    have key := x.graph.nodeKey
    rw [nodes,List.map_map] at key
    rw [← List.map_append]
    have same : ((fun row : NodeRow => row.id) ∘ fun row => patched r g row) = fun row => row.id :=
      funext fun _ => patched_id
    exact same ▸ key
  have apart : ∀ e ∈ r.nodes, (rowOf g e.id).isSome → e.id ≠ .row (newRow x.nodeIDs d).id := by
    intro e listed stored same
    obtain ⟨row,found⟩ := Option.isSome_iff_exists.mp stored
    obtain ⟨stored,own⟩ := rowOf_some found
    have stays : row ∈ g.nodes.filter fun n => ID.row n.id ∈ r.nodes.map (·.id) :=
      List.mem_filter.mpr ⟨stored,decide_eq_true (own ▸ List.mem_map_of_mem listed)⟩
    have new : newRow x.nodeIDs d ∈ (r.nodes.filter fun d => ID.isUUID d.id).map (newRow x.nodeIDs) :=
      List.mem_map_of_mem (List.mem_filter.mpr ⟨member,uuid⟩)
    refine (List.nodup_append.mp fresh).2.2 row.id (List.mem_map_of_mem stays) _
      (List.mem_map_of_mem new) ?_
    exact ID.row.inj (own.symm.trans same)
  rw [landed,base_new _ uuid,patched,configure_targets.foldl_apart,place_targets.foldl_apart]
  · intro e turn
    obtain ⟨f,listed,rfl⟩ := List.mem_map.mp turn
    obtain ⟨requested,moves⟩ := List.mem_filter.mp listed
    rw [sent_id]
    exact apart f requested (Option.isSome_of_any moves)
  · intro e turn
    obtain ⟨f,listed,rfl⟩ := List.mem_map.mp turn
    obtain ⟨requested,changes⟩ := List.mem_filter.mp listed
    exact apart f requested (Option.isSome_of_any changes)

theorem landed_perm (diffed : Diffed r g delta) (distinct : (r.nodes.map (·.id)).Nodup)
    (applied : applyDelta ran delta (g.nodes.map NodeRow.dto) nextNode g = .ok x) :
    x.graph.nodes.Perm (r.nodes.map (landed r g x.nodeIDs)) := by
  obtain ⟨nodes,_⟩ := applyDelta_ok diffed (distinct.sublist (List.filter_sublist.map _)) applied
  have created : (r.nodes.filter fun d => ID.isUUID d.id).map (newRow x.nodeIDs) =
      (r.nodes.filter fun d => ID.isUUID d.id).map (base g x.nodeIDs) := by
    refine List.map_congr_left fun d member => ?_
    exact (base_new _ (List.mem_filter.mp member).2).symm
  have all : (r.nodes.map (base g x.nodeIDs)).Perm
      ((g.nodes.filter fun n => ID.row n.id ∈ r.nodes.map (·.id)) ++
        (r.nodes.filter fun d => ID.isUUID d.id).map (newRow x.nodeIDs)) := by
    rw [created]
    refine ((List.filter_append_perm (fun d => ID.isUUID d.id) r.nodes).symm.map _).trans ?_
    rw [List.map_append]
    exact List.perm_append_comm.trans ((kept_perm diffed distinct x.nodeIDs).symm.append_right _)
  rw [nodes]
  have ended := (all.map (patched r g)).symm
  rw [List.map_map] at ended
  exact ended

/-- A save that is written to the graph it was computed from stores the request. -/
theorem applyDelta_stores (diffed : Diffed r g delta) (distinct : (r.nodes.map (·.id)).Nodup)
    (declared : ∀ e ∈ r.edges, e.sourceNodeID ∈ r.nodes.map (·.id) ∧ e.targetNodeID ∈ r.nodes.map (·.id))
    (applied : applyDelta ran delta (g.nodes.map NodeRow.dto) nextNode g = .ok x) :
    Stores r x.graph x.nodeIDs (landed r g x.nodeIDs) := by
  obtain ⟨_,placed,fixed,edges⟩ := applyDelta_ok diffed (distinct.sublist (List.filter_sublist.map _)) applied
  have new : ∀ d ∈ r.nodes, ID.isUUID d.id = true → landed r g x.nodeIDs d = newRow x.nodeIDs d :=
    fun d member uuid => landed_new diffed distinct applied member uuid
  have stored : ∀ d ∈ r.nodes, ID.isUUID d.id = true ∨ ∃ row, rowOf g d.id = some row ∧
      landed r g x.nodeIDs d = patched r g row ∧ row.category = d.category ∧
      row.nodeType = d.nodeType ∧ d.position.isSome := by
    intro d member
    by_cases uuid : ID.isUUID d.id = true
    · exact .inl uuid
    · exact .inr (landed_old diffed _ member (by simpa using uuid))
  have kept : ∀ n, ID.row n ∈ r.nodes.map (·.id) → x.nodeIDs (.row n) = n := by
    intro n listed
    obtain ⟨d,member,own⟩ := List.mem_map.mp listed
    obtain ⟨row,found,_⟩ := diffed.known d member (by rw [own]; rfl)
    obtain ⟨present,same⟩ := rowOf_some found
    rw [ID.row.inj (own.symm.trans same)]
    exact fixed row.id (List.mem_map_of_mem present)
  refine ⟨landed_perm diffed distinct applied,?_,?_,?_,?_,?_,kept,?_⟩
  · intro d member
    rcases stored d member with uuid | ⟨row,found,is,_⟩
    · rw [new d member uuid]
      rfl
    · obtain ⟨present,own⟩ := rowOf_some found
      rw [is,patched_id,own,kept row.id (own ▸ List.mem_map_of_mem member)]
  · intro d member
    rcases stored d member with uuid | ⟨row,_,is,category,_⟩
    · rw [new d member uuid]
      rfl
    · rw [is,patched_kind.1,category]
  · intro d member
    rcases stored d member with uuid | ⟨row,_,is,_,nodeType,_⟩
    · rw [new d member uuid]
      rfl
    · rw [is,patched_kind.2,nodeType]
  · intro d member
    rcases stored d member with uuid | ⟨row,found,is,_,_,known⟩
    · rw [new d member uuid]
      rfl
    · rw [is]
      exact patched_essence (.of_distinct distinct) member found known
  · intro d member
    rcases stored d member with uuid | ⟨row,found,is,_,_,known⟩
    · obtain ⟨position,known⟩ := Option.isSome_iff_exists.mp (placed d member uuid)
      rw [new d member uuid]
      simp [newRow,known]
    · rw [is]
      exact (patched_kept (.of_distinct distinct) member found known).2
  · intro e
    rw [edges]
    exact mem_saved_edges declared kept

/-- A save without changes writes nothing, which is what its empty delta would do. -/
theorem applyDelta_unchanged (same : delta.unchanged) (existing : List WorkflowNodeDTO) :
    applyDelta ran delta existing nextNode g = .ok ⟨g,nextNode,existingNodeIDs existing⟩ := by
  obtain ⟨_,create,update,updateUI,delete,add,cut⟩ := same
  rw [applyDelta,create,update,updateUI,delete,add,cut]
  rfl

end Applied

section Saved

variable {env : Env} {r : UpdateRequest} {plan : Plan} {s t u v : Store} {wf wf' : Workflow}

/-- A validated request has declared endpoints, and its nodes and edges can be layered. -/
theorem validateRequest_ok {nodes : List WorkflowNodeDTO} {edges : List WorkflowEdgeDTO}
    (valid : validateRequest env nodes edges = .ok ()) :
    validateWorkflowGraph env.visits (prepForValidate nodes edges).1 (prepForValidate nodes edges).2 =
      .ok () ∧ ∀ node ∈ nodes, validateNode env node = .ok () := by
  unfold validateRequest at valid
  obtain ⟨⟨⟩,graph,each⟩ := Fold.bind_ok.mp valid
  exact ⟨wrap_ok.mp graph,fun node member => wrap_ok.mp (Fold.forM_ok.mp each node member)⟩

theorem prepForValidate_ids (nodes : List WorkflowNodeDTO) (edges : List WorkflowEdgeDTO) :
    (prepForValidate nodes edges).1.map (·.id) = nodes.map (·.id) := by
  simp [prepForValidate,Function.comp_def]

theorem declared_edges {nodes : List WorkflowNodeDTO} {edges : List WorkflowEdgeDTO}
    (distinct : (nodes.map (·.id)).Nodup) (valid : validateRequest env nodes edges = .ok ()) :
    ∀ e ∈ edges, e.sourceNodeID ∈ nodes.map (·.id) ∧ e.targetNodeID ∈ nodes.map (·.id) := by
  intro e member
  have ids := prepForValidate_ids nodes edges
  obtain ⟨_,declared,_⟩ := accepted_layered (ids ▸ distinct) (validateRequest_ok valid).1
  have ends := declared ⟨e.sourceNodeID,e.targetNodeID⟩ (List.mem_map_of_mem member)
  rwa [ids] at ends

/-- The store that a save leaves behind when its transaction is committed. -/
def Patches (env : Env) (r : UpdateRequest) (plan : Plan) (u v : Store) : Prop :=
  if plan.delta.unchanged then v = u
  else patchWorkflow env r.workflowID plan.delta plan.existing.nodes u = .ok v

/-- A save fails and writes nothing, or its transaction is committed, whatever is reported. -/
theorem writeUpdate_cases (env : Env) (r : UpdateRequest) (plan : Plan) (u : Store) :
    (∃ err, writeUpdate env r plan u = (u,.error err)) ∨
    ∃ v result, Patches env r plan u v ∧ writeUpdate env r plan u = (v,result) := by
  unfold writeUpdate Patches
  split
  next => exact .inr ⟨u,_,rfl,rfl⟩
  next =>
    cases patched : patchWorkflow env r.workflowID plan.delta plan.existing.nodes u with
    | error err =>
      simp only [updateWorkflowRows,patched]
      exact .inl ⟨_,rfl⟩
    | ok v =>
      simp only [updateWorkflowRows,patched,Env.commit]
      cases env.answers .transaction with
      | true => exact .inr ⟨v,.ok (),rfl,rfl⟩
      | false =>
        cases env.applied with
        | true => exact .inr ⟨v,.error _,rfl,rfl⟩
        | false => exact .inl ⟨_,rfl⟩

theorem writeUpdate_patches (written : writeUpdate env r plan u = (v,.ok ())) : Patches env r plan u v := by
  rcases writeUpdate_cases env r plan u with ⟨err,failed⟩ | ⟨v',result,patches,result_⟩
  · rw [failed] at written
    simp at written
  · rw [result_] at written
    cases written
    exact patches

theorem writeUpdate_error {err : String} (failed : writeUpdate env r plan u = (v,.error err)) :
    v = u ∨ Patches env r plan u v := by
  rcases writeUpdate_cases env r plan u with ⟨err,refused⟩ | ⟨v',result,patches,result_⟩
  · rw [refused] at failed
    cases failed
    exact .inl rfl
  · rw [result_] at failed
    cases failed
    exact .inr patches

/-- The write of a save changes the graph and the name of its workflow, by its delta. -/
theorem Patches.rows (patches : Patches env r plan u v) (current : u.workflows r.workflowID = some wf) :
    ∃ x wf', applyDelta env.ran plan.delta plan.existing.nodes u.nextNode wf.graph = .ok x ∧
      v.workflows r.workflowID = some wf' ∧ wf'.graph = x.graph ∧ wf'.schedules = wf.schedules ∧
      wf'.calendars = wf.calendars ∧ wf'.status = wf.status ∧ wf'.userID = wf.userID ∧
      (wf'.name,wf'.description) = if plan.delta.updateMetadata then (plan.delta.name,plan.delta.description)
        else (wf.name,wf.description) := by
  unfold Patches at patches
  split at patches
  next same =>
    subst patches
    refine ⟨_,wf,applyDelta_unchanged same _,current,rfl,rfl,rfl,rfl,rfl,?_⟩
    rw [same.1]
    rfl
  next =>
    unfold patchWorkflow at patches
    rw [current] at patches
    obtain ⟨x,applied,stored⟩ := Fold.bind_ok.mp patches
    cases stored
    refine ⟨x,_,applied,Store.put_self _ _ _,rfl,?_⟩
    split <;> exact ⟨rfl,rfl,rfl,rfl,rfl⟩

theorem writeUpdate_ok (written : writeUpdate env r plan u = (v,.ok ()))
    (current : u.workflows r.workflowID = some wf) :
    ∃ x wf', applyDelta env.ran plan.delta plan.existing.nodes u.nextNode wf.graph = .ok x ∧
      v.workflows r.workflowID = some wf' ∧ wf'.graph = x.graph ∧ wf'.schedules = wf.schedules ∧
      wf'.calendars = wf.calendars ∧ wf'.status = wf.status ∧ wf'.userID = wf.userID ∧
      (wf'.name,wf'.description) = if plan.delta.updateMetadata then (plan.delta.name,plan.delta.description)
        else (wf.name,wf.description) :=
  (writeUpdate_patches written).rows current

theorem Patches.none (patches : Patches env r plan u v) (missing : u.workflows r.workflowID = none) :
    v.workflows r.workflowID = none := by
  unfold Patches at patches
  split at patches
  next => rw [patches,missing]
  next =>
    unfold patchWorkflow at patches
    rw [missing] at patches
    contradiction

theorem Patches.other (patches : Patches env r plan u v) {w : WorkflowID} (other : w ≠ r.workflowID) :
    v.workflows w = u.workflows w := by
  unfold Patches at patches
  split at patches
  next => rw [patches]
  next =>
    unfold patchWorkflow at patches
    split at patches
    next => contradiction
    next =>
      obtain ⟨x,_,stored⟩ := Fold.bind_ok.mp patches
      cases stored
      exact Store.put_other _ _ other

theorem Patches.rest (patches : Patches env r plan u v) :
    v.nextWorkflow = u.nextWorkflow ∧ v.integrations = u.integrations := by
  unfold Patches at patches
  split at patches
  next => rw [patches]; exact ⟨rfl,rfl⟩
  next =>
    unfold patchWorkflow at patches
    split at patches
    next => contradiction
    next =>
      obtain ⟨x,_,stored⟩ := Fold.bind_ok.mp patches
      cases stored
      exact ⟨rfl,rfl⟩

theorem writeUpdate_other (env : Env) (r : UpdateRequest) (plan : Plan) (u : Store) {w : WorkflowID}
    (other : w ≠ r.workflowID) : (writeUpdate env r plan u).1.workflows w = u.workflows w := by
  rcases writeUpdate_cases env r plan u with ⟨err,failed⟩ | ⟨v,result,patches,written⟩
  · rw [failed]
  · rw [written]
    exact patches.other other

/-- A save that is committed while the graph is still the one it read stores its request. -/
theorem saved {env' : Env} (planned : planUpdate env r s = (t,.ok plan))
    (read : s.workflows r.workflowID = some wf) (current : u.workflows r.workflowID = some wf')
    (same : wf'.graph = wf.graph) (distinct : (r.nodes.map (·.id)).Nodup)
    (patches : Patches env' r plan u v) :
    ∃ wf'' rename row, v.workflows r.workflowID = some wf'' ∧ Stores r wf''.graph rename row := by
  obtain ⟨x,wf'',applied,stored,graph,_⟩ := patches.rows current
  obtain ⟨valid,wf₀,delta,read₀,existing,_⟩ := planUpdate_ok planned
  obtain rfl := Option.some.inj (read.symm.trans read₀)
  rw [existing,same] at applied
  have stores := applyDelta_stores (plan_diffed planned read) distinct (declared_edges distinct valid) applied
  exact ⟨wf'',_,_,stored,graph ▸ stores⟩

end Saved

end TinyAutomator.Workflows
