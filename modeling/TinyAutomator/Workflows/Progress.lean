import TinyAutomator.Workflows.Created

/-! When the statements of a transaction go through, loop by loop. -/
namespace TinyAutomator.Workflows

section Loops

variable {x y : Writing} {d : WorkflowNodeDTO} {nodes : List WorkflowNodeDTO} {text : String} {g h : Graph}
  {ran : NodeID → Bool} {edge : ID × ID} {edges : List (ID × ID)}

/-- What an insert of a node needs of the request. -/
def Storable (d : WorkflowNodeDTO) : Prop := d.position.isSome = true ∧ Allowed d.category

theorem createWorkflowNode_iff {row : NodeRow} :
    (∃ h, g.createWorkflowNode row = .ok h) ↔ row.id ∉ g.ids ∧ Allowed row.category := by
  unfold Graph.createWorkflowNode
  by_cases taken : row.id ∈ g.ids
  · simp [taken]
  · by_cases checked : Allowed row.category
    · simp [taken,checked]
    · simp [taken,checked]

theorem createNode_iff : (∃ y, x.createNode text d = .ok y) ↔ Storable d ∧ x.nextNode ∉ x.graph.ids := by
  unfold Writing.createNode Storable
  cases d.position with
  | none => simp
  | some position =>
    dsimp only
    have insert := @createWorkflowNode_iff x.graph
      ⟨⟨x.nextNode,d.category,d.nodeType,storedConfig d.config⟩,position⟩
    constructor
    · rintro ⟨y,created⟩
      split at created
      next => contradiction
      next h inserted =>
        obtain ⟨fresh,checked⟩ := insert.mp ⟨h,wrap_ok.mp inserted⟩
        exact ⟨⟨rfl,checked⟩,fresh⟩
    · rintro ⟨⟨_,checked⟩,fresh⟩
      obtain ⟨h,inserted⟩ := insert.mpr ⟨fresh,checked⟩
      rw [wrap_ok.mpr inserted]
      exact ⟨_,rfl⟩

theorem createNode_ids (created : x.createNode text d = .ok y) :
    y.nextNode = x.nextNode + 1 ∧ y.graph.ids = x.graph.ids ++ [x.nextNode] := by
  obtain ⟨ids,nodes,_,_⟩ := createNode_ok created
  refine ⟨createNode_counter created,?_⟩
  simp [Graph.ids,nodes,newRow,ids,NodeIDMap.set]

/-- A loop of inserts needs free numbers, one for each node. -/
theorem createNodes_iff : (∃ y, nodes.foldlM (Writing.createNode text) x = .ok y) ↔
    (∀ d ∈ nodes, Storable d) ∧ ∀ k < nodes.length, x.nextNode + k ∉ x.graph.ids := by
  induction nodes generalizing x with
  | nil => simp [pure,Except.pure]
  | cons d rest ih =>
    have numbers : ∀ y, x.createNode text d = .ok y → x.nextNode ∉ x.graph.ids →
        ((∀ k < rest.length, y.nextNode + k ∉ y.graph.ids) ↔
          ∀ k < (d :: rest).length, x.nextNode + k ∉ x.graph.ids) := by
      intro y created fresh
      obtain ⟨counter,ids⟩ := createNode_ids created
      rw [counter,ids]
      constructor
      · intro free k below taken
        cases k with
        | zero => exact fresh taken
        | succ k =>
          refine free k (by simpa using below) (List.mem_append_left _ ?_)
          rwa [Nat.add_assoc,Nat.add_comm 1 k]
      · intro free k below taken
        rcases List.mem_append.mp taken with old | new
        · refine free (k + 1) (by simpa using below) ?_
          rwa [Nat.add_assoc,Nat.add_comm 1 k] at old
        · have same : x.nextNode + 1 + k = x.nextNode := List.mem_singleton.mp new
          exact Nat.ne_of_gt (Nat.lt_of_lt_of_le (Nat.lt_succ_self _) (Nat.le_add_right _ k)) same
    constructor
    · rintro ⟨z,created⟩
      obtain ⟨y,first,later⟩ := Fold.foldlM_cons_ok.mp created
      obtain ⟨storable,fresh⟩ := createNode_iff.mp ⟨y,first⟩
      obtain ⟨all,free⟩ := ih.mp ⟨z,later⟩
      exact ⟨List.forall_mem_cons.mpr ⟨storable,all⟩,(numbers y first fresh).mp free⟩
    · rintro ⟨all,free⟩
      obtain ⟨storable,all⟩ := List.forall_mem_cons.mp all
      have fresh : x.nextNode ∉ x.graph.ids := free 0 (by simp)
      obtain ⟨y,first⟩ := createNode_iff.mpr ⟨storable,fresh⟩
      obtain ⟨z,later⟩ := ih.mpr ⟨all,(numbers y first fresh).mpr free⟩
      exact ⟨z,Fold.foldlM_cons_ok.mpr ⟨y,first,later⟩⟩

/-- The stored edge that a pair of ids stands for. -/
def Writing.resolve (x : Writing) (edge : ID × ID) : WorkflowEdge := ⟨x.nodeIDs edge.1,x.nodeIDs edge.2⟩

def Graph.Joins (g : Graph) (e : WorkflowEdge) : Prop := e.sourceNodeID ∈ g.ids ∧ e.targetNodeID ∈ g.ids

theorem createEdge_iff : (∃ y, x.createEdge edge = .ok y) ↔
    x.resolve edge ∉ x.graph.edges ∧ x.graph.Joins (x.resolve edge) := by
  have insert : (∃ h, x.graph.createWorkflowEdge (x.resolve edge) = .ok h) ↔
      x.resolve edge ∉ x.graph.edges ∧ x.graph.Joins (x.resolve edge) := by
    unfold Graph.createWorkflowEdge Graph.Joins
    by_cases taken : x.resolve edge ∈ x.graph.edges
    · simp [taken]
    · by_cases joins : (x.resolve edge).sourceNodeID ∈ x.graph.ids ∧ (x.resolve edge).targetNodeID ∈ x.graph.ids
      · simp [taken,joins]
      · simp [taken,joins]
  rw [← insert]
  unfold Writing.createEdge
  constructor
  · rintro ⟨y,created⟩
    split at created
    next => contradiction
    next h inserted => exact ⟨h,wrap_ok.mp inserted⟩
  · rintro ⟨h,inserted⟩
    rw [show (⟨x.nodeIDs edge.1,x.nodeIDs edge.2⟩ : WorkflowEdge) = x.resolve edge from rfl,
      wrap_ok.mpr inserted]
    exact ⟨_,rfl⟩

/-- A loop of inserts of edges needs new, distinct edges between stored nodes. -/
theorem createEdges_iff : (∃ y, edges.foldlM Writing.createEdge x = .ok y) ↔
    (x.graph.edges ++ edges.map x.resolve).Nodup ∧ ∀ e ∈ edges, x.graph.Joins (x.resolve e) := by
  induction edges generalizing x with
  | nil => simpa [pure,Except.pure] using x.graph.edgeKey
  | cons e rest ih =>
    have after : ∀ y, x.createEdge e = .ok y →
        (y.graph.edges ++ rest.map y.resolve = x.graph.edges ++ (e :: rest).map x.resolve) ∧
        ∀ f, y.graph.Joins (y.resolve f) ↔ x.graph.Joins (x.resolve f) := by
      intro y created
      obtain ⟨nodes,ids,edges⟩ := createEdge_ok created
      have resolve : y.resolve = x.resolve := by
        funext f
        rw [Writing.resolve,Writing.resolve,ids]
      refine ⟨?_,fun f => ?_⟩
      · rw [edges,resolve,List.append_assoc]
        rfl
      · rw [resolve,Graph.Joins,Graph.Joins,Graph.ids,Graph.ids,nodes]
    constructor
    · rintro ⟨z,created⟩
      obtain ⟨y,first,later⟩ := Fold.foldlM_cons_ok.mp created
      obtain ⟨_,joins⟩ := createEdge_iff.mp ⟨y,first⟩
      obtain ⟨distinct,all⟩ := ih.mp ⟨z,later⟩
      obtain ⟨list,same⟩ := after y first
      exact ⟨list ▸ distinct,List.forall_mem_cons.mpr ⟨joins,fun f member => (same f).mp (all f member)⟩⟩
    · rintro ⟨distinct,all⟩
      obtain ⟨joins,all⟩ := List.forall_mem_cons.mp all
      have fresh : x.resolve e ∉ x.graph.edges := by
        intro taken
        exact (List.nodup_append.mp distinct).2.2 _ taken _ (by simp) rfl
      obtain ⟨y,first⟩ := createEdge_iff.mpr ⟨fresh,joins⟩
      obtain ⟨list,same⟩ := after y first
      obtain ⟨z,later⟩ := ih.mpr ⟨list ▸ distinct,fun f member => (same f).mpr (all f member)⟩
      exact ⟨z,Fold.foldlM_cons_ok.mpr ⟨y,first,later⟩⟩

/-- A loop of deletes goes through exactly when no run refers to the nodes that are there. -/
theorem deleteNodes_iff {ids : List NodeID} :
    (∃ h, ids.foldlM (fun g id => wrap text (g.deleteWorkflowNode ran id)) g = .ok h) ↔
      ∀ id ∈ ids, id ∈ g.ids → ran id = false := by
  induction ids generalizing g with
  | nil => simp [pure,Except.pure]
  | cons id rest ih =>
    have delete : (∃ h, wrap text (g.deleteWorkflowNode ran id) = .ok h) ↔ (id ∈ g.ids → ran id = false) := by
      unfold Graph.deleteWorkflowNode
      by_cases held : id ∈ g.ids ∧ ran id = true
      · simp [held,wrap]
      · rw [if_neg held]
        refine iff_of_true ⟨_,rfl⟩ fun stored => ?_
        rw [not_and,Bool.not_eq_true] at held
        exact held stored
    have after : ∀ h, wrap text (g.deleteWorkflowNode ran id) = .ok h → (id ∈ g.ids → ran id = false) →
        ((∀ n ∈ rest, n ∈ h.ids → ran n = false) ↔ ∀ n ∈ rest, n ∈ g.ids → ran n = false) := by
      intro h deleted free
      obtain ⟨nodes,_⟩ := deleteWorkflowNode_ok (wrap_ok.mp deleted)
      have ids : ∀ n, n ∈ h.ids ↔ n ∈ g.ids ∧ n ≠ id := by
        intro n
        simp only [Graph.ids,nodes,List.mem_map,List.mem_filter]
        constructor
        · rintro ⟨row,⟨stored,apart⟩,rfl⟩
          exact ⟨⟨row,stored,rfl⟩,of_decide_eq_true apart⟩
        · rintro ⟨⟨row,stored,rfl⟩,apart⟩
          exact ⟨row,⟨stored,decide_eq_true apart⟩,rfl⟩
      constructor
      · intro all n member stored
        by_cases same : n = id
        · exact same ▸ free (same ▸ stored)
        · exact all n member ((ids n).mpr ⟨stored,same⟩)
      · exact fun all n member stored => all n member ((ids n).mp stored).1
    rw [List.forall_mem_cons]
    constructor
    · rintro ⟨k,deleted⟩
      obtain ⟨h,first,later⟩ := Fold.foldlM_cons_ok.mp deleted
      have free := delete.mp ⟨h,first⟩
      exact ⟨free,(after h first free).mp (ih.mp ⟨k,later⟩)⟩
    · rintro ⟨free,all⟩
      obtain ⟨h,first⟩ := delete.mpr free
      obtain ⟨k,later⟩ := ih.mpr ((after h first free).mpr all)
      exact ⟨k,Fold.foldlM_cons_ok.mpr ⟨h,first,later⟩⟩

/-- Which rows a loop of deletes leaves does not depend on the runs. -/
theorem deleteNodes_eq {ids : List NodeID} {ran' : NodeID → Bool}
    (free : ∀ id ∈ ids, id ∈ g.ids → ran id = false) (free' : ∀ id ∈ ids, id ∈ g.ids → ran' id = false) :
    ids.foldlM (fun g id => wrap text (g.deleteWorkflowNode ran id)) g =
      ids.foldlM (fun g id => wrap text (g.deleteWorkflowNode ran' id)) g := by
  obtain ⟨h,deleted⟩ := (@deleteNodes_iff text _ _ _).mpr free
  obtain ⟨h',deleted'⟩ := (@deleteNodes_iff text _ _ _).mpr free'
  obtain ⟨nodes,edges⟩ := deleteNodes_ok deleted
  obtain ⟨nodes',edges'⟩ := deleteNodes_ok deleted'
  rw [deleted,deleted',Graph.ext_rows (nodes.trans nodes'.symm) (edges.trans edges'.symm)]

/-- A node with a stored id and a position can be updated. -/
def Placed (d : WorkflowNodeDTO) : Prop := (ID.atoi d.id).isSome = true ∧ d.position.isSome = true

theorem updateNodes_placed (placed : ∀ d ∈ nodes, Placed d) : ∃ h, nodes.foldlM updateNode g = .ok h := by
  apply Fold.foldlM_total
  intro d member g
  obtain ⟨id,parsed⟩ := Option.isSome_iff_exists.mp (placed d member).1
  obtain ⟨position,known⟩ := Option.isSome_iff_exists.mp (placed d member).2
  exact ⟨_,by rw [updateNode,parsed,known]⟩

theorem updateNodesUI_placed (placed : ∀ d ∈ nodes, Placed d) : ∃ h, nodes.foldlM updateNodeUI g = .ok h := by
  apply Fold.foldlM_total
  intro d member g
  obtain ⟨id,parsed⟩ := Option.isSome_iff_exists.mp (placed d member).1
  obtain ⟨position,known⟩ := Option.isSome_iff_exists.mp (placed d member).2
  exact ⟨_,by rw [updateNodeUI,parsed,known]⟩

theorem deleteEdges_rows {rows : List WorkflowEdge} :
    ∃ h, (rows.map fun e => (ID.row e.sourceNodeID,ID.row e.targetNodeID)).foldlM deleteEdge g = .ok h := by
  apply Fold.foldlM_total
  intro edge member g
  obtain ⟨e,_,rfl⟩ := List.mem_map.mp member
  exact ⟨_,rfl⟩

/-- After a loop of inserts the map holds the numbers of the new nodes, and what it held
for other ids. -/
theorem createNodes_resolve (created : nodes.foldlM (Writing.createNode text) x = .ok y) :
    (∀ id ∈ nodes.map (·.id), ∃ k d, nodes[k]? = some d ∧ d.id = id ∧ y.nodeIDs id = x.nextNode + k) ∧
    (∀ id, id ∉ nodes.map (·.id) → y.nodeIDs id = x.nodeIDs id) ∧
    (∀ k < nodes.length, x.nextNode + k ∈ y.graph.ids) ∧ (∀ n ∈ x.graph.ids, n ∈ y.graph.ids) ∧
    y.graph.edges = x.graph.edges := by
  have all := Fold.foldlM_ok (fun (done : List WorkflowNodeDTO) (y : Writing) =>
    y.nextNode = x.nextNode + done.length ∧
    (∀ id ∈ done.map (·.id), ∃ k d, done[k]? = some d ∧ d.id = id ∧ y.nodeIDs id = x.nextNode + k) ∧
    (∀ id, id ∉ done.map (·.id) → y.nodeIDs id = x.nodeIDs id) ∧
    (∀ k < done.length, x.nextNode + k ∈ y.graph.ids) ∧ (∀ n ∈ x.graph.ids, n ∈ y.graph.ids) ∧
    y.graph.edges = x.graph.edges) ?_ ?_ created
  · exact all.2
  · simp
  · intro done d y z ⟨counter,known,others,numbers,kept,edges⟩ step
    obtain ⟨ids,_,edges',_⟩ := createNode_ok step
    obtain ⟨counter',rows⟩ := createNode_ids step
    rw [ids,rows,edges']
    refine ⟨?_,fun id member => ?_,fun id absent => ?_,fun k below => ?_,fun n old => ?_,edges⟩
    · rw [counter',counter,List.length_append,List.length_singleton,Nat.add_assoc]
    · by_cases own : id = d.id
      · refine ⟨done.length,d,by simp,own.symm,?_⟩
        rw [NodeIDMap.set,if_pos own,counter]
      · have old : id ∈ done.map (·.id) := by simpa [own] using member
        obtain ⟨k,e,at_,carries,number⟩ := known id old
        refine ⟨k,e,?_,carries,by rw [NodeIDMap.set,if_neg own,number]⟩
        rw [List.getElem?_append_left (List.getElem?_eq_some_iff.mp at_).1,at_]
    · rw [List.map_append,List.mem_append,not_or] at absent
      rw [NodeIDMap.set,if_neg (by simpa using absent.2),others id absent.1]
    · rw [List.length_append,List.length_singleton] at below
      rcases Nat.lt_succ_iff_lt_or_eq.mp below with old | rfl
      · exact List.mem_append_left _ (numbers k old)
      · exact List.mem_append_right _ (by rw [counter]; exact List.mem_singleton_self _)
    · exact List.mem_append_left _ (kept n old)

end Loops

end TinyAutomator.Workflows
