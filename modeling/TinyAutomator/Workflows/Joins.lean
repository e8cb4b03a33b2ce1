import TinyAutomator.Workflows.Saves

/-! The rows behind the two readers of a graph: every node with each edge that leaves it, in
any order, and the loop that takes them apart again. -/
namespace TinyAutomator.Workflows

/-- A row of the GetWorkflowGraph query; an outer join leaves out no node. -/
structure GraphRow where
  node : WorkflowNode
  edge : Option WorkflowEdge
  deriving DecidableEq

def Graph.leaving (g : Graph) (n : NodeID) : List WorkflowEdge :=
  g.edges.filter fun e => e.sourceNodeID = n

def Graph.joinNode (g : Graph) (n : NodeRow) : List GraphRow :=
  match g.leaving n.id with
  | [] => [⟨n.toWorkflowNode,none⟩]
  | edges => edges.map fun e => ⟨n.toWorkflowNode,some e⟩

def Graph.join (g : Graph) : List GraphRow := g.nodes.flatMap g.joinNode

/-- One turn of the loop: a node already in the map is not decoded again. -/
def collectRow (x : WorkflowGraph) (row : GraphRow) : WorkflowGraph where
  nodes := if row.node.id ∈ x.nodes.map (·.id) then x.nodes else x.nodes ++ [row.node]
  edges := x.edges ++ row.edge.toList

def collectRows (rows : List GraphRow) : Except String WorkflowGraph :=
  if rows = [] then .error "no rows found for workflow graph"
  else .ok (rows.foldl collectRow ⟨[],[]⟩)

/-- What GetWorkflowGraph may return: rows come in any order, nodes in map order. -/
def ReadsBack (g : Graph) (h : WorkflowGraph) : Prop :=
  ∃ rows x, rows.Perm g.join ∧ collectRows rows = .ok x ∧ h.nodes.Perm x.nodes ∧ h.edges = x.edges

section Join

variable {g : Graph} {n : NodeRow} {row : GraphRow} {rows : List GraphRow} {x : WorkflowGraph}

theorem joinNode_node (member : row ∈ g.joinNode n) : row.node = n.toWorkflowNode := by
  unfold Graph.joinNode at member
  split at member
  next => rw [List.mem_singleton.mp member]
  next =>
    obtain ⟨e,_,rfl⟩ := List.mem_map.mp member
    rfl

theorem joinNode_ne_nil : g.joinNode n ≠ [] := by
  unfold Graph.joinNode
  split
  next => exact List.cons_ne_nil _ _
  next some_ =>
    intro none_
    exact some_ (List.map_eq_nil_iff.mp none_)

theorem joinNode_edges : (g.joinNode n).flatMap (·.edge.toList) = g.leaving n.id := by
  unfold Graph.joinNode
  split
  next none_ => rw [none_]; rfl
  next =>
    rw [List.flatMap_map]
    exact List.flatMap_singleton' _

theorem join_eq_nil : g.join = [] ↔ g.nodes = [] := by
  rw [Graph.join,List.flatMap_eq_nil_iff]
  constructor
  · intro none_
    by_contra some_
    obtain ⟨n,member⟩ := List.exists_mem_of_ne_nil _ some_
    exact joinNode_ne_nil (none_ n member)
  · intro none_ n member
    simp [none_] at member

theorem join_edges : (g.join.flatMap (·.edge.toList)).Perm g.edges := by
  rw [Graph.join,List.flatMap_assoc]
  simp only [joinNode_edges]
  refine (List.perm_ext_iff_of_nodup ?_ g.edgeKey).mpr fun e => ?_
  · refine List.nodup_flatMap.mpr ⟨fun n _ => g.edgeKey.filter _,?_⟩
    refine (List.pairwise_map.mp g.nodeKey).imp ?_
    intro a b apart e first second
    have left := of_decide_eq_true (List.mem_filter.mp first).2
    have right := of_decide_eq_true (List.mem_filter.mp second).2
    exact apart (left.symm.trans right)
  · rw [List.mem_flatMap]
    constructor
    · rintro ⟨n,_,member⟩
      exact (List.mem_filter.mp member).1
    · intro member
      obtain ⟨n,stored,same⟩ := List.mem_map.mp (g.endpoints e member).1
      exact ⟨n,stored,List.mem_filter.mpr ⟨member,decide_eq_true same.symm⟩⟩

theorem collect_edges (x : WorkflowGraph) : (rows.foldl collectRow x).edges =
    x.edges ++ rows.flatMap (·.edge.toList) := by
  induction rows generalizing x with
  | nil => simp
  | cons row rest ih => rw [List.foldl_cons,ih,collectRow,List.flatMap_cons,List.append_assoc]

/-- The map holds each node of the rows once. -/
theorem collect_nodes (x : WorkflowGraph) (distinct : (x.nodes.map (·.id)).Nodup) :
    ((rows.foldl collectRow x).nodes.map (·.id)).Nodup ∧
    (∀ n ∈ (rows.foldl collectRow x).nodes, n ∈ x.nodes ∨ ∃ row ∈ rows, row.node = n) ∧
    ∀ id, id ∈ (rows.foldl collectRow x).nodes.map (·.id) ↔
      id ∈ x.nodes.map (·.id) ∨ ∃ row ∈ rows, row.node.id = id := by
  induction rows generalizing x with
  | nil => simp [distinct]
  | cons row rest ih =>
    rw [List.foldl_cons]
    have turn : ((collectRow x row).nodes.map (·.id)).Nodup ∧
        (∀ n ∈ (collectRow x row).nodes, n ∈ x.nodes ∨ row.node = n) ∧
        ∀ id, id ∈ (collectRow x row).nodes.map (·.id) ↔ id ∈ x.nodes.map (·.id) ∨ row.node.id = id := by
      unfold collectRow
      split
      next known =>
        refine ⟨distinct,fun n member => .inl member,fun id => ⟨.inl,?_⟩⟩
        rintro (member | rfl)
        · exact member
        · exact known
      next fresh =>
        refine ⟨?_,fun n member => ?_,fun id => ?_⟩
        · rw [List.map_append,List.nodup_append]
          refine ⟨distinct,List.nodup_singleton _,?_⟩
          rintro a old b new rfl
          obtain rfl : a = row.node.id := List.mem_singleton.mp new
          exact fresh old
        · exact (List.mem_append.mp member).imp_right fun new => (List.mem_singleton.mp new).symm
        · simp [eq_comm]
    obtain ⟨distinct',old,ids⟩ := turn
    obtain ⟨nodup,origin,known⟩ := ih _ distinct'
    refine ⟨nodup,fun n member => ?_,fun id => ?_⟩
    · rcases origin n member with before | ⟨later,listed,same⟩
      · rcases old n before with kept | same
        · exact .inl kept
        · exact .inr ⟨row,List.mem_cons_self,same⟩
      · exact .inr ⟨later,List.mem_cons_of_mem _ listed,same⟩
    · rw [known,ids]
      simp [or_assoc]

theorem collectRows_perm (order : rows.Perm g.join) (collected : collectRows rows = .ok x) :
    x.nodes.Perm (g.nodes.map (·.toWorkflowNode)) ∧ x.edges.Perm g.edges := by
  unfold collectRows at collected
  split at collected
  next => contradiction
  next =>
    cases collected
    constructor
    · obtain ⟨nodup,origin,known⟩ := @collect_nodes rows ⟨[],[]⟩ List.nodup_nil
      have keys : ((g.nodes.map (·.toWorkflowNode)).map (·.id)).Nodup := by
        rw [List.map_map]
        exact g.nodeKey
      have stored : ∀ row ∈ rows, ∃ n ∈ g.nodes, row.node = n.toWorkflowNode := by
        intro row member
        obtain ⟨n,stored,joined⟩ := List.mem_flatMap.mp (order.mem_iff.mp member)
        exact ⟨n,stored,joinNode_node joined⟩
      refine (List.perm_ext_iff_of_nodup nodup.of_map keys.of_map).mpr fun n => ?_
      constructor
      · intro member
        rcases origin n member with none_ | ⟨row,listed,rfl⟩
        · simp at none_
        · obtain ⟨m,present,same⟩ := stored row listed
          exact same ▸ List.mem_map_of_mem present
      · intro member
        obtain ⟨m,present,rfl⟩ := List.mem_map.mp member
        obtain ⟨row,joined⟩ := List.exists_mem_of_ne_nil _ (joinNode_ne_nil (g := g) (n := m))
        have listed := order.mem_iff.mpr (List.mem_flatMap.mpr ⟨m,present,joined⟩)
        have found := (known m.id).mpr (.inr ⟨row,listed,by rw [joinNode_node joined]⟩)
        obtain ⟨k,in_,same⟩ := List.mem_map.mp found
        rcases origin k in_ with none_ | ⟨row',listed',rfl⟩
        · simp at none_
        · obtain ⟨m',present',same'⟩ := stored row' listed'
          rw [same'] at same in_
          rwa [List.inj_on_of_nodup_map g.nodeKey present' present same] at in_
    · rw [collect_edges,List.nil_append]
      exact (order.flatMap_right _).trans join_edges

/-- GetWorkflowGraph gives the stored nodes and edges back, each once. -/
theorem ReadsBack.perm {h : WorkflowGraph} (returns : ReadsBack g h) :
    h.nodes.Perm g.workflowGraph.nodes ∧ h.edges.Perm g.workflowGraph.edges := by
  obtain ⟨rows,x,order,collected,nodes,edges⟩ := returns
  obtain ⟨all,joined⟩ := collectRows_perm order collected
  exact ⟨nodes.trans all,edges ▸ joined⟩

theorem returns_exists (some_ : g.nodes ≠ []) : ∃ h, ReadsBack g h := by
  have rows : g.join ≠ [] := fun none_ => some_ (join_eq_nil.mp none_)
  exact ⟨_,g.join,_,.refl _,if_neg rows,.refl _,rfl⟩

end Join

end TinyAutomator.Workflows
