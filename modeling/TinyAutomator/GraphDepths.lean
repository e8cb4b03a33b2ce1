import TinyAutomator.GraphLevels
import TinyAutomator.Lib.Depth

/-! What ValidateWorkflowGraph accepts, said of the graph alone: neither the order of nodes
and edges nor the choice of ids matters. -/
namespace TinyAutomator

/-- The edge relation of a request. -/
def precedes (edges : List ValidateEdge) (a b : ID) : Prop :=
  ∃ e ∈ edges, e.sourceNodeID = a ∧ e.targetNodeID = b

structure Declared (nodes : List ValidateNode) (edges : List ValidateEdge) : Prop where
  nonempty : ∀ node ∈ nodes, node.id ≠ ID.empty
  ends : ∀ e ∈ edges, e.sourceNodeID ∈ nodes.map (·.id) ∧ e.targetNodeID ∈ nodes.map (·.id)

def ValidateNode.rename (f : ID → ID) (node : ValidateNode) : ValidateNode :=
  { node with id := f node.id }

def ValidateEdge.rename (f : ID → ID) (e : ValidateEdge) : ValidateEdge :=
  ⟨f e.sourceNodeID,f e.targetNodeID⟩

/-- Every id that a node or an edge mentions. -/
def mentioned (nodes : List ValidateNode) (edges : List ValidateEdge) : List ID :=
  nodes.map (·.id) ++ edges.map (·.sourceNodeID) ++ edges.map (·.targetNodeID)

/-- Other ids for the same graph: no two are confused and none becomes empty. -/
structure Renaming (nodes : List ValidateNode) (edges : List ValidateEdge) (f : ID → ID) : Prop where
  injective : ∀ a ∈ mentioned nodes edges, ∀ b ∈ mentioned nodes edges, f a = f b → a = b
  nonempty : ∀ node ∈ nodes, f node.id = ID.empty ↔ node.id = ID.empty

section Verdict

variable {visits visits' : MapOrder} {nodes nodes' : List ValidateNode}
  {edges edges' : List ValidateEdge}

theorem Declared.inside (declared : Declared nodes edges) (a b : ID) (edge : precedes edges a b) :
    a ∈ nodes.map (·.id) ∧ b ∈ nodes.map (·.id) := by
  obtain ⟨e,member,rfl,rfl⟩ := edge
  exact declared.ends e member

/-- Repeated ids or not, the ends of the edges are declared. -/
theorem accepted_ends (accepted : validateWorkflowGraph visits nodes edges = .ok ()) :
    ∀ e ∈ edges, e.sourceNodeID ∈ nodes.map (·.id) ∧ e.targetNodeID ∈ nodes.map (·.id) := by
  simp only [validateWorkflowGraph] at accepted
  split at accepted
  next => contradiction
  next =>
    split at accepted
    next => contradiction
    next pairs indexed =>
      intro e member
      obtain ⟨v,w,_,source,target,hv,hw⟩ := (pairs_edges indexed).2 e member
      exact ⟨source ▸ idOfIdx_mem hv,target ▸ idOfIdx_mem hw⟩

/-- Only the declared ids have layers; every other id is a root. -/
theorem layered_iff_graded (declared : Declared nodes edges) :
    (∃ depth, Layered (nodes.map (·.id)) edges depth) ↔
      ∃ depth, Depth.Graded (precedes edges) depth := by
  constructor
  · rintro ⟨depth,layered⟩
    refine ⟨fun id => if id ∈ nodes.map (·.id) then depth id else 0,fun a b edge => ?_,fun id root => ?_⟩
    · obtain ⟨source,target⟩ := declared.inside a b edge
      obtain ⟨e,member,rfl,rfl⟩ := edge
      rw [if_pos source,if_pos target]
      exact layered.edge e member
    · split
      next listed => exact layered.root id listed fun e member into => root _ ⟨e,member,rfl,into⟩
      next => rfl
  · rintro ⟨depth,graded⟩
    refine ⟨depth,fun e member => graded.edge _ _ ⟨e,member,rfl,rfl⟩,fun id _ free => ?_⟩
    apply graded.root id
    rintro b ⟨e,member,_,into⟩
    exact free e member into

theorem validate_iff_graded (distinct : (nodes.map (·.id)).Nodup) :
    validateWorkflowGraph visits nodes edges = .ok () ↔
      Declared nodes edges ∧ ∃ depth, Depth.Graded (precedes edges) depth := by
  rw [validateWorkflowGraph_ok_iff distinct]
  constructor
  · rintro ⟨nonempty,ends,layered⟩
    exact ⟨⟨nonempty,ends⟩,(layered_iff_graded ⟨nonempty,ends⟩).mp layered⟩
  · rintro ⟨declared,graded⟩
    exact ⟨declared.nonempty,declared.ends,(layered_iff_graded declared).mpr graded⟩

theorem validate_iff_aligned (distinct : (nodes.map (·.id)).Nodup) :
    validateWorkflowGraph visits nodes edges = .ok () ↔
      Declared nodes edges ∧ Depth.Acyclic (precedes edges) ∧ Depth.Aligned (precedes edges) := by
  rw [validate_iff_graded distinct]
  exact and_congr_right fun declared => Depth.graded_iff_aligned declared.inside

theorem validate_iff_even (distinct : (nodes.map (·.id)).Nodup) :
    validateWorkflowGraph visits nodes edges = .ok () ↔
      Declared nodes edges ∧ Depth.Acyclic (precedes edges) ∧ Depth.Even (precedes edges) := by
  rw [validate_iff_graded distinct]
  exact and_congr_right fun declared => Depth.graded_iff_even declared.inside

/-- Neither the order of the lists nor that of the visits matters. -/
theorem validate_perm (distinct : (nodes.map (·.id)).Nodup) (sameNodes : nodes'.Perm nodes)
    (sameEdges : edges'.Perm edges) : validateWorkflowGraph visits' nodes' edges' = .ok () ↔
      validateWorkflowGraph visits nodes edges = .ok () := by
  have relation : precedes edges' = precedes edges := by
    funext a b
    simp only [precedes,sameEdges.mem_iff]
  have ids := sameNodes.map ValidateNode.id
  rw [validate_iff_graded distinct,validate_iff_graded (ids.nodup_iff.mpr distinct),relation]
  refine and_congr_left fun _ => ⟨fun declared => ⟨?_,?_⟩,fun declared => ⟨?_,?_⟩⟩
  · exact fun node member => declared.nonempty node (sameNodes.mem_iff.mpr member)
  · intro e member
    obtain ⟨source,target⟩ := declared.ends e (sameEdges.mem_iff.mpr member)
    exact ⟨ids.mem_iff.mp source,ids.mem_iff.mp target⟩
  · exact fun node member => declared.nonempty node (sameNodes.mem_iff.mp member)
  · intro e member
    obtain ⟨source,target⟩ := declared.ends e (sameEdges.mem_iff.mp member)
    exact ⟨ids.mem_iff.mpr source,ids.mem_iff.mpr target⟩

end Verdict

section Rename

variable {visits visits' : MapOrder} {nodes : List ValidateNode} {edges : List ValidateEdge} {f : ID → ID}

theorem mem_mentioned (nodes : List ValidateNode) {e : ValidateEdge} (member : e ∈ edges) :
    e.sourceNodeID ∈ mentioned nodes edges ∧ e.targetNodeID ∈ mentioned nodes edges :=
  ⟨List.mem_append_left _ (List.mem_append_right _ (List.mem_map_of_mem member)),
    List.mem_append_right _ (List.mem_map_of_mem member)⟩

theorem node_mentioned {id : ID} (member : id ∈ nodes.map (·.id)) : id ∈ mentioned nodes edges :=
  List.mem_append_left _ (List.mem_append_left _ member)

theorem rename_ids : (nodes.map (ValidateNode.rename f)).map (·.id) = (nodes.map (·.id)).map f := by
  rw [List.map_map,List.map_map]
  rfl

theorem Renaming.distinct (renames : Renaming nodes edges f) (distinct : (nodes.map (·.id)).Nodup) :
    ((nodes.map (ValidateNode.rename f)).map (·.id)).Nodup := by
  rw [rename_ids]
  exact distinct.map_on fun a ina b inb => renames.injective a (node_mentioned ina) b (node_mentioned inb)

theorem Renaming.declared (renames : Renaming nodes edges f) :
    Declared (nodes.map (ValidateNode.rename f)) (edges.map (ValidateEdge.rename f)) ↔
      Declared nodes edges := by
  have known : ∀ id ∈ mentioned nodes edges, f id ∈ (nodes.map (·.id)).map f ↔ id ∈ nodes.map (·.id) := by
    intro id used
    refine ⟨fun member => ?_,List.mem_map_of_mem⟩
    obtain ⟨other,listed,same⟩ := List.mem_map.mp member
    exact renames.injective other (node_mentioned listed) id used same ▸ listed
  constructor
  · intro declared
    refine ⟨fun node member empty => ?_,fun e member => ?_⟩
    · refine declared.nonempty _ (List.mem_map_of_mem member) ?_
      exact (renames.nonempty node member).mpr empty
    · obtain ⟨source,target⟩ := declared.ends _ (List.mem_map_of_mem member)
      rw [rename_ids] at source target
      obtain ⟨usedSource,usedTarget⟩ := mem_mentioned nodes member
      exact ⟨(known _ usedSource).mp source,(known _ usedTarget).mp target⟩
  · intro declared
    refine ⟨fun node member empty => ?_,fun e member => ?_⟩
    · obtain ⟨node,listed,rfl⟩ := List.mem_map.mp member
      exact declared.nonempty node listed ((renames.nonempty node listed).mp empty)
    · obtain ⟨e,listed,rfl⟩ := List.mem_map.mp member
      rw [rename_ids]
      exact (declared.ends e listed).imp List.mem_map_of_mem List.mem_map_of_mem

/-- The old depth of a new id. -/
def depthBehind (nodes : List ValidateNode) (edges : List ValidateEdge) (f : ID → ID) (depth : ID → Nat)
    (id : ID) : Nat :=
  (((mentioned nodes edges).find? fun old => f old = id).map depth).getD 0

theorem Renaming.depthBehind (renames : Renaming nodes edges f) (depth : ID → Nat) {id : ID}
    (used : id ∈ mentioned nodes edges) : TinyAutomator.depthBehind nodes edges f depth (f id) = depth id := by
  have present : ((mentioned nodes edges).find? fun old => f old = f id).isSome := by
    rw [List.find?_isSome]
    exact ⟨id,used,by simp⟩
  obtain ⟨old,found⟩ := Option.isSome_iff_exists.mp present
  have same : f old = f id := of_decide_eq_true (List.find?_some found : _)
  rw [TinyAutomator.depthBehind,found,
    renames.injective old (List.mem_of_find?_eq_some found) id used same]
  rfl

theorem Renaming.graded (renames : Renaming nodes edges f) :
    (∃ depth, Depth.Graded (precedes (edges.map (ValidateEdge.rename f))) depth) ↔
      ∃ depth, Depth.Graded (precedes edges) depth := by
  have sent : ∀ a b, precedes edges a b → precedes (edges.map (ValidateEdge.rename f)) (f a) (f b) := by
    rintro a b ⟨e,member,rfl,rfl⟩
    exact ⟨_,List.mem_map_of_mem member,rfl,rfl⟩
  have origin : ∀ a b, precedes (edges.map (ValidateEdge.rename f)) a b → ∃ x y, precedes edges x y ∧
      a = f x ∧ b = f y ∧ x ∈ mentioned nodes edges ∧ y ∈ mentioned nodes edges := by
    rintro a b ⟨e,member,rfl,rfl⟩
    obtain ⟨e,listed,rfl⟩ := List.mem_map.mp member
    exact ⟨_,_,⟨e,listed,rfl,rfl⟩,rfl,rfl,mem_mentioned nodes listed⟩
  constructor
  · rintro ⟨depth,graded⟩
    refine ⟨fun id => if id ∈ mentioned nodes edges then depth (f id) else 0,fun a b edge => ?_,
      fun id root => ?_⟩
    · have into := graded.edge _ _ (sent a b edge)
      obtain ⟨e,member,rfl,rfl⟩ := edge
      obtain ⟨source,target⟩ := mem_mentioned nodes member
      rw [if_pos source,if_pos target,into]
    · split
      next used =>
        refine graded.root _ fun b edge => ?_
        obtain ⟨x,y,edge,_,same,_,listed⟩ := origin _ _ edge
        exact root x (renames.injective id used y listed same ▸ edge)
      next => rfl
  · rintro ⟨depth,graded⟩
    refine ⟨TinyAutomator.depthBehind nodes edges f depth,fun a b edge => ?_,fun id root => ?_⟩
    · obtain ⟨x,y,old,rfl,rfl,source,target⟩ := origin a b edge
      rw [renames.depthBehind depth source,renames.depthBehind depth target]
      exact graded.edge x y old
    · unfold TinyAutomator.depthBehind
      cases found : (mentioned nodes edges).find? fun old => f old = id with
      | none => rfl
      | some old =>
        have same : f old = id := of_decide_eq_true (List.find?_some found : _)
        refine graded.root old fun b edge => root (f b) ?_
        exact same ▸ sent b old edge

/-- Other ids for the same graph get the same verdict. -/
theorem validate_rename (distinct : (nodes.map (·.id)).Nodup) (renames : Renaming nodes edges f) :
    validateWorkflowGraph visits' (nodes.map (ValidateNode.rename f)) (edges.map (ValidateEdge.rename f)) =
      .ok () ↔ validateWorkflowGraph visits nodes edges = .ok () := by
  rw [validate_iff_graded distinct,validate_iff_graded (renames.distinct distinct),renames.declared,
    renames.graded]

end Rename

end TinyAutomator
