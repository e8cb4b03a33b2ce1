import TinyAutomator.Workflows.Created

/-! The verdict of ValidateWorkflowGraph survives storage: a graph that was accepted when it
was saved is accepted when OrchestrateWorkflow reads it back. -/
namespace TinyAutomator.Workflows

/-- However the stored graph is read back, OrchestrateWorkflow accepts it. -/
def Reaccepted (w : WorkflowID) (s : Store) : Prop :=
  ∃ wf, s.workflows w = some wf ∧ ∀ h, ReadsBack wf.graph h → ∀ visits,
    validateWorkflowGraph visits (Run.validateNodes h) (Run.validateEdges h) = .ok ()

section Stored

variable {g : Graph} {h : WorkflowGraph} {nodes : List WorkflowNodeDTO} {edges : List WorkflowEdgeDTO}
  {nodeIDs : NodeIDMap} {env : Env} {s t : Store} {w : WorkflowID} {r : UpdateRequest}

theorem row_ids (g : Graph) : ((Run.validateNodes g.workflowGraph).map (·.id)).Nodup := by
  have rows : (Run.validateNodes g.workflowGraph).map (·.id) = g.ids.map ID.row := by
    simp [Run.validateNodes,Graph.workflowGraph,Graph.ids,Function.comp_def]
  exact rows ▸ g.nodeKey.map fun _ _ => ID.row.inj

/-- The order in which the rows come back does not matter. -/
theorem Graph.Valid.returned (valid : g.Valid) (returns : ReadsBack g h) (visits : MapOrder) :
    validateWorkflowGraph visits (Run.validateNodes h) (Run.validateEdges h) = .ok () := by
  obtain ⟨nodes,edges⟩ := returns.perm
  exact (validate_perm (row_ids g) (nodes.map _) (edges.map _)).mpr (valid visits)

theorem Inserted.renamed (inserted : Inserted nodes edges g nodeIDs)
    (distinct : (nodes.map (·.id)).Nodup) :
    Run.validateNodes g.workflowGraph =
      (prepForValidate nodes edges).1.map (ValidateNode.rename fun id => .row (nodeIDs id)) ∧
    Run.validateEdges g.workflowGraph =
      (prepForValidate nodes edges).2.map (ValidateEdge.rename fun id => .row (nodeIDs id)) := by
  have same := inserted.copies.length_eq
  constructor
  · have copied : ∀ p ∈ nodes.zip g.nodes, (⟨.row p.2.id,p.2.nodeType,p.2.category⟩ : ValidateNode) =
        ⟨.row (nodeIDs p.1.id),p.1.nodeType,p.1.category⟩ := by
      rintro ⟨d,row⟩ member
      obtain ⟨category,nodeType,_⟩ := List.forall₂_zip inserted.copies member
      have listed := List.mem_map_of_mem (f := (·.id)) (List.of_mem_zip member).1
      obtain ⟨q,member',carries,resolved⟩ := inserted.resolves d.id listed
      have ids := zip_ids same ▸ distinct
      obtain rfl := List.inj_on_of_nodup_map ids member' member carries
      rw [resolved,category,nodeType]
    have rows : (nodes.zip g.nodes).map Prod.snd = g.nodes := List.map_snd_zip same.ge
    have dtos : (nodes.zip g.nodes).map Prod.fst = nodes := List.map_fst_zip same.le
    calc Run.validateNodes g.workflowGraph
        = g.nodes.map fun row => ⟨.row row.id,row.nodeType,row.category⟩ := by
          simp only [Run.validateNodes,Graph.workflowGraph,List.map_map]
          rfl
      _ = (nodes.zip g.nodes).map fun p => ⟨.row p.2.id,p.2.nodeType,p.2.category⟩ := by
          conv_lhs => rw [← rows,List.map_map]
          rfl
      _ = (nodes.zip g.nodes).map fun p => ⟨.row (nodeIDs p.1.id),p.1.nodeType,p.1.category⟩ :=
          List.map_congr_left copied
      _ = nodes.map fun d => ⟨.row (nodeIDs d.id),d.nodeType,d.category⟩ := by
          conv_rhs => rw [← dtos,List.map_map]
          rfl
      _ = _ := by
          rw [prepForValidate,List.map_map]
          rfl
  · simp only [Run.validateEdges,Graph.workflowGraph,prepForValidate,List.map_map,inserted.edges]
    rfl

theorem Inserted.renaming (inserted : Inserted nodes edges g nodeIDs)
    (valid : validateRequest env nodes edges = .ok ()) (distinct : (nodes.map (·.id)).Nodup) :
    Renaming (prepForValidate nodes edges).1 (prepForValidate nodes edges).2 fun id => .row (nodeIDs id) := by
  have ids := prepForValidate_ids nodes edges
  have listed : ∀ id ∈ mentioned (prepForValidate nodes edges).1 (prepForValidate nodes edges).2,
      id ∈ nodes.map (·.id) := by
    intro id used
    have ends := accepted_ends (validateRequest_ok valid).1
    rw [ids] at ends
    simp only [mentioned,ids,List.mem_append] at used
    rcases used with (node | source) | target
    · exact node
    · obtain ⟨e,member,rfl⟩ := List.mem_map.mp source
      exact (ends e member).1
    · obtain ⟨e,member,rfl⟩ := List.mem_map.mp target
      exact (ends e member).2
  constructor
  · intro a ina b inb same
    obtain ⟨p,inp,carries,resolved⟩ := inserted.resolves a (listed a ina)
    have row := ID.row.inj same
    exact carries.symm.trans (inserted.carries inp (listed b inb) (resolved.trans row))
  · intro node member
    have declared := ((validate_iff_graded (ids ▸ distinct)).mp (validateRequest_ok valid).1).1
    have plain := declared.nonempty node member
    exact iff_of_false ID.noConfusion plain

theorem Inserted.valid (inserted : Inserted nodes edges g nodeIDs)
    (valid : validateRequest env nodes edges = .ok ()) (distinct : (nodes.map (·.id)).Nodup) : g.Valid := by
  intro visits
  obtain ⟨nodes',edges'⟩ := inserted.renamed distinct
  rw [nodes',edges']
  exact (validate_rename (prepForValidate_ids nodes edges ▸ distinct)
    (inserted.renaming valid distinct)).mpr (validateRequest_ok valid).1

theorem createWorkflow_reaccepted {userID : UserID} {name description status : String}
    (distinct : (nodes.map (·.id)).Nodup)
    (created : createWorkflow env userID name description status nodes edges s = (t,.ok w)) :
    Reaccepted w t := by
  obtain ⟨valid,_,wf,nodeIDs,stored,inserted⟩ := createWorkflow_inserted created
  have valid' := inserted.valid valid distinct
  exact ⟨wf,stored,fun h returns visits => valid'.returned returns visits⟩

theorem updateWorkflow_reaccepted (distinct : (r.nodes.map (·.id)).Nodup)
    (updated : updateWorkflow env r s = (t,.ok ())) : Reaccepted r.workflowID t := by
  unfold updateWorkflow at updated
  split at updated
  next => simp at updated
  next u plan planned =>
    obtain ⟨valid,wf,_,stored,_,_,_⟩ := planUpdate_ok planned
    have quiet := planUpdate_quiet env r s
    rw [planned] at quiet
    obtain ⟨mid,between,graph,_⟩ := quiet.graph stored
    obtain ⟨wf',rename,row,after,stores⟩ := saved planned stored between graph distinct (writeUpdate_patches updated)
    have valid' := stores.valid distinct valid
    exact ⟨wf',after,fun h returns visits => valid'.returned returns visits⟩

end Stored

section Exact

/-- ValidateWorkflowGraph is exact: it accepts the graphs with declared, non-empty ids whose
edges are acyclic and in which the predecessors of a node have one depth (every node has
one), that is, in which all walks to a node have one length. So orders and ids do not
matter, and what a save accepted is accepted from the database. -/
theorem validateWorkflowGraph_exact {nodes : List ValidateNode} {edges : List ValidateEdge}
    (distinct : (nodes.map (·.id)).Nodup) :
    (∀ visits, validateWorkflowGraph visits nodes edges = .ok () ↔
      Declared nodes edges ∧ Depth.Acyclic (precedes edges) ∧ Depth.Aligned (precedes edges)) ∧
    (Declared nodes edges → Depth.Acyclic (precedes edges) →
      ∀ id, ∃ n, Depth.Longest (precedes edges) id n) ∧
    (∀ visits, validateWorkflowGraph visits nodes edges = .ok () ↔
      Declared nodes edges ∧ Depth.Acyclic (precedes edges) ∧ Depth.Even (precedes edges)) ∧
    (∀ visits visits' nodes' edges', nodes'.Perm nodes → edges'.Perm edges →
      (validateWorkflowGraph visits' nodes' edges' = .ok () ↔
        validateWorkflowGraph visits nodes edges = .ok ())) ∧
    (∀ visits visits' f, Renaming nodes edges f →
      (validateWorkflowGraph visits' (nodes.map (.rename f)) (edges.map (.rename f)) = .ok () ↔
        validateWorkflowGraph visits nodes edges = .ok ())) ∧
    (∀ env userID name description status dtos dtoEdges s t w, prepForValidate dtos dtoEdges = (nodes,edges) →
      createWorkflow env userID name description status dtos dtoEdges s = (t,.ok w) → Reaccepted w t) ∧
    ∀ env r s t, prepForValidate r.nodes r.edges = (nodes,edges) →
      updateWorkflow env r s = (t,.ok ()) → Reaccepted r.workflowID t := by
  refine ⟨fun visits => validate_iff_aligned distinct,
    fun declared acyclic => acyclic.longest declared.inside,fun visits => validate_iff_even distinct,
    fun _ _ _ _ sameNodes sameEdges => validate_perm distinct sameNodes sameEdges,
    fun _ _ _ renames => validate_rename distinct renames,?_,?_⟩
  · intro env userID name description status dtos dtoEdges s t w prep created
    have ids := prepForValidate_ids dtos dtoEdges
    rw [prep] at ids
    exact createWorkflow_reaccepted (ids ▸ distinct) created
  · intro env r s t prep updated
    have ids := prepForValidate_ids r.nodes r.edges
    rw [prep] at ids
    exact updateWorkflow_reaccepted (ids ▸ distinct) updated

/-- A chain of two mails is accepted in both orders, and again once it is stored. -/
theorem mails_reaccepted : Reaccepted 1 (createMails twoMails between).1 ∧
    ∀ visits, validateWorkflowGraph visits (prepForValidate twoMails between).1.reverse
      (prepForValidate twoMails between).2 = .ok () := by
  obtain ⟨_,_,_,perm,_,reload,_⟩ := @validateWorkflowGraph_exact (prepForValidate twoMails between).1
    (prepForValidate twoMails between).2 (by decide)
  have ok : (createMails twoMails between).2 = .ok 1 := by decide +kernel
  refine ⟨reload _ _ _ _ _ _ _ _ _ _ rfl (reply_ok ok),fun visits => ?_⟩
  refine (perm .insertion visits _ _ (List.reverse_perm _) (.refl _)).mpr ?_
  decide +kernel

end Exact

end TinyAutomator.Workflows
