import TinyAutomator.Workflows.Joins
import TinyAutomator.Workflows.Rows
import TinyAutomator.GraphDepths
import Mathlib.Data.Finset.Prod

/-! What CreateWorkflow stores of the graph it is given. Ids of the request are looked up in
a map that keeps the last node of each id. -/
namespace TinyAutomator.Workflows

/-- A stored node has everything that was asked for. -/
def Copies (d : WorkflowNodeDTO) (row : NodeRow) : Prop :=
  row.category = d.category ∧ row.nodeType = d.nodeType ∧ row.config = storedConfig d.config

/-- The stored nodes stand, in the order `rows`, for the requested ones, and the stored edges
are the requested ones. -/
structure Mirrors (nodes : List WorkflowNodeDTO) (edges : List WorkflowEdgeDTO) (g : Graph)
    (rows : List NodeRow) : Prop where
  all : rows.Perm g.nodes
  copies : List.Forall₂ Copies nodes rows
  edges : ∀ p ∈ nodes.zip rows, ∀ q ∈ nodes.zip rows,
    ((⟨p.2.id,q.2.id⟩ : WorkflowEdge) ∈ g.edges ↔
      ∃ e ∈ edges, e.sourceNodeID = p.1.id ∧ e.targetNodeID = q.1.id)

/-- Creation has stored the graph it was given, and GetWorkflowGraph returns what is stored,
each node and each edge once. -/
def StoresGiven (nodes : List WorkflowNodeDTO) (edges : List WorkflowEdgeDTO) (w : WorkflowID) (s : Store) :
    Prop :=
  ∃ wf, s.workflows w = some wf ∧ (∃ rows, Mirrors nodes edges wf.graph rows) ∧
    (∃ h, ReadsBack wf.graph h) ∧
    ∀ h, ReadsBack wf.graph h →
      h.nodes.Perm (wf.graph.nodes.map (·.toWorkflowNode)) ∧ h.edges.Perm wf.graph.edges

/-- Exactly one node carries the id at each end of an edge. -/
def EndsOnce (nodes : List WorkflowNodeDTO) (edges : List WorkflowEdgeDTO) : Prop :=
  ∀ e ∈ edges, (nodes.map (·.id)).count e.sourceNodeID = 1 ∧ (nodes.map (·.id)).count e.targetNodeID = 1

instance (nodes : List WorkflowNodeDTO) (edges : List WorkflowEdgeDTO) : Decidable (EndsOnce nodes edges) :=
  inferInstanceAs (Decidable (∀ e ∈ edges, _))

/-- The rows as they are inserted: in order, and with edges between the nodes that the map
holds for their ends. -/
structure Inserted (nodes : List WorkflowNodeDTO) (edges : List WorkflowEdgeDTO) (g : Graph)
    (nodeIDs : NodeIDMap) : Prop where
  copies : List.Forall₂ Copies nodes g.nodes
  resolves : ∀ id ∈ nodes.map (·.id), ∃ p ∈ nodes.zip g.nodes, p.1.id = id ∧ p.2.id = nodeIDs id
  edges : g.edges = edges.map fun e => ⟨nodeIDs e.sourceNodeID,nodeIDs e.targetNodeID⟩

section Insert

variable {env : Env} {userID : UserID} {s t : Store} {name description status : String}
  {nodes : List WorkflowNodeDTO} {edges : List WorkflowEdgeDTO} {w : WorkflowID} {wg : WorkflowGraph}

theorem createGraphNode_copies {x y : Writing × List WorkflowNode} {d : WorkflowNodeDTO}
    (created : createGraphNode x d = .ok y) : ∃ row, Copies d row ∧ row.id = x.1.nextNode ∧
      y.1.graph.nodes = x.1.graph.nodes ++ [row] ∧ y.1.graph.edges = x.1.graph.edges ∧
      y.1.nodeIDs = x.1.nodeIDs.set d.id x.1.nextNode := by
  unfold createGraphNode at created
  split at created
  next => contradiction
  next =>
    split at created
    next => contradiction
    next z inserted =>
      cases created
      obtain ⟨ids,nodes,edges,_⟩ := createNode_ok inserted
      refine ⟨newRow z.nodeIDs d,⟨rfl,rfl,rfl⟩,?_,nodes,edges,ids⟩
      simp [newRow,ids,NodeIDMap.set]

/-- The node loop inserts a copy of each node; the map knows the last one of each id. -/
theorem createGraphNodes_copies {x y : Writing × List WorkflowNode}
    (empty : x.1.graph.nodes = []) (created : nodes.foldlM createGraphNode x = .ok y) :
    List.Forall₂ Copies nodes y.1.graph.nodes ∧ y.1.graph.edges = x.1.graph.edges ∧
    ∀ id ∈ nodes.map (·.id), ∃ p ∈ nodes.zip y.1.graph.nodes, p.1.id = id ∧ p.2.id = y.1.nodeIDs id := by
  refine Fold.foldlM_ok (fun done y => List.Forall₂ Copies done y.1.graph.nodes ∧
    y.1.graph.edges = x.1.graph.edges ∧ ∀ id ∈ done.map (·.id),
      ∃ p ∈ done.zip y.1.graph.nodes, p.1.id = id ∧ p.2.id = y.1.nodeIDs id) ?_ ?_ created
  · exact ⟨empty ▸ .nil,rfl,by simp⟩
  · intro done d y z ⟨copies,edges,known⟩ step
    obtain ⟨row,copy,number,nodes,edges',ids⟩ := createGraphNode_copies step
    refine ⟨nodes ▸ List.rel_append copies (.cons copy .nil),edges'.trans edges,fun id member => ?_⟩
    rw [nodes,List.zip_append copies.length_eq,ids,NodeIDMap.set]
    by_cases own : id = d.id
    · exact ⟨(d,row),by simp,own.symm,by rw [if_pos own,number]⟩
    · rw [List.map_append,List.mem_append] at member
      rcases member with old | new
      · obtain ⟨p,listed,carries,resolved⟩ := known id old
        exact ⟨p,List.mem_append_left _ listed,carries,by rw [if_neg own,resolved]⟩
      · exact absurd (by simpa using new) own

theorem createGraphEdges_ok {x y : Writing} (created : edges.foldlM createGraphEdge x = .ok y) :
    y.graph.nodes = x.graph.nodes ∧
    y.graph.edges = x.graph.edges ++ edges.map fun e =>
      ⟨x.nodeIDs e.sourceNodeID,x.nodeIDs e.targetNodeID⟩ := by
  have all := Fold.foldlM_ok (fun (done : List WorkflowEdgeDTO) (y : Writing) => y.nodeIDs = x.nodeIDs ∧
    y.graph.nodes = x.graph.nodes ∧ y.graph.edges = x.graph.edges ++ done.map fun e =>
      ⟨x.nodeIDs e.sourceNodeID,x.nodeIDs e.targetNodeID⟩) ?_ ?_ created
  · exact all.2
  · simp
  · intro done e y z ⟨ids,nodes,edges⟩ step
    unfold createGraphEdge at step
    split at step
    next => contradiction
    next =>
      obtain ⟨nodes',ids',edges'⟩ := createEdge_ok step
      refine ⟨ids'.trans ids,nodes'.trans nodes,?_⟩
      rw [edges',edges,ids,List.map_append,List.append_assoc]
      rfl

/-- What the loops of the transaction have built is stored. -/
theorem insertWorkflow_loops {now : Int}
    (created : insertWorkflow userID name description status nodes edges now s = .ok (t,wg)) :
    nodes ≠ [] ∧ ∃ x y wf, nodes.foldlM createGraphNode (⟨.empty,s.nextNode,fun _ => 0⟩,[]) = .ok x ∧
      edges.foldlM createGraphEdge x.1 = .ok y ∧ t.workflows s.nextWorkflow = some wf ∧
      wf.graph = y.graph ∧ t.nextNode = y.nextNode := by
  unfold insertWorkflow at created
  split at created
  next => contradiction
  next =>
    split at created
    next => contradiction
    next some_ =>
      split at created
      next => contradiction
      next => contradiction
      next =>
        obtain ⟨x,first,created⟩ := Fold.bind_ok.mp created
        obtain ⟨y,second,created⟩ := Fold.bind_ok.mp created
        cases created
        exact ⟨some_,x,y,_,first,second,Store.put_self s _ _,rfl,rfl⟩

theorem insertWorkflow_inserted {now : Int}
    (created : insertWorkflow userID name description status nodes edges now s = .ok (t,wg)) :
    nodes ≠ [] ∧ ∃ wf nodeIDs, t.workflows s.nextWorkflow = some wf ∧ Inserted nodes edges wf.graph nodeIDs := by
  obtain ⟨some_,x,y,wf,first,second,stored,graph,_⟩ := insertWorkflow_loops created
  obtain ⟨copies,none_,resolves⟩ := createGraphNodes_copies rfl first
  obtain ⟨kept,joined⟩ := createGraphEdges_ok second
  refine ⟨some_,wf,x.1.nodeIDs,stored,?_⟩
  rw [graph]
  exact ⟨kept ▸ copies,kept ▸ resolves,joined.trans (by rw [none_]; rfl)⟩

theorem createWorkflow_inserted
    (created : createWorkflow env userID name description status nodes edges s = (t,.ok w)) :
    validateRequest env nodes edges = .ok () ∧ nodes ≠ [] ∧
    ∃ wf nodeIDs, t.workflows w = some wf ∧ Inserted nodes edges wf.graph nodeIDs := by
  obtain ⟨valid,rfl,u,g,rows,executed⟩ := createWorkflow_ok created
  obtain ⟨some_,wf,nodeIDs,stored,inserted⟩ := insertWorkflow_inserted rows
  obtain ⟨_,wf',after,core,_⟩ := executeTriggers_ok executed stored
  exact ⟨valid,some_,wf',nodeIDs,after,core_graph core ▸ inserted⟩

end Insert

section Mirror

variable {nodes : List WorkflowNodeDTO} {edges : List WorkflowEdgeDTO} {g : Graph} {nodeIDs : NodeIDMap}
  {rows : List NodeRow} {p q : WorkflowNodeDTO × NodeRow} {id : ID}

theorem zip_ids (same : nodes.length = rows.length) :
    (nodes.zip rows).map (·.1.id) = nodes.map (·.id) := by
  conv_rhs => rw [← List.map_fst_zip same.le,List.map_map]
  rfl

theorem zip_rows (same : nodes.length = rows.length) (distinct : (rows.map (·.id)).Nodup) :
    ((nodes.zip rows).map (·.2.id)).Nodup := by
  have all : (nodes.zip rows).map (·.2.id) = rows.map (·.id) := by
    conv_rhs => rw [← List.map_snd_zip same.ge,List.map_map]
    rfl
  exact all ▸ distinct

/-- An id is carried once if and only if one pair has it. -/
theorem carried_once {pairs : List (WorkflowNodeDTO × NodeRow)} (distinct : pairs.Nodup) :
    (pairs.map (·.1.id)).count id = 1 ↔ ∃ p, p ∈ pairs ∧ p.1.id = id ∧
      ∀ q ∈ pairs, q.1.id = id → q = p := by
  rw [List.count_eq_countP,List.countP_map,List.countP_eq_length_filter,List.length_eq_one_iff]
  have carriers : ∀ q, q ∈ pairs.filter ((· == id) ∘ fun p => p.1.id) ↔ q ∈ pairs ∧ q.1.id = id := by
    intro q
    simp [List.mem_filter]
  constructor
  · rintro ⟨p,only⟩
    simp only [only,List.mem_singleton] at carriers
    obtain ⟨member,carries⟩ := (carriers p).mp rfl
    exact ⟨p,member,carries,fun q listed same => (carriers q).mpr ⟨listed,same⟩⟩
  · rintro ⟨p,member,carries,only⟩
    refine ⟨p,List.perm_singleton.mp ?_⟩
    refine (List.perm_ext_iff_of_nodup (distinct.filter _) (List.nodup_singleton p)).mpr fun q => ?_
    rw [carriers,List.mem_singleton]
    exact ⟨fun ⟨listed,same⟩ => only q listed same,fun same => same ▸ ⟨member,carries⟩⟩

theorem Inserted.pairs (inserted : Inserted nodes edges g nodeIDs) :
    ((nodes.zip g.nodes).map (·.2.id)).Nodup :=
  zip_rows inserted.copies.length_eq g.nodeKey

theorem Inserted.carries (inserted : Inserted nodes edges g nodeIDs) (member : p ∈ nodes.zip g.nodes)
    (listed : id ∈ nodes.map (·.id)) (resolved : p.2.id = nodeIDs id) : p.1.id = id := by
  obtain ⟨q,member',carries,resolved'⟩ := inserted.resolves id listed
  have same := List.inj_on_of_nodup_map inserted.pairs member member' (resolved.trans resolved'.symm)
  rw [same,carries]

/-- With one carrier for each end, the rows in their order mirror the request. -/
theorem Inserted.mirrors (inserted : Inserted nodes edges g nodeIDs) (once : EndsOnce nodes edges) :
    Mirrors nodes edges g g.nodes := by
  have ids := zip_ids inserted.copies.length_eq
  have listed : ∀ {id}, (nodes.map (·.id)).count id = 1 → id ∈ nodes.map (·.id) := fun once =>
    List.count_pos_iff.mp (by omega)
  have resolved : ∀ {id p}, (nodes.map (·.id)).count id = 1 → p ∈ nodes.zip g.nodes → p.1.id = id →
      p.2.id = nodeIDs id := by
    intro id p once member carries
    obtain ⟨q,member',carries',resolved⟩ := inserted.resolves id (listed once)
    obtain ⟨r,_,_,only⟩ := (carried_once inserted.pairs.of_map).mp (ids ▸ once)
    rw [only p member carries,← only q member' carries',resolved]
  refine ⟨.refl _,inserted.copies,fun p inp q inq => ?_⟩
  rw [inserted.edges,List.mem_map]
  constructor
  · rintro ⟨e,member,same⟩
    obtain ⟨source,target⟩ := WorkflowEdge.mk.inj same
    refine ⟨e,member,?_,?_⟩
    · exact (inserted.carries inp (listed (once e member).1) source.symm).symm
    · exact (inserted.carries inq (listed (once e member).2) target.symm).symm
  · rintro ⟨e,member,source,target⟩
    refine ⟨e,member,?_⟩
    rw [resolved (once e member).1 inp source.symm,resolved (once e member).2 inq target.symm]

/-- The pairs of pairs between which the request has an edge. -/
def wanted (edges : List WorkflowEdgeDTO) (pairs : List (WorkflowNodeDTO × NodeRow)) :
    Finset ((WorkflowNodeDTO × NodeRow) × (WorkflowNodeDTO × NodeRow)) :=
  (pairs.toFinset ×ˢ pairs.toFinset).filter fun x => (x.1.1.id,x.2.1.id) ∈ edges.map (·.key)

theorem mem_wanted {pairs : List (WorkflowNodeDTO × NodeRow)} : (p,q) ∈ wanted edges pairs ↔
    p ∈ pairs ∧ q ∈ pairs ∧ ∃ e ∈ edges, e.sourceNodeID = p.1.id ∧ e.targetNodeID = q.1.id := by
  simp only [wanted,Finset.mem_filter,Finset.mem_product,List.mem_toFinset,List.mem_map,
    WorkflowEdgeDTO.key,Prod.mk.injEq,and_assoc]

/-- Every wanted edge is stored, and no more edges are stored than were asked for. -/
theorem Mirrors.wanted_card (mirrors : Mirrors nodes edges g rows)
    (inserted : Inserted nodes edges g nodeIDs) :
    (wanted edges (nodes.zip rows)).card ≤ (edges.map (·.key)).toFinset.card := by
  have distinct := zip_rows mirrors.copies.length_eq ((mirrors.all.map (·.id)).nodup_iff.mpr g.nodeKey)
  have keys : (edges.map (·.key)).Nodup := by
    have all : g.edges = (edges.map (·.key)).map fun k => ⟨nodeIDs k.1,nodeIDs k.2⟩ := by
      rw [inserted.edges,List.map_map]
      rfl
    exact List.Nodup.of_map _ (all ▸ g.edgeKey)
  rw [List.toFinset_card_of_nodup keys,List.length_map]
  have stored : edges.length = g.edges.toFinset.card := by
    rw [List.toFinset_card_of_nodup g.edgeKey,inserted.edges,List.length_map]
  rw [stored]
  refine Finset.card_le_card_of_injOn (fun x => ⟨x.1.2.id,x.2.2.id⟩) ?_ ?_
  · rintro ⟨p,q⟩ member
    obtain ⟨inp,inq,asked⟩ := mem_wanted.mp member
    exact List.mem_toFinset.mpr ((mirrors.edges p inp q inq).mpr asked)
  · rintro ⟨p,q⟩ member ⟨p',q'⟩ member' same
    obtain ⟨inp,inq,_⟩ := mem_wanted.mp member
    obtain ⟨inp',inq',_⟩ := mem_wanted.mp member'
    obtain ⟨source,target⟩ := WorkflowEdge.mk.inj same
    exact Prod.ext (List.inj_on_of_nodup_map distinct inp inp' source)
      (List.inj_on_of_nodup_map distinct inq inq' target)

/-- As many wanted edges as requested ones means one carrier for each end. -/
theorem Mirrors.endsOnce (mirrors : Mirrors nodes edges g rows) (inserted : Inserted nodes edges g nodeIDs)
    (declared : ∀ e ∈ edges, e.sourceNodeID ∈ nodes.map (·.id) ∧ e.targetNodeID ∈ nodes.map (·.id)) :
    EndsOnce nodes edges := by
  have distinct := zip_rows mirrors.copies.length_eq ((mirrors.all.map (·.id)).nodup_iff.mpr g.nodeKey)
  have ids := zip_ids mirrors.copies.length_eq
  have carried : ∀ id ∈ nodes.map (·.id), ∃ p ∈ nodes.zip rows, p.1.id = id := by
    intro id member
    rw [← ids] at member
    exact List.mem_map.mp member
  have into : Set.MapsTo (fun x : (WorkflowNodeDTO × NodeRow) × (WorkflowNodeDTO × NodeRow) =>
      (x.1.1.id,x.2.1.id)) (wanted edges (nodes.zip rows)) (edges.map (·.key)).toFinset := by
    rintro ⟨p,q⟩ member
    obtain ⟨_,_,e,asked,source,target⟩ := mem_wanted.mp member
    exact List.mem_toFinset.mpr (List.mem_map.mpr ⟨e,asked,Prod.ext source target⟩)
  have onto : Set.SurjOn (fun x : (WorkflowNodeDTO × NodeRow) × (WorkflowNodeDTO × NodeRow) =>
      (x.1.1.id,x.2.1.id)) (wanted edges (nodes.zip rows)) (edges.map (·.key)).toFinset := by
    intro key member
    obtain ⟨e,asked,rfl⟩ := List.mem_map.mp (List.mem_toFinset.mp member)
    obtain ⟨p,inp,source⟩ := carried _ (declared e asked).1
    obtain ⟨q,inq,target⟩ := carried _ (declared e asked).2
    exact ⟨(p,q),mem_wanted.mpr ⟨inp,inq,e,asked,source.symm,target.symm⟩,Prod.ext source target⟩
  have apart := Finset.injOn_of_surjOn_of_card_le _ into onto (mirrors.wanted_card inserted)
  intro e asked
  obtain ⟨p,inp,source⟩ := carried _ (declared e asked).1
  obtain ⟨q,inq,target⟩ := carried _ (declared e asked).2
  have wanted_ : ∀ {p q}, p ∈ nodes.zip rows → q ∈ nodes.zip rows → p.1.id = e.sourceNodeID →
      q.1.id = e.targetNodeID → (p,q) ∈ wanted edges (nodes.zip rows) := fun inp inq source target =>
    mem_wanted.mpr ⟨inp,inq,e,asked,source.symm,target.symm⟩
  rw [← ids]
  constructor
  · refine (carried_once distinct.of_map).mpr ⟨p,inp,source,fun r inr carries => ?_⟩
    exact (Prod.mk.inj (apart (wanted_ inr inq carries target) (wanted_ inp inq source target)
      (Prod.ext (carries.trans source.symm) rfl))).1
  · refine (carried_once distinct.of_map).mpr ⟨q,inq,target,fun r inr carries => ?_⟩
    exact (Prod.mk.inj (apart (wanted_ inp inr source carries) (wanted_ inp inq source target)
      (Prod.ext rfl (carries.trans target.symm)))).2

/-- Creation has stored the given graph exactly when each end of an edge has one carrier. -/
theorem Inserted.given_iff {s : Store} {wf : Workflow} {w : WorkflowID} (stored : s.workflows w = some wf)
    (inserted : Inserted nodes edges wf.graph nodeIDs) (some_ : nodes ≠ [])
    (declared : ∀ e ∈ edges, e.sourceNodeID ∈ nodes.map (·.id) ∧ e.targetNodeID ∈ nodes.map (·.id)) :
    StoresGiven nodes edges w s ↔ EndsOnce nodes edges := by
  constructor
  · rintro ⟨wf',stored',⟨rows,mirrors⟩,_⟩
    obtain rfl := Option.some.inj (stored.symm.trans stored')
    exact mirrors.endsOnce inserted declared
  · intro once
    have nonempty : wf.graph.nodes ≠ [] := by
      intro none_
      have same := inserted.copies.length_eq
      rw [none_] at same
      exact some_ (List.length_eq_zero_iff.mp same)
    exact ⟨wf,stored,⟨_,inserted.mirrors once⟩,returns_exists nonempty,fun _ returns => returns.perm⟩

end Mirror

section Requests

variable {env : Env} {userID : UserID} {s t : Store} {name description status : String}
  {nodes : List WorkflowNodeDTO} {edges : List WorkflowEdgeDTO} {w : WorkflowID}

theorem validated_ends (valid : validateRequest env nodes edges = .ok ()) :
    ∀ e ∈ edges, e.sourceNodeID ∈ nodes.map (·.id) ∧ e.targetNodeID ∈ nodes.map (·.id) := by
  intro e member
  have ends := accepted_ends (validateRequest_ok valid).1 _ (List.mem_map_of_mem member)
  rwa [prepForValidate_ids nodes edges] at ends

/-- A successful creation stores the graph it was given exactly when each end of an edge is
the id of one node only. -/
theorem createWorkflow_given_iff
    (created : createWorkflow env userID name description status nodes edges s = (t,.ok w)) :
    StoresGiven nodes edges w t ↔ EndsOnce nodes edges := by
  obtain ⟨valid,some_,wf,nodeIDs,stored,inserted⟩ := createWorkflow_inserted created
  exact inserted.given_iff stored some_ (validated_ends valid)

/-- Some mails, stored in an empty database. -/
def createMails (nodes : List WorkflowNodeDTO) (edges : List WorkflowEdgeDTO) : Reply WorkflowID :=
  createWorkflow .calm "alice" "mails" "some mails" "active" nodes edges (.fresh fun _ => false)

def twoMails : List WorkflowNodeDTO := [mail (.uuid "a"),mail (.uuid "b")]

/-- Two of the three nodes share an id. -/
def threeMails : List WorkflowNodeDTO := [mail (.uuid "a"),mail (.uuid "a"),mail (.uuid "b")]

def between : List WorkflowEdgeDTO := [⟨"",.uuid "a",.uuid "b"⟩]

theorem reply_ok {α : Type} {x : Reply α} {a : α} (ok : x.2 = .ok a) : x = (x.1,.ok a) :=
  Prod.ext rfl ok

theorem mails_given : StoresGiven twoMails between 1 (createMails twoMails between).1 := by
  have ok : (createMails twoMails between).2 = .ok 1 := by decide +kernel
  exact (createWorkflow_given_iff (reply_ok ok)).mpr (by decide)

/-- The edge that leaves the shared id is stored for the second of its nodes only. -/
theorem doubled_not_given : (createMails threeMails between).2 = .ok 1 ∧
    ¬StoresGiven threeMails between 1 (createMails threeMails between).1 := by
  have ok : (createMails threeMails between).2 = .ok 1 := by decide +kernel
  obtain ⟨valid,some_,wf,nodeIDs,stored,inserted⟩ := createWorkflow_inserted (reply_ok ok)
  refine ⟨ok,fun given => ?_⟩
  have once := (inserted.given_iff stored some_ (validated_ends valid)).mp given
  exact absurd once (by decide)

end Requests

end TinyAutomator.Workflows
