import TinyAutomator.Workflows.Rows

/-! A save as seen by the next reader: RenderWorkflowGraph gives the request back, and no
other workflow has changed. -/
namespace TinyAutomator.Workflows

/-- The config a saved node is rendered with: a changed one has got the service's keys. -/
def savedConfig (r : UpdateRequest) (g : Graph) (d : WorkflowNodeDTO) : Option Config :=
  if ID.isUUID d.id then d.config.map Config.stored
  else if changed g d then (d.withIDs r).config.map Config.stored
  else d.config

/-- What a reader gets after a save over the graph `g`. Row ids stay, UUIDs become new row
ids, which the sequence has not reached before. -/
structure Replaces (r : UpdateRequest) (g : Graph) (nextNode : NodeID) (rename : ID → NodeID)
    (dto : WorkflowGraphDTO) : Prop where
  kept : ∀ n, ID.row n ∈ r.nodes.map (·.id) → rename (.row n) = n
  created : ∀ d ∈ r.nodes, ID.isUUID d.id = true → nextNode ≤ rename d.id
  injective : (r.nodes.map (rename ·.id)).Nodup
  name : dto.name = r.name
  description : dto.description = r.description
  nodes : dto.nodes.Perm (r.nodes.map fun d =>
    ⟨.row (rename d.id),d.category,d.nodeType,savedConfig r g d,d.position⟩)
  edges : dto.edges.Perm (r.edges.map fun e => edgeDTO ⟨rename e.sourceNodeID,rename e.targetNodeID⟩)

section Created

variable {x y : Writing} {nodes : List WorkflowNodeDTO} {text : String} {ran : NodeID → Bool}
  {delta : WorkflowDelta} {existing : List WorkflowNodeDTO} {nextNode : NodeID} {g : Graph}

/-- A created node gets the next number of the sequence. -/
theorem createNodes_fresh (created : nodes.foldlM (Writing.createNode text) x = .ok y) :
    ∀ d ∈ nodes, x.nextNode ≤ y.nodeIDs d.id := by
  have grown : x.nextNode ≤ y.nextNode ∧ ∀ d ∈ nodes, x.nextNode ≤ y.nodeIDs d.id := by
    refine Fold.foldlM_ok (fun done y => x.nextNode ≤ y.nextNode ∧
      ∀ d ∈ done, x.nextNode ≤ y.nodeIDs d.id) ?_ ?_ created
    · exact ⟨Nat.le_refl _,by simp⟩
    · intro done d y z ⟨later,known⟩ step
      have counter := createNode_counter step
      have ids := (createNode_ok step).1
      refine ⟨Nat.le_trans later (counter ▸ Nat.le_succ y.nextNode),fun e member => ?_⟩
      rw [ids,NodeIDMap.set]
      split
      next => exact later
      next apart =>
        rcases List.mem_append.mp member with old | new
        · exact known e old
        · exact absurd (congrArg _ (List.mem_singleton.mp new)) apart
  exact grown.2

theorem applyDelta_fresh (applied : applyDelta ran delta existing nextNode g = .ok x) :
    ∀ d ∈ delta.nodesToCreate, nextNode ≤ x.nodeIDs d.id := by
  unfold applyDelta at applied
  obtain ⟨deleted,_,applied⟩ := Fold.bind_ok.mp applied
  obtain ⟨created,create,applied⟩ := Fold.bind_ok.mp applied
  obtain ⟨updated,_,applied⟩ := Fold.bind_ok.mp applied
  obtain ⟨placed,_,applied⟩ := Fold.bind_ok.mp applied
  obtain ⟨cut,_,add⟩ := Fold.bind_ok.mp applied
  obtain ⟨_,ids,_⟩ := createEdges_ok add
  rw [ids]
  exact createNodes_fresh create

end Created

section Rendered

variable {env env' : Env} {r : UpdateRequest} {s t : Store} {wf : Workflow} {g h : Graph}
  {delta : WorkflowDelta} {x : Writing} {d : WorkflowNodeDTO} {rename : ID → NodeID}
  {row : WorkflowNodeDTO → NodeRow} {nextNode : NodeID}

theorem landed_dto (diffed : Diffed r g delta) (distinct : (r.nodes.map (·.id)).Nodup)
    (applied : applyDelta env.ran delta (g.nodes.map NodeRow.dto) nextNode g = .ok x)
    (stores : Stores r x.graph x.nodeIDs (landed r g x.nodeIDs)) (member : d ∈ r.nodes)
    (given : d.config.isSome) : (landed r g x.nodeIDs d).dto =
      ⟨.row (x.nodeIDs d.id),d.category,d.nodeType,savedConfig r g d,d.position⟩ := by
  have config : some (landed r g x.nodeIDs d).config = savedConfig r g d := by
    obtain ⟨c,given⟩ := Option.isSome_iff_exists.mp given
    by_cases uuid : ID.isUUID d.id = true
    · rw [landed_new diffed distinct applied member uuid,savedConfig,if_pos uuid,given]
      simp [newRow,storedConfig,given]
    · obtain ⟨row,found,is,_,_,placed⟩ := landed_old diffed x.nodeIDs member (by simpa using uuid)
      rw [is,(patched_kept (.of_distinct distinct) member found placed).1,savedConfig,if_neg uuid]
      split
      next => simp [storedConfig,WorkflowNodeDTO.withIDs,given]
      next settled => exact (changed_false found (by simpa using settled)).symm
  rw [NodeRow.dto,stores.id d member,stores.category d member,stores.nodeType d member,config,
    ← stores.position d member]

theorem Stores.edges_perm (stores : Stores r h rename row) (edges : (r.edges.map (·.key)).Nodup)
    (declared : ∀ e ∈ r.edges, e.sourceNodeID ∈ r.nodes.map (·.id) ∧ e.targetNodeID ∈ r.nodes.map (·.id)) :
    h.edges.Perm (r.edges.map fun e => ⟨rename e.sourceNodeID,rename e.targetNodeID⟩) := by
  have apart : (r.edges.map fun e =>
      (⟨rename e.sourceNodeID,rename e.targetNodeID⟩ : WorkflowEdge)).Nodup := by
    refine List.Nodup.map_on ?_ edges.of_map
    intro e member f other same
    obtain ⟨src,dst⟩ := WorkflowEdge.mk.inj same
    have source : e.sourceNodeID = f.sourceNodeID := by
      rw [← stores.original (declared e member).1,← stores.original (declared f other).1,src]
    have target : e.targetNodeID = f.targetNodeID := by
      rw [← stores.original (declared e member).2,← stores.original (declared f other).2,dst]
    exact List.inj_on_of_nodup_map edges member other (Prod.ext source target)
  refine (List.perm_ext_iff_of_nodup h.edgeKey apart).mpr fun e => ?_
  rw [stores.edges e,List.mem_map]
  constructor
  · rintro ⟨f,member,is⟩
    exact ⟨f,member,is.symm⟩
  · rintro ⟨f,member,is⟩
    exact ⟨f,member,is.symm⟩

theorem Quiet.names {w : WorkflowID} {wf' : Workflow} (quiet : Quiet w s t) (before : s.workflows w = some wf)
    (after : t.workflows w = some wf') : wf'.name = wf.name ∧ wf'.description = wf.description := by
  have core := quiet.core w
  rw [before,after] at core
  simp only [Workflow.core,Option.map_some,Option.some.injEq,Workflow.mk.injEq] at core
  exact ⟨core.2.1,core.2.2.1⟩

theorem plan_names {plan : Plan} (planned : planUpdate env r s = (t,.ok plan))
    (stored : s.workflows r.workflowID = some wf) :
    (if plan.delta.updateMetadata then (plan.delta.name,plan.delta.description)
      else (wf.name,wf.description)) = (r.name,r.description) := by
  obtain ⟨_,wf',delta,stored',existing,diffed,built⟩ := planUpdate_ok planned
  obtain rfl := Option.some.inj (stored.symm.trans stored')
  obtain ⟨_,sorted⟩ := diffNodes_ok diffed
  rw [built,sorted,existing]
  simp only [diffRest,WorkflowDelta.start,decide_eq_true_eq]
  split
  next => rfl
  next same =>
    rw [not_or,not_not,not_not] at same
    rw [same.1,same.2]

/-- A save that returns nil replaces the graph: the next reader gets the request. -/
theorem updateWorkflow_replaces (stored : s.workflows r.workflowID = some wf) (some_ : r.nodes ≠ [])
    (distinct : (r.nodes.map (·.id)).Nodup) (edges : (r.edges.map (·.key)).Nodup)
    (updated : updateWorkflow env r s = (t,.ok ())) :
    (∃ rename dto, Replaces r wf.graph s.nextNode rename dto ∧ ∀ env', env'.answers .graph = true →
      renderWorkflowGraph env' r.workflowID t = .ok dto) ∧
    ∀ w, w ≠ r.workflowID → t.workflows w = s.workflows w := by
  have frame : ∀ w, w ≠ r.workflowID → t.workflows w = s.workflows w := by
    intro w other
    have kept := updateWorkflow_frame env r s other
    rw [updated] at kept
    exact kept
  refine ⟨?_,frame⟩
  unfold updateWorkflow at updated
  split at updated
  next => simp at updated
  next u plan planned =>
    obtain ⟨valid,wf₀,delta,stored₀,existing,looped,_⟩ := planUpdate_ok planned
    obtain rfl := Option.some.inj (stored.symm.trans stored₀)
    have quiet := planUpdate_quiet env r s
    rw [planned] at quiet
    obtain ⟨mid,between,graph,_⟩ := quiet.graph stored
    obtain ⟨x,wf',applied,after,graph',_,_,_,_,names⟩ := writeUpdate_ok updated between
    rw [existing,graph] at applied
    have diffed := plan_diffed planned stored
    have declared := declared_edges distinct valid
    have stores := applyDelta_stores diffed distinct declared applied
    obtain ⟨name,description⟩ := quiet.names stored between
    rw [name,description,plan_names planned stored] at names
    obtain ⟨name',description'⟩ := Prod.mk.inj names
    have dtos : (x.graph.nodes.map NodeRow.dto).Perm (r.nodes.map fun d =>
        ⟨.row (x.nodeIDs d.id),d.category,d.nodeType,savedConfig r wf.graph d,d.position⟩) := by
      refine (stores.nodes.map _).trans (List.Perm.of_eq ?_)
      rw [List.map_map]
      refine List.map_congr_left fun d member => ?_
      obtain ⟨c,given⟩ := validateNode_config ((validateRequest_ok valid).2 d member)
      exact landed_dto diffed distinct applied stores member (by rw [given]; rfl)
    refine ⟨x.nodeIDs,⟨wf'.name,wf'.description,wf'.graph.nodes.map NodeRow.dto,
      wf'.graph.edges.map edgeDTO⟩,?_,?_⟩
    · refine ⟨stores.kept,?_,stores.injective,name',description',graph' ▸ dtos,?_⟩
      · intro d member uuid
        rw [← quiet.nextNode]
        refine applyDelta_fresh applied d ?_
        rw [diffed.create]
        exact List.mem_filter.mpr ⟨member,uuid⟩
      · rw [graph']
        have all := (stores.edges_perm edges declared).map edgeDTO
        rw [List.map_map] at all
        exact all
    · intro env' answers
      refine render_answers answers after ?_
      rw [graph']
      intro none_
      rw [none_] at dtos
      exact some_ (List.map_eq_nil_iff.mp dtos.symm.eq_nil)

end Rendered

section Runs

/-- A save of the two actions that keeps and moves the first, drops the second and adds a
third behind the first. -/
def reshape : UpdateRequest where
  userID := "alice"
  workflowID := 1
  name := "chain"
  description := "two mails in a row"
  nodes := [⟨.row 1,.action,"send_email",some .blank,some ⟨10,0⟩⟩,
    ⟨.uuid "n",.action,"send_email",some .blank,some ⟨20,0⟩⟩]
  edges := [⟨"",.row 1,.uuid "n"⟩]

theorem reshape_replaces : ∃ rename dto, Replaces reshape pair 3 rename dto ∧
    renderWorkflowGraph .calm 1 (updateWorkflow .calm reshape pairStore).1 = .ok dto := by
  have ok : (updateWorkflow .calm reshape pairStore).2 = .ok () := by decide +kernel
  have updated : updateWorkflow .calm reshape pairStore =
    ((updateWorkflow .calm reshape pairStore).1,.ok ()) := Prod.ext rfl ok
  obtain ⟨⟨rename,dto,replaces,rendered⟩,_⟩ :=
    updateWorkflow_replaces rfl (by decide) (by decide) (by decide) updated
  exact ⟨rename,dto,replaces,rendered .calm rfl⟩

end Runs

end TinyAutomator.Workflows
