import TinyAutomator.Workflows.Reloads
import TinyAutomator.Workflows.Replaces
import TinyAutomator.Workflows.Vetted

/-! Saving a workflow as it is. The delta is empty when the request depicts what is stored; what
is left to fail is the validation, which asks for dates in the future. -/
namespace TinyAutomator.Workflows

open Transition

/-- The ends of an edge as the canvas names them. -/
def WorkflowEdge.ends (e : WorkflowEdge) : ID × ID := (.row e.sourceNodeID,.row e.targetNodeID)

/-- The request is the stored workflow; it may name nodes and edges more than once. -/
structure Depicts (r : UpdateRequest) (wf : Workflow) : Prop where
  name : r.name = wf.name
  description : r.description = wf.description
  nodes : ∀ d ∈ r.nodes, ∃ row ∈ wf.graph.nodes, d = row.dto
  all : ∀ row ∈ wf.graph.nodes, ID.row row.id ∈ r.nodes.map (·.id)
  edges : ∀ k, k ∈ r.edges.map (·.key) ↔ k ∈ wf.graph.edges.map WorkflowEdge.ends

/-- The call succeeds with an empty delta and changes no table. -/
structure NoOp (env : Env) (r : UpdateRequest) (s : Store) : Prop where
  empty : ∃ plan, planUpdate env r s = (s,.ok plan) ∧ plan.delta.unchanged
  returns : updateWorkflow env r s = (s,.ok ())

/-- The request is what RenderWorkflowGraph has returned; the order of its lists is free. -/
structure Resaves (r : UpdateRequest) (dto : WorkflowGraphDTO) : Prop where
  name : r.name = dto.name
  description : r.description = dto.description
  nodes : r.nodes.Perm dto.nodes
  edges : r.edges.Perm dto.edges

/-- No request lists a node twice, and a save is written while its graph is still stored. -/
def OneByOne (s : Canvas) : CanvasLabel → Prop
  | .create _ _ _ _ _ nodes _ => (nodes.map (·.id)).Nodup
  | .read _ r => (r.nodes.map (·.id)).Nodup
  | .write _ i => ∀ save, s.saves[i]? = some save → save.2.Current save.1.workflowID s.store
  | .archive .. => True

section Validation

variable {env : Env} {nodes : List WorkflowNodeDTO} {edges : List WorkflowEdgeDTO}

theorem validateRequest_iff : validateRequest env nodes edges = .ok () ↔
    validateWorkflowGraph env.visits (prepForValidate nodes edges).1 (prepForValidate nodes edges).2 = .ok () ∧
      ∀ node ∈ nodes, validateNode env node = .ok () := by
  constructor
  · exact validateRequest_ok
  · intro ⟨graph,all⟩
    unfold validateRequest
    exact Fold.bind_ok.mpr ⟨(),wrap_ok.mpr graph,
      Fold.forM_ok.mpr fun node member => wrap_ok.mpr (all node member)⟩

end Validation

/-- What RenderWorkflowGraph returns. -/
def Workflow.rendered (wf : Workflow) : WorkflowGraphDTO :=
  ⟨wf.name,wf.description,wf.graph.nodes.map NodeRow.dto,wf.graph.edges.map edgeDTO⟩

theorem Workflow.rendered_keys (wf : Workflow) :
    wf.rendered.edges.map (·.key) = wf.graph.edges.map WorkflowEdge.ends := by
  simp [Workflow.rendered,Function.comp_def,edgeDTO,WorkflowEdgeDTO.key,WorkflowEdge.ends]

section Delta

variable {env : Env} {r : UpdateRequest} {s t : Store} {g : Graph} {wf : Workflow} {delta : WorkflowDelta}
  {nodes : List WorkflowNodeDTO} {row : NodeRow} {d : WorkflowNodeDTO}

theorem compareUI_same (row : NodeRow) (delta : WorkflowDelta) : compareUI row.dto row.dto delta = .ok delta := by
  unfold compareUI NodeRow.dto
  simp

theorem diffNodes_same (same : ∀ d ∈ nodes, ∃ row ∈ g.nodes, d = row.dto) :
    diffNodes env r (g.nodes.map NodeRow.dto) nodes delta s = (s,.ok delta) := by
  induction nodes with
  | nil => rfl
  | cons d rest ih =>
    obtain ⟨row,member,rfl⟩ := same d List.mem_cons_self
    have found : (g.nodes.map NodeRow.dto).find? (fun old => old.id = row.dto.id) = some row.dto := by
      rw [find_dto]
      exact congrArg (Option.map NodeRow.dto) (rowOf_row member)
    have stands : StandsFor (g.nodes.map NodeRow.dto) row.dto row.dto := ⟨found,rfl,rfl,rfl⟩
    rw [stands.diffNodes_same rfl (compareUI_same row delta)]
    exact ih fun d member => same d (List.mem_cons_of_mem _ member)

theorem planUpdate_same (stored : s.workflows r.workflowID = some wf) (depicts : Depicts r wf)
    (valid : validateRequest env r.nodes r.edges = .ok ()) (answers : env.answers .graph = true)
    (some_ : wf.graph.nodes ≠ []) : ∃ plan, planUpdate env r s = (s,.ok plan) ∧ plan.delta.unchanged := by
  have rendered := render_answers answers stored some_
  refine ⟨⟨wf.rendered,diffRest r wf.rendered (.start r wf.rendered)⟩,?_,?_⟩
  · simp only [planUpdate,valid,rendered,wrap,diffNodes_same depicts.nodes]
    rfl
  · refine ⟨?_,rfl,rfl,rfl,?_,?_,?_⟩
    · simp [diffRest,WorkflowDelta.start,Workflow.rendered,depicts.name,depicts.description]
    · simp only [diffRest,List.filterMap_eq_nil_iff]
      intro old gone
      obtain ⟨within,missing⟩ := List.mem_filter.mp gone
      obtain ⟨row,member,rfl⟩ := List.mem_map.mp within
      refine absurd ?_ (of_decide_eq_true missing)
      exact List.mem_filter.mpr ⟨depicts.all row member,rfl⟩
    · apply List.filter_eq_nil_iff.mpr
      intro k asked
      rw [wf.rendered_keys,decide_eq_true_eq,not_not]
      exact (depicts.edges k).mp asked
    · apply List.filter_eq_nil_iff.mpr
      intro k present
      rw [wf.rendered_keys] at present
      rw [decide_eq_true_eq,not_not]
      exact (depicts.edges k).mpr present

theorem planUpdate_reads {plan : Plan} (planned : planUpdate env r s = (t,.ok plan))
    (stored : s.workflows r.workflowID = some wf) : env.answers .graph = true ∧ wf.graph.nodes ≠ [] := by
  unfold planUpdate at planned
  split at planned
  next => simp at planned
  next =>
    split at planned
    next => simp at planned
    next existing rendered =>
      have read := wrap_ok.mp rendered
      unfold renderWorkflowGraph at read
      simp only [stored] at read
      split at read
      next => contradiction
      next answers =>
        split at read
        next => contradiction
        next some_ => exact ⟨not_not.mp answers,some_⟩

theorem Diffed.depicts (diffed : Diffed r wf.graph delta) (same : delta.unchanged)
    (names : (r.name,r.description) = (wf.name,wf.description)) : Depicts r wf := by
  obtain ⟨_,create,update,updateUI,delete,add,cut⟩ := same
  obtain ⟨name,description⟩ := Prod.mk.inj names
  rw [diffed.create,List.filter_eq_nil_iff] at create
  rw [diffed.update,List.map_eq_nil_iff,List.filter_eq_nil_iff] at update
  rw [diffed.updateUI,List.map_eq_nil_iff,List.filter_eq_nil_iff] at updateUI
  rw [diffed.delete,List.filter_eq_nil_iff] at delete
  rw [diffed.add,List.filter_eq_nil_iff] at add
  rw [diffed.cut,List.map_eq_nil_iff,List.filter_eq_nil_iff] at cut
  refine ⟨name,description,fun d member => ?_,fun row member => ?_,fun k => ⟨fun asked => ?_,fun stored => ?_⟩⟩
  · obtain ⟨row,found,category,nodeType,placed⟩ := diffed.known d member (by simpa using create d member)
    obtain ⟨present,own⟩ := rowOf_some found
    obtain ⟨position,here⟩ := Option.isSome_iff_exists.mp placed
    have config := changed_false found (by simpa using update d member)
    have still := updateUI d member
    simp only [moved,found,here,Option.any_some,decide_eq_true_eq,not_or,not_not] at still
    refine ⟨row,present,?_⟩
    have same : row.position = position := by
      cases before : row.position
      cases position
      rw [before] at still
      exact congr (congrArg _ still.1) still.2
    cases d
    simp_all [NodeRow.dto]
  · have listed := delete row.id (List.mem_map_of_mem member)
    rw [decide_eq_true_eq,not_not] at listed
    exact listed
  · have known := add k asked
    rw [decide_eq_true_eq,not_not] at known
    exact known
  · obtain ⟨e,member,rfl⟩ := List.mem_map.mp stored
    have kept := cut e member
    rw [decide_eq_true_eq,not_not] at kept
    exact kept

/-- A save is a no-op exactly when its request is valid and depicts a workflow that can be read. -/
theorem noOp_iff (stored : s.workflows r.workflowID = some wf) : NoOp env r s ↔
    validateRequest env r.nodes r.edges = .ok () ∧ env.answers .graph = true ∧ wf.graph.nodes ≠ [] ∧
      Depicts r wf := by
  constructor
  · rintro ⟨⟨plan,planned,same⟩,_⟩
    obtain ⟨valid,_⟩ := planUpdate_ok planned
    obtain ⟨answers,some_⟩ := planUpdate_reads planned stored
    refine ⟨valid,answers,some_,(plan_diffed planned stored).depicts same ?_⟩
    have names := plan_names planned stored
    rw [same.1] at names
    exact names.symm
  · rintro ⟨valid,answers,some_,depicts⟩
    obtain ⟨plan,planned,same⟩ := planUpdate_same stored depicts valid answers some_
    refine ⟨⟨plan,planned,same⟩,?_⟩
    simp only [updateWorkflow,planned,writeUpdate,if_pos same]

end Delta

section Validity

variable {s t : Canvas} {label : CanvasLabel} {integrations : UserID → Bool}

/-- The stored graphs are accepted, and a save in flight has a plan of its own request. -/
structure Canvas.Valid (s : Canvas) : Prop where
  graphs : ∀ w g, s.store.graph w = some g → g.Valid
  planned : ∀ save ∈ s.saves, Planned save.1.workflowID save.1 save.2

theorem createWorkflow_valid {env : Env} {userID : UserID} {name description status : String}
    {nodes : List WorkflowNodeDTO} {edges : List WorkflowEdgeDTO} {s : Store} {w : WorkflowID} {g : Graph}
    (distinct : (nodes.map (·.id)).Nodup) (valid : ∀ w g, s.graph w = some g → g.Valid)
    (here : (createWorkflow env userID name description status nodes edges s).1.graph w = some g) : g.Valid := by
  cases checked : validateRequest env nodes edges with
  | error err =>
    rw [createWorkflow,checked] at here
    exact valid w g here
  | ok =>
    rcases createWorkflow_store env userID name description status nodes edges s with same | ⟨t,wg,_,rows,same⟩
    · exact valid w g (same ▸ here)
    · rw [same,executeTriggers_graph] at here
      obtain ⟨_,frame,_⟩ := insertWorkflow_ok rows
      obtain ⟨_,wf,nodeIDs,stored,inserted⟩ := insertWorkflow_inserted rows
      by_cases new : w = s.nextWorkflow
      · rw [new,Store.graph,stored] at here
        cases here
        exact inserted.valid checked distinct
      · rw [Store.graph,frame w new] at here
        exact valid w g here

theorem writeUpdate_valid {env : Env} {r : UpdateRequest} {plan : Plan} {s : Store} {w : WorkflowID} {g : Graph}
    (planned : Planned r.workflowID r plan) (current : plan.Current r.workflowID s)
    (valid : ∀ w g, s.graph w = some g → g.Valid) (here : (writeUpdate env r plan s).1.graph w = some g) :
    g.Valid := by
  rcases writeUpdate_cases env r plan s with ⟨err,failed⟩ | ⟨t,result,patches,written⟩
  · rw [failed] at here
    exact valid w g here
  · rw [written] at here
    by_cases own : w = r.workflowID
    · obtain ⟨wf,_,_,stored,_,accepted⟩ := write_reflects planned current patches
      rw [own,Store.graph,stored] at here
      cases here
      exact accepted
    · rw [Store.graph,patches.other own] at here
      exact valid w g here

theorem Canvas.Valid.step (valid : s.Valid) (allowed : OneByOne s label) (step : canvasStep label s = some t) :
    t.Valid := by
  cases label with
  | create env userID name description status nodes edges =>
    have graphs := @createWorkflow_valid env userID name description status nodes edges s.store
    simp only [canvasStep] at step
    split at step
    next u w created =>
      rw [created] at graphs
      cases step
      exact ⟨fun w g here => graphs allowed valid.graphs here,valid.planned⟩
    next u err created =>
      rw [created] at graphs
      cases step
      exact ⟨fun w g here => graphs allowed valid.graphs here,valid.planned⟩
  | read env r =>
    have graphs := planUpdate_graph env r s.store
    simp only [canvasStep] at step
    split at step
    next u plan planned =>
      rw [planned] at graphs
      cases step
      refine ⟨fun w g here => valid.graphs w g (graphs w ▸ here),fun save member => ?_⟩
      rcases List.mem_append.mp member with old | new
      · exact valid.planned save old
      · rw [List.mem_singleton.mp new]
        obtain ⟨_,wf,_,stored,_⟩ := planUpdate_ok planned
        exact ⟨allowed,env,s.store,u,wf,planned,stored⟩
    next u err planned =>
      rw [planned] at graphs
      cases step
      exact ⟨fun w g here => valid.graphs w g (graphs w ▸ here),valid.planned⟩
  | write env i =>
    simp only [canvasStep] at step
    split at step
    next r plan at_ =>
      cases step
      have planned := valid.planned _ (List.mem_of_getElem? at_)
      refine ⟨fun w g here => writeUpdate_valid planned (allowed _ at_) valid.graphs here,fun save member => ?_⟩
      exact valid.planned save (List.mem_of_mem_eraseIdx member)
    next => contradiction
  | archive env w =>
    cases step
    exact ⟨fun x g here => valid.graphs x g (archiveWorkflow_graph env w s.store x ▸ here),valid.planned⟩

theorem reach_valid (reach : Reach (canvas integrations) OneByOne s) : s.Valid := by
  refine reach.invariant Canvas.Valid ?_ ?_
  · constructor <;> simp [canvas,Store.fresh,Store.graph]
  · intro s label t _ valid allowed step
    exact valid.step allowed step

end Validity

section Resave

variable {env : Env} {r : UpdateRequest} {dto : WorkflowGraphDTO} {s : Canvas} {wf : Workflow}
  {integrations : UserID → Bool}

theorem Resaves.depicts (resaves : Resaves r wf.rendered) : Depicts r wf := by
  refine ⟨resaves.name,resaves.description,fun d member => ?_,fun row member => ?_,fun k => ?_⟩
  · obtain ⟨row,stored,same⟩ := List.mem_map.mp (resaves.nodes.mem_iff.mp member)
    exact ⟨row,stored,same.symm⟩
  · have listed := resaves.nodes.mem_iff.mpr (List.mem_map_of_mem member)
    exact List.mem_map.mpr ⟨row.dto,listed,rfl⟩
  · rw [← wf.rendered_keys]
    exact (resaves.edges.map (·.key)).mem_iff

/-- The request of a resave is accepted when the graph is and no date has passed. -/
theorem Resaves.validated (resaves : Resaves r wf.rendered) (vetted : ∀ row ∈ wf.graph.nodes, row.Vetted) :
    validateRequest env r.nodes r.edges = .ok () ↔
      wf.graph.Valid ∧ ∀ row ∈ wf.graph.nodes, Upcoming env row.category row.nodeType row.config := by
  have nodes : (prepForValidate wf.rendered.nodes wf.rendered.edges).1 = Run.validateNodes wf.graph.workflowGraph := by
    simp [prepForValidate,Workflow.rendered,Run.validateNodes,Graph.workflowGraph,Function.comp_def,NodeRow.dto]
  have edges : (prepForValidate wf.rendered.nodes wf.rendered.edges).2 = Run.validateEdges wf.graph.workflowGraph := by
    simp [prepForValidate,Workflow.rendered,Run.validateEdges,Graph.workflowGraph,Function.comp_def,edgeDTO]
  have sameNodes : (prepForValidate r.nodes r.edges).1.Perm (Run.validateNodes wf.graph.workflowGraph) :=
    nodes ▸ resaves.nodes.map _
  have sameEdges : (prepForValidate r.nodes r.edges).2.Perm (Run.validateEdges wf.graph.workflowGraph) :=
    edges ▸ resaves.edges.map _
  rw [validateRequest_iff]
  refine and_congr ⟨fun accepted visits => ?_,fun valid => ?_⟩ ?_
  · exact (validate_perm (row_ids wf.graph) sameNodes sameEdges).mp accepted
  · exact (validate_perm (row_ids wf.graph) sameNodes sameEdges).mpr (valid .insertion)
  · constructor
    · intro all row member
      have listed := resaves.nodes.mem_iff.mpr (List.mem_map_of_mem member)
      exact ((vetted row member).valid_iff (wf.graph.categories row member)).mp (all _ listed)
    · intro upcoming d member
      obtain ⟨row,stored,rfl⟩ := List.mem_map.mp (resaves.nodes.mem_iff.mp member)
      exact ((vetted row stored).valid_iff (wf.graph.categories row stored)).mpr (upcoming row stored)

/-- Saving a workflow as it was rendered is a no-op exactly as long as the dates of its
schedule triggers have not passed, if the database answers and the graph is one that
ValidateWorkflowGraph accepts, which it is unless saves overlapped or listed a node twice. -/
theorem resaved_iff (reach : Reach (canvas integrations) (fun _ _ => True) s)
    (stored : s.store.workflows r.workflowID = some wf)
    (rendered : ∃ reader, renderWorkflowGraph reader r.workflowID s.store = .ok dto) (resaves : Resaves r dto) :
    (∀ env, NoOp env r s.store ↔ env.answers .graph = true ∧ wf.graph.Valid ∧
      ∀ row ∈ wf.graph.nodes, Upcoming env row.category row.nodeType row.config) ∧
    (Reach (canvas integrations) OneByOne s → wf.graph.Valid) := by
  obtain ⟨reader,read⟩ := rendered
  have graph : s.store.graph r.workflowID = some wf.graph := by rw [Store.graph,stored]; rfl
  have vetted : ∀ row ∈ wf.graph.nodes, row.Vetted := fun row member =>
    ((reach_vetted reach).store _ _ graph row member).1
  have some_ : wf.graph.nodes ≠ [] := by
    intro none_
    unfold renderWorkflowGraph at read
    simp [stored,none_] at read
    split at read <;> contradiction
  obtain ⟨wf',stored',built⟩ := render_ok read
  obtain rfl := Option.some.inj (stored.symm.trans stored')
  subst built
  refine ⟨fun env => ?_,fun sequential => (reach_valid sequential).graphs _ _ graph⟩
  rw [noOp_iff stored,Resaves.validated resaves vetted]
  constructor
  · rintro ⟨⟨valid,upcoming⟩,answers,_⟩
    exact ⟨answers,valid,upcoming⟩
  · rintro ⟨answers,valid,upcoming⟩
    exact ⟨⟨valid,upcoming⟩,answers,some_,Resaves.depicts resaves⟩

instance (s : Canvas) : (label : CanvasLabel) → Decidable (OneByOne s label)
  | .create _ _ _ _ _ nodes _ => inferInstanceAs (Decidable (nodes.map (·.id)).Nodup)
  | .read _ r => inferInstanceAs (Decidable (r.nodes.map (·.id)).Nodup)
  | .write _ i =>
    match at_ : s.saves[i]? with
    | none => isTrue fun save here => by rw [at_] at here; contradiction
    | some save => decidable_of_iff (save.2.Current save.1.workflowID s.store)
        ⟨fun current save' here => by rw [at_] at here; cases here; exact current,fun all => all save at_⟩
  | .archive .. => isTrue trivial

/-- Alice saves workflow 1 as it was rendered. -/
def asRendered (dto : WorkflowGraphDTO) : UpdateRequest :=
  ⟨"alice",1,dto.name,dto.description,dto.nodes,dto.edges⟩

theorem asRendered_resaves (dto : WorkflowGraphDTO) : Resaves (asRendered dto) dto :=
  ⟨rfl,rfl,.refl _,.refl _⟩

/-- Alice creates a daily reminder. -/
def newReminder : CanvasLabel := .create .dated "alice" "reminder" "a daily mail" "active"
  [trigger (.uuid "t") "daily",mail (.uuid "m")] [⟨"",.uuid "t",.uuid "m"⟩]

/-- The day after the reminder's first date. -/
def Env.overdue : Env := { Env.dated with
  now := 1893542400000
  isFuture := fun date => 1893542400000 < date
  stillFuture := fun date => 1893542400000 < date }

theorem newReminder_stored : ∃ s, Reach (canvas fun _ => false) OneByOne s ∧ ∃ wf,
    s.store.workflows 1 = some wf ∧ wf.graph.nodes =
      [⟨⟨1,.trigger,"schedule",scheduled "daily"⟩,⟨0,0⟩⟩,⟨⟨2,.action,"send_email",.blank⟩,⟨0,0⟩⟩] := by
  have run : ∃ s, Reach (canvas fun _ => false) OneByOne s ∧
      (s.store.workflows 1).any (fun wf => wf.graph.nodes =
        [⟨⟨1,.trigger,"schedule",scheduled "daily"⟩,⟨0,0⟩⟩,⟨⟨2,.action,"send_email",.blank⟩,⟨0,0⟩⟩]) = true :=
    follow_exists [newReminder] (by decide +kernel)
  obtain ⟨s,reach,found⟩ := run
  obtain ⟨wf,stored,nodes⟩ := (Option.any_eq_true _ _).mp found
  exact ⟨s,reach,wf,stored,of_decide_eq_true nodes⟩

theorem reminder_resaved : ∃ s wf, Reach (canvas fun _ => false) OneByOne s ∧ s.store.workflows 1 = some wf ∧
    NoOp .dated (asRendered wf.rendered) s.store ∧ ¬NoOp .overdue (asRendered wf.rendered) s.store := by
  obtain ⟨s,reach,wf,stored,nodes⟩ := newReminder_stored
  have read : renderWorkflowGraph .dated 1 s.store = .ok wf.rendered :=
    render_answers rfl stored (by rw [nodes]; simp)
  obtain ⟨exactly,valid⟩ := @resaved_iff (asRendered wf.rendered) wf.rendered s wf (fun _ => false)
    (reach.mono fun _ _ _ => trivial) stored ⟨.dated,read⟩ (asRendered_resaves _)
  refine ⟨s,wf,reach,stored,(exactly .dated).mpr ⟨rfl,valid reach,?_⟩,fun noOp => ?_⟩
  · rw [nodes]
    intro row member
    simp only [List.mem_cons,List.not_mem_nil,or_false] at member
    rcases member with rfl | rfl
    · intro _ _
      exact ⟨⟨.daily,1893456000000⟩,by decide,by decide⟩
    · intro action
      contradiction
  · obtain ⟨_,_,upcoming⟩ := (exactly .overdue).mp noOp
    obtain ⟨c,built,future⟩ := upcoming _ (nodes ▸ List.mem_cons_self) rfl rfl
    have read : buildScheduleConfig Env.overdue.parseRFC3339 (scheduled "daily") = .ok ⟨.daily,1893456000000⟩ := by
      decide
    cases read.symm.trans built
    contradiction

/-- The database answers and nobody has changed the reminder, but its first date has passed. -/
theorem overdue_refused : ¬∀ integrations s r dto env, Reach (canvas integrations) OneByOne s →
    renderWorkflowGraph env r.workflowID s.store = .ok dto → Resaves r dto → NoOp env r s.store := by
  intro all
  have run : ∃ s, Reach (canvas fun _ => false) OneByOne s ∧ (s.store.workflows 1).any (fun wf =>
      wf.graph.nodes ≠ [] ∧ (updateWorkflow .overdue (asRendered wf.rendered) s.store).2 = .error
        ("failed to validate node: trigger validation error: failed to validate trigger: " ++
          "invalid schedule type: next_run_at must be in the future")) = true :=
    follow_exists [newReminder] (by decide +kernel)
  obtain ⟨s,reach,found⟩ := run
  obtain ⟨wf,stored,facts⟩ := (Option.any_eq_true _ _).mp found
  obtain ⟨some_,failed⟩ := of_decide_eq_true facts
  have read : renderWorkflowGraph .overdue 1 s.store = .ok wf.rendered := render_answers rfl stored some_
  have noOp := all _ s (asRendered wf.rendered) _ .overdue reach read (asRendered_resaves _)
  rw [noOp.returns] at failed
  contradiction

end Resave

end TinyAutomator.Workflows
