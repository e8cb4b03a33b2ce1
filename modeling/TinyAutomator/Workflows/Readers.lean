import TinyAutomator.Workflows.Created
import TinyAutomator.Workflows.Silence
import TinyAutomator.Workflows.Saveable

/-! Whether a workflow can still be read. Both readers of a graph fail when it has no node,
and only CreateWorkflow insists on one. A save is two steps, the read of the stored graph and
its write; a run changes no table here but lets node rows refer to nodes (`Env.ran`). -/
namespace TinyAutomator.Workflows

open Transition

/-- The saves under way, and the workflows that CreateWorkflow has returned. -/
structure Canvas where
  store : Store
  saves : List (UpdateRequest × Plan)
  returned : List WorkflowID

inductive CanvasLabel where
  | create (env : Env) (userID : UserID) (name description status : String)
      (nodes : List WorkflowNodeDTO) (edges : List WorkflowEdgeDTO)
  | read (env : Env) (request : UpdateRequest)
  | write (env : Env) (save : Nat)
  | archive (env : Env) (workflowID : WorkflowID)

def canvasStep : CanvasLabel → Canvas → Option Canvas
  | .create env userID name description status nodes edges, s =>
    match createWorkflow env userID name description status nodes edges s.store with
    | (t,.ok w) => some { s with store := t, returned := s.returned ++ [w] }
    | (t,.error _) => some { s with store := t }
  | .read env r, s =>
    match planUpdate env r s.store with
    | (t,.ok plan) => some { s with store := t, saves := s.saves ++ [(r,plan)] }
    | (t,.error _) => some { s with store := t }
  | .write env i, s =>
    match s.saves[i]? with
    | some (r,plan) =>
      some { s with store := (writeUpdate env r plan s.store).1, saves := s.saves.eraseIdx i }
    | none => none
  | .archive env w, s => some { s with store := (archiveWorkflow env w s.store).1 }

def canvas (integrations : UserID → Bool) : System Canvas CanvasLabel :=
  ⟨⟨.fresh integrations,[],[]⟩,canvasStep⟩

/-- Both readers succeed when the database answers. -/
def Readable (s : Store) (w : WorkflowID) : Prop :=
  ∀ env, env.answers .graph = true →
    (∃ dto, renderWorkflowGraph env w s = .ok dto) ∧ ∃ g, getWorkflowGraph env w s = .ok g

def AllReadable (s : Canvas) : Prop := ∀ w ∈ s.returned, Readable s.store w

/-- A request lists a node that is new or stored now. -/
def ListsNode (r : UpdateRequest) (g : Graph) : Prop :=
  ∃ d ∈ r.nodes, ID.isUUID d.id = true ∨ (rowOf g d.id).isSome = true

instance (r : UpdateRequest) (g : Graph) : Decidable (ListsNode r g) :=
  inferInstanceAs (Decidable (∃ d ∈ r.nodes, _))

/-- When a save is written it leaves a node: one that it creates or one that is stored. -/
def LeavesNode (s : Canvas) : CanvasLabel → Prop
  | .write _ i => ∀ save, s.saves[i]? = some save → ∀ wf,
      s.store.workflows save.1.workflowID = some wf → ListsNode save.1 wf.graph
  | .create .. | .read .. | .archive .. => True

section Readable

variable {env : Env} {s t : Store} {w x : WorkflowID} {wf : Workflow} {g h : Graph}

theorem readable_iff : Readable s w ↔ ∃ wf, s.workflows w = some wf ∧ wf.graph.nodes ≠ [] := by
  constructor
  · intro readable
    obtain ⟨⟨dto,rendered⟩,_⟩ := readable { Env.calm with answers := fun _ => true } rfl
    unfold renderWorkflowGraph at rendered
    split at rendered
    next => contradiction
    next wf stored =>
      split at rendered
      next => contradiction
      next =>
        split at rendered
        next => contradiction
        next some_ => exact ⟨wf,stored,some_⟩
  · rintro ⟨wf,stored,some_⟩ env answers
    refine ⟨⟨_,render_answers answers stored some_⟩,?_⟩
    simp [getWorkflowGraph,stored,answers,some_]

/-- GetWorkflowGraph as modelled here is one of the ways to read the join back. -/
theorem getWorkflowGraph_returns {h : WorkflowGraph} (read : getWorkflowGraph env w s = .ok h) :
    ∃ wf k, s.workflows w = some wf ∧ ReadsBack wf.graph k ∧ k.nodes.Perm h.nodes ∧ k.edges.Perm h.edges := by
  unfold getWorkflowGraph at read
  split at read
  next => contradiction
  next wf stored =>
    split at read
    next => contradiction
    next =>
      split at read
      next => contradiction
      next some_ =>
        cases read
        obtain ⟨k,returns⟩ := returns_exists some_
        exact ⟨wf,k,stored,returns,returns.perm.1,returns.perm.2⟩

/-- The stored graphs. -/
def Store.graph (s : Store) (w : WorkflowID) : Option Graph := (s.workflows w).map (·.graph)

theorem graph_core (same : (t.workflows w).map Workflow.core = (s.workflows w).map Workflow.core) :
    t.graph w = s.graph w := by
  have graphs : ∀ u : Store, u.graph w = ((u.workflows w).map Workflow.core).map (·.graph) := by
    intro u
    rw [Option.map_map]
    rfl
  rw [graphs t,graphs s,same]

theorem planUpdate_graph (env : Env) (r : UpdateRequest) (s : Store) (w : WorkflowID) :
    (planUpdate env r s).1.graph w = s.graph w :=
  graph_core ((planUpdate_quiet env r s).core w)

theorem amend_graph {change : Workflow → Workflow} (kept : ∀ wf, (change wf).graph = wf.graph)
    (s : Store) (w x : WorkflowID) : (s.amend w change).graph x = s.graph x := by
  unfold Store.graph
  by_cases same : x = w
  · subst same
    rw [Store.amend_self,Option.map_map]
    congr 1
    funext wf
    exact kept wf
  · rw [Store.amend_other s _ same]

theorem archiveTriggers_graph (env : Env) (w : WorkflowID) (nodes : List WorkflowNode) (s : Store)
    (x : WorkflowID) : (archiveTriggers env w nodes s).graph x = s.graph x := by
  induction nodes generalizing s with
  | nil => rfl
  | cons n rest ih =>
    unfold archiveTriggers
    split
    next => exact (ih _).trans (amend_graph (by intro _; rfl) s w x)
    next => exact ih s

theorem archiveWorkflow_graph (env : Env) (w : WorkflowID) (s : Store) (x : WorkflowID) :
    (archiveWorkflow env w s).1.graph x = s.graph x := by
  have archived : (s.archive w env.now).graph x = s.graph x := by
    unfold Store.archive
    exact amend_graph (by intro _; rfl) s w x
  unfold archiveWorkflow
  split
  next => rfl
  next =>
    split
    next => rfl
    next =>
      split
      next => rfl
      next =>
        dsimp only
        split
        next => exact archived
        next => exact (archiveTriggers_graph env w _ _ x).trans archived

theorem executeTriggers_graph (env : Env) (userID : UserID) (nodes : List WorkflowNode) (s : Store)
    (w x : WorkflowID) : (executeTriggers env userID w nodes s).1.graph x = s.graph x := by
  induction nodes generalizing s with
  | nil => rfl
  | cons n rest ih =>
    unfold executeTriggers
    split
    next =>
      split
      next => rfl
      next t executed =>
        obtain ⟨wf,handler,change,_,stored,insert,put,_⟩ := registry_execute_ok executed
        rw [ih,Store.graph,Store.graph,put]
        by_cases same : x = w
        · rw [same,Store.put_self,stored,Option.map_some,Option.map_some,
            core_graph (insert.core wf)]
        · rw [Store.put_other s _ same]
    next => exact ih s

/-- CreateWorkflow, whether or not it succeeds, only adds a graph with nodes. -/
theorem createWorkflow_graph (env : Env) (userID : UserID) (name description status : String)
    (nodes : List WorkflowNodeDTO) (edges : List WorkflowEdgeDTO) (s : Store) (x : WorkflowID) :
    (createWorkflow env userID name description status nodes edges s).1.graph x = s.graph x ∨
    ∃ g, (createWorkflow env userID name description status nodes edges s).1.graph x = some g ∧
      g.nodes ≠ [] := by
  rcases createWorkflow_store env userID name description status nodes edges s with same | ⟨t,wg,_,rows,same⟩
  · exact .inl (by rw [same])
  · obtain ⟨_,frame,_⟩ := insertWorkflow_ok rows
    obtain ⟨some_,wf,_,stored,inserted⟩ := insertWorkflow_inserted rows
    rw [same,executeTriggers_graph]
    by_cases new : x = s.nextWorkflow
    · refine .inr ⟨wf.graph,by rw [new,Store.graph,stored]; rfl,fun none_ => ?_⟩
      have length := inserted.copies.length_eq
      rw [none_] at length
      exact some_ (List.length_eq_zero_iff.mp length)
    · exact .inl (congrArg (Option.map _) (frame x new))

end Readable

section Write

variable {env : Env} {r : UpdateRequest} {plan : Plan} {delta : WorkflowDelta} {s t u : Store} {g h : Graph}
  {x y : Writing} {nodes : List WorkflowNodeDTO} {text : String} {ran : NodeID → Bool} {w : WorkflowID}

theorem createNodes_length (created : nodes.foldlM (Writing.createNode text) x = .ok y) :
    y.graph.nodes.length = x.graph.nodes.length + nodes.length := by
  refine Fold.foldlM_ok (fun done y => y.graph.nodes.length = x.graph.nodes.length + done.length) rfl ?_ created
  intro done d y z before step
  obtain ⟨_,nodes,_⟩ := createNode_ok step
  simp only [nodes,List.length_append,List.length_singleton,before]
  omega

theorem deleteEdge_nodes {edge : ID × ID} (deleted : deleteEdge g edge = .ok h) : h.nodes = g.nodes := by
  unfold deleteEdge at deleted
  split at deleted
  next => contradiction
  next => contradiction
  next => cases deleted; rfl

/-- A write that creates a node, or finds one that it does not delete, leaves a node. -/
theorem applyDelta_nonempty {existing : List WorkflowNodeDTO} {nextNode : NodeID}
    (applied : applyDelta ran delta existing nextNode g = .ok x)
    (left : delta.nodesToCreate ≠ [] ∨ ∃ n ∈ g.ids, n ∉ delta.nodeIDsToDelete) : x.graph.nodes ≠ [] := by
  unfold applyDelta at applied
  obtain ⟨deleted,delete,applied⟩ := Fold.bind_ok.mp applied
  obtain ⟨created,create,applied⟩ := Fold.bind_ok.mp applied
  obtain ⟨updated,update,applied⟩ := Fold.bind_ok.mp applied
  obtain ⟨placed,place_,applied⟩ := Fold.bind_ok.mp applied
  obtain ⟨cut,cutting,add⟩ := Fold.bind_ok.mp applied
  have some_ : 0 < created.graph.nodes.length := by
    rw [createNodes_length create]
    rcases left with new | ⟨n,stored,kept⟩
    · have := List.length_pos_iff.mpr new
      omega
    · obtain ⟨row,member,rfl⟩ := List.mem_map.mp stored
      have remains : row ∈ deleted.nodes := by
        rw [(deleteNodes_ok delete).1]
        exact List.mem_filter.mpr ⟨member,decide_eq_true kept⟩
      have := List.length_pos_of_mem remains
      dsimp only
      omega
  have cutNodes := Fold.foldlM_rel (fun g h : Graph => h.nodes = g.nodes) (fun _ => rfl)
    (fun _ _ _ first second => second.trans first) (fun _ _ _ step => deleteEdge_nodes step) cutting
  rw [(createEdges_ok add).1,cutNodes,(updateNodesUI_ok place_).1,(updateNodes_ok update).1]
  intro none_
  simp only [List.map_eq_nil_iff] at none_
  rw [none_] at some_
  contradiction

/-- A write changes at most the graph of its workflow, by its delta. -/
theorem writeUpdate_graph (env : Env) (r : UpdateRequest) (plan : Plan) (u : Store) (w : WorkflowID) :
    (writeUpdate env r plan u).1.graph w = u.graph w ∨
    w = r.workflowID ∧ ∃ wf x, u.workflows w = some wf ∧
      applyDelta env.ran plan.delta plan.existing.nodes u.nextNode wf.graph = .ok x ∧
      (writeUpdate env r plan u).1.graph w = some x.graph := by
  by_cases same : w = r.workflowID
  · subst same
    rcases writeUpdate_cases env r plan u with ⟨err,failed⟩ | ⟨v,result,patches,written⟩
    · rw [failed]
      exact .inl rfl
    · rw [written]
      cases current : u.workflows r.workflowID with
      | none => exact .inl (by rw [Store.graph,Store.graph,patches.none current,current])
      | some wf =>
        obtain ⟨x,wf',applied,after,graph,_⟩ := patches.rows current
        exact .inr ⟨rfl,wf,x,rfl,applied,by rw [Store.graph,after,Option.map_some,graph]⟩
  · exact .inl (congrArg (Option.map _) (writeUpdate_other env r plan u same))

/-- What is left of the read of a save in its plan. -/
structure Drawn (r : UpdateRequest) (plan : Plan) : Prop where
  create : plan.delta.nodesToCreate = r.nodes.filter fun d => ID.isUUID d.id
  delete : ∀ n ∈ plan.delta.nodeIDsToDelete, ID.row n ∉ r.nodes.map (·.id)

theorem planUpdate_drawn (planned : planUpdate env r s = (t,.ok plan)) : Drawn r plan := by
  obtain ⟨_,wf,_,stored,_⟩ := planUpdate_ok planned
  have diffed := plan_diffed planned stored
  refine ⟨diffed.create,fun n member => ?_⟩
  rw [diffed.delete] at member
  exact of_decide_eq_true (List.mem_filter.mp member).2

theorem Drawn.leaves (drawn : Drawn r plan) (lists : ListsNode r g) :
    plan.delta.nodesToCreate ≠ [] ∨ ∃ n ∈ g.ids, n ∉ plan.delta.nodeIDsToDelete := by
  obtain ⟨d,member,uuid | known⟩ := lists
  · left
    rw [drawn.create]
    exact List.ne_nil_of_mem (List.mem_filter.mpr ⟨member,uuid⟩)
  · right
    obtain ⟨row,found⟩ := Option.isSome_iff_exists.mp known
    obtain ⟨stored,own⟩ := rowOf_some found
    refine ⟨row.id,List.mem_map_of_mem stored,fun deleted => drawn.delete _ deleted ?_⟩
    exact own ▸ List.mem_map_of_mem member

end Write

section Runs

variable {s t : Canvas} {label : CanvasLabel} {integrations : UserID → Bool}

/-- Every stored graph has a node, every returned workflow is stored. -/
structure Furnished (s : Canvas) : Prop where
  nodes : ∀ w g, s.store.graph w = some g → g.nodes ≠ []
  stored : ∀ w ∈ s.returned, (s.store.graph w).isSome
  drawn : ∀ save ∈ s.saves, Drawn save.1 save.2

theorem Furnished.of_graph {u : Store} (furnished : Furnished s) (same : ∀ w, u.graph w = s.store.graph w) :
    Furnished { s with store := u } :=
  ⟨fun w g here => furnished.nodes w g (same w ▸ here),
    fun w member => by rw [same w]; exact furnished.stored w member,furnished.drawn⟩

/-- One step keeps the nodes if its save leaves one. -/
theorem Furnished.step (furnished : Furnished s) (leaves : LeavesNode s label)
    (step : canvasStep label s = some t) : Furnished t := by
  cases label with
  | create env userID name description status nodes edges =>
    have graphs := createWorkflow_graph env userID name description status nodes edges s.store
    have kept : Furnished { s with
        store := (createWorkflow env userID name description status nodes edges s.store).1 } := by
      refine ⟨fun w g here => ?_,fun w member => ?_,furnished.drawn⟩
      · rcases graphs w with same | ⟨h,new,some_⟩
        · exact furnished.nodes w g (same ▸ here)
        · exact Option.some.inj (new.symm.trans here) ▸ some_
      · rcases graphs w with same | ⟨h,new,_⟩
        · rw [same]
          exact furnished.stored w member
        · rw [new]
          rfl
    simp only [canvasStep] at step
    split at step
    next u w created =>
      rw [created] at kept
      cases step
      refine ⟨kept.nodes,fun x member => ?_,kept.drawn⟩
      rcases List.mem_append.mp member with old | new
      · exact kept.stored x old
      · obtain ⟨_,_,wf,_,stored,_⟩ := createWorkflow_inserted created
        rw [List.mem_singleton.mp new,Store.graph,stored]
        rfl
    next u err created =>
      rw [created] at kept
      cases step
      exact kept
  | read env r =>
    have graphs := planUpdate_graph env r s.store
    simp only [canvasStep] at step
    split at step
    next u plan planned =>
      rw [planned] at graphs
      cases step
      have kept := furnished.of_graph graphs
      refine ⟨kept.nodes,kept.stored,fun save member => ?_⟩
      rcases List.mem_append.mp member with old | new
      · exact furnished.drawn save old
      · rw [List.mem_singleton.mp new]
        exact planUpdate_drawn planned
    next u err planned =>
      rw [planned] at graphs
      cases step
      exact furnished.of_graph graphs
  | write env i =>
    simp only [canvasStep] at step
    split at step
    next r plan at_ =>
      cases step
      have drawn := furnished.drawn _ (List.mem_of_getElem? at_)
      have graphs := writeUpdate_graph env r plan s.store
      refine ⟨fun w g here => ?_,fun w member => ?_,fun save member => ?_⟩
      · rcases graphs w with same | ⟨rfl,wf,x,current,applied,after⟩
        · exact furnished.nodes w g (same ▸ here)
        · obtain rfl := Option.some.inj (after.symm.trans here)
          exact applyDelta_nonempty applied (drawn.leaves (leaves _ at_ wf current))
      · rcases graphs w with same | ⟨_,_,_,_,_,after⟩
        · rw [same]
          exact furnished.stored w member
        · rw [after]
          rfl
      · exact furnished.drawn save (List.mem_of_mem_eraseIdx member)
    next => contradiction
  | archive env w =>
    cases step
    exact furnished.of_graph (archiveWorkflow_graph env w s.store)

/-- In a run whose saves leave nodes, every workflow that was returned can be read. -/
theorem furnished_readable (reach : Reach (canvas integrations) LeavesNode s) : AllReadable s := by
  have furnished : Furnished s := by
    refine reach.invariant Furnished ?_ ?_
    · constructor <;> simp [canvas,Store.fresh,Store.graph]
    · intro s label t _ furnished leaves step
      exact furnished.step leaves step
  intro w member
  obtain ⟨g,stored⟩ := Option.isSome_iff_exists.mp (furnished.stored w member)
  obtain ⟨wf,found,rfl⟩ := Option.map_eq_some_iff.mp stored
  exact readable_iff.mpr ⟨wf,found,furnished.nodes w _ stored⟩

instance (s : Canvas) : (label : CanvasLabel) → Decidable (LeavesNode s label)
  | .create .. | .read .. | .archive .. => isTrue trivial
  | .write _ i =>
    match at_ : s.saves[i]? with
    | none => isTrue fun save here => by rw [at_] at here; contradiction
    | some save =>
      match stored : s.store.workflows save.1.workflowID with
      | none => isTrue fun save' here wf found => by
          rw [at_] at here
          cases here
          rw [stored] at found
          contradiction
      | some wf => decidable_of_iff (ListsNode save.1 wf.graph)
          ⟨fun lists save' here wf' found => by
            rw [at_] at here
            cases here
            rw [stored] at found
            cases found
            exact lists,fun leaves => leaves save at_ wf stored⟩

/-- Alice stores two mails. -/
def mailing : CanvasLabel := .create .calm "alice" "mails" "some mails" "active" twoMails between

/-- The save that keeps the second mail only. -/
def shorten : UpdateRequest := ⟨"alice",1,"mails","one mail",[mail (.row 2)],[]⟩

/-- The save that keeps nothing. -/
def cleared : UpdateRequest := ⟨"alice",1,"mails","no mail",[],[]⟩

theorem shorten_readable : ∃ s, Reach (canvas fun _ => false) LeavesNode s ∧ s.returned = [1] ∧
    AllReadable s := by
  have run : ∃ s, Reach (canvas fun _ => false) LeavesNode s ∧ s.returned = [1] :=
    follow_exists [mailing,.read .calm shorten,.write .calm 0,.archive .calm 1] (by decide +kernel)
  obtain ⟨s,reach,returned⟩ := run
  exact ⟨s,reach,returned,furnished_readable reach⟩

/-- A request without nodes deletes them all, and nobody can read the workflow again. -/
theorem cleared_unreadable : ∃ s, Reach (canvas fun _ => false) (fun _ _ => True) s ∧ ¬AllReadable s := by
  have run : ∃ s, Reach (canvas fun _ => false) (fun _ _ => True) s ∧
      (1 ∈ s.returned ∧ (s.store.graph 1).map (·.nodes) = some []) :=
    follow_exists [mailing,.read .calm cleared,.write .calm 0] (by decide +kernel)
  obtain ⟨s,reach,returned,bare⟩ := run
  refine ⟨s,reach,fun all => ?_⟩
  obtain ⟨wf,stored,some_⟩ := readable_iff.mp (all 1 returned)
  rw [Store.graph,stored] at bare
  exact some_ (Option.some.inj bare)

end Runs

end TinyAutomator.Workflows
