import TinyAutomator.Workflows.Effects
import TinyAutomator.Run.Infra
import TinyAutomator.Lib.Transition
import TinyAutomator.Lib.Pool

/-! Concurrent saves of one workflow. A save reads the graph in one step and writes its
delta in another; between the two anybody may write. -/
namespace TinyAutomator.Workflows

open Transition

inductive Phase where
  | pending
  | planned (plan : Plan)
  | saved
  | failed
  deriving DecidableEq

structure Save where
  request : UpdateRequest
  phase : Phase
  deriving DecidableEq

structure Saves where
  store : Store
  saves : List Save

inductive SaveLabel where
  | read (save : Nat) (env : Env)
  | write (save : Nat) (env : Env)

/-- UpdateWorkflow up to its transaction; without changes it returns here. -/
def readSave (env : Env) (r : UpdateRequest) (s : Store) : Store × Phase :=
  match planUpdate env r s with
  | (t,.error _) => (t,.failed)
  | (t,.ok plan) => (t,if plan.delta.unchanged then .saved else .planned plan)

def writeSave (env : Env) (r : UpdateRequest) (plan : Plan) (s : Store) : Store × Phase :=
  match writeUpdate env r plan s with
  | (t,.error _) => (t,.failed)
  | (t,.ok ()) => (t,.saved)

def Saves.put (s : Saves) (i : Nat) (r : UpdateRequest) (result : Store × Phase) : Saves :=
  ⟨result.1,s.saves.set i ⟨r,result.2⟩⟩

def saveStep : SaveLabel → Saves → Option Saves
  | .read i env, s =>
    match s.saves[i]? with
    | some ⟨r,.pending⟩ => some (s.put i r (readSave env r s.store))
    | _ => none
  | .write i env, s =>
    match s.saves[i]? with
    | some ⟨r,.planned plan⟩ => some (s.put i r (writeSave env r plan s.store))
    | _ => none

/-- Some requests for one stored workflow. -/
structure Session where
  workflowID : WorkflowID
  store : Store
  requests : List UpdateRequest
  stored : (store.workflows workflowID).isSome
  addressed : ∀ r ∈ requests, r.workflowID = workflowID

def Session.system (x : Session) : System Saves SaveLabel where
  init := ⟨x.store,x.requests.map (⟨·,.pending⟩)⟩
  step := saveStep

/-- The graph as GetWorkflowGraph returns it. -/
def Graph.workflowGraph (g : Graph) : WorkflowGraph := ⟨g.nodes.map (·.toWorkflowNode),g.edges⟩

/-- Whatever the visit order, the stored graph passes ValidateWorkflowGraph. -/
def Graph.Valid (g : Graph) : Prop := ∀ visits,
  validateWorkflowGraph visits (Run.validateNodes g.workflowGraph) (Run.validateEdges g.workflowGraph) = .ok ()

/-- The stored graph is the graph of one of the requests once all have returned nil. -/
def Serial (w : WorkflowID) (s : Saves) : Prop :=
  s.saves ≠ [] → (∀ save ∈ s.saves, save.phase = .saved) →
    ∃ save ∈ s.saves, ∃ wf rename row, s.store.workflows w = some wf ∧
      Stores save.request wf.graph rename row ∧ wf.graph.Valid

/-- The graph that a plan was made for is still the stored one. -/
def Plan.Current (plan : Plan) (w : WorkflowID) (s : Store) : Prop :=
  (s.workflows w).map (fun wf => (wf.graph.nodes.map NodeRow.dto,wf.graph.edges.map edgeDTO)) =
    some (plan.existing.nodes,plan.existing.edges)

/-- Nobody has changed the graph since a save read it, and no request lists a node twice. -/
def Undisturbed (s : Saves) : SaveLabel → Prop
  | .read i _ => (s.saves[i]?.all fun save => decide (save.request.nodes.map (·.id)).Nodup) = true
  | .write i _ =>
    match s.saves[i]? with
    | some ⟨r,.planned plan⟩ => plan.Current r.workflowID s.store
    | _ => True

section Valid

variable {r : UpdateRequest} {g : Graph} {rename : ID → NodeID} {row : WorkflowNodeDTO → NodeRow}
  {env : Env}

theorem Stores.injective (stores : Stores r g rename row) : (r.nodes.map (rename ·.id)).Nodup := by
  have key := (stores.nodes.map (·.id)).nodup_iff.mp g.nodeKey
  rw [List.map_map] at key
  have same : r.nodes.map ((fun row : NodeRow => row.id) ∘ row) = r.nodes.map (rename ·.id) :=
    List.map_congr_left stores.id
  exact same ▸ key

/-- The requested id behind a row id. -/
def original (r : UpdateRequest) (rename : ID → NodeID) (n : NodeID) : ID :=
  ((r.nodes.find? fun d => rename d.id = n).map (·.id)).getD ID.empty

/-- A row is as deep as the requested node it stands for. -/
def rowDepth (r : UpdateRequest) (rename : ID → NodeID) (depth : ID → Nat) : ID → Nat
  | .row n => depth (original r rename n)
  | .uuid _ | .other _ => 0

theorem Stores.original (stores : Stores r g rename row) {id : ID} (listed : id ∈ r.nodes.map (·.id)) :
    Workflows.original r rename (rename id) = id := by
  obtain ⟨d,member,rfl⟩ := List.mem_map.mp listed
  have present : (r.nodes.find? fun e => rename e.id = rename d.id).isSome := by
    rw [List.find?_isSome]
    exact ⟨d,member,by simp⟩
  obtain ⟨e,found⟩ := Option.isSome_iff_exists.mp present
  have same : rename e.id = rename d.id := of_decide_eq_true (List.find?_some found : _)
  have is : e = d := List.inj_on_of_nodup_map stores.injective (List.mem_of_find?_eq_some found) member same
  rw [Workflows.original,found,is]
  rfl

theorem Stores.valid (stores : Stores r g rename row) (distinct : (r.nodes.map (·.id)).Nodup)
    (valid : validateRequest env r.nodes r.edges = .ok ()) : g.Valid := by
  intro visits
  have ids := prepForValidate_ids r.nodes r.edges
  obtain ⟨_,_,depth,layered⟩ := accepted_layered (ids ▸ distinct) (validateRequest_ok valid).1
  have declared := declared_edges distinct valid
  rw [ids] at layered
  have rows : (Run.validateNodes g.workflowGraph).map (·.id) = g.ids.map ID.row := by
    simp [Run.validateNodes,Graph.workflowGraph,Graph.ids,Function.comp_def]
  have listed : ∀ n ∈ g.ids, ∃ d ∈ r.nodes, rename d.id = n := by
    intro n member
    obtain ⟨node,present,rfl⟩ := List.mem_map.mp member
    obtain ⟨d,requested,rfl⟩ := List.mem_map.mp (stores.nodes.mem_iff.mp present)
    exact ⟨d,requested,(stores.id d requested).symm⟩
  have joined : ∀ e ∈ Run.validateEdges g.workflowGraph, ∃ d ∈ r.edges,
      e = ⟨.row (rename d.sourceNodeID),.row (rename d.targetNodeID)⟩ := by
    intro e member
    obtain ⟨edge,present,rfl⟩ := List.mem_map.mp member
    obtain ⟨d,requested,rfl⟩ := (stores.edges edge).mp present
    exact ⟨d,requested,rfl⟩
  have deep : ∀ id ∈ r.nodes.map (·.id), rowDepth r rename depth (.row (rename id)) = depth id := by
    intro id member
    exact congrArg depth (stores.original member)
  have placed : Layered ((Run.validateNodes g.workflowGraph).map (·.id)) (Run.validateEdges g.workflowGraph)
      (rowDepth r rename depth) := by
    constructor
    · intro e member
      obtain ⟨d,requested,rfl⟩ := joined e member
      obtain ⟨src,dst⟩ := declared d requested
      have below := layered.edge ⟨d.sourceNodeID,d.targetNodeID⟩ (List.mem_map_of_mem requested)
      exact (deep _ dst).trans (below.trans (congrArg (· + 1) (deep _ src).symm))
    · intro id member free
      rw [rows] at member
      obtain ⟨n,present,rfl⟩ := List.mem_map.mp member
      obtain ⟨d,requested,rfl⟩ := listed n present
      rw [deep _ (List.mem_map_of_mem requested)]
      refine layered.root _ (List.mem_map_of_mem requested) fun e asked same => ?_
      obtain ⟨edge,wanted,rfl⟩ := List.mem_map.mp asked
      have stored := (stores.edges ⟨rename edge.sourceNodeID,rename edge.targetNodeID⟩).mpr ⟨edge,wanted,rfl⟩
      have target : edge.targetNodeID = d.id := same
      exact free ⟨.row (rename edge.sourceNodeID),.row (rename edge.targetNodeID)⟩
        (List.mem_map_of_mem stored) (by rw [target])
  refine layered_accepted ?_ ?_ ?_ placed
  · rw [rows]
    exact g.nodeKey.map fun _ _ => ID.row.inj
  · intro node member
    obtain ⟨_,_,rfl⟩ := List.mem_map.mp member
    exact ID.noConfusion
  · intro e member
    obtain ⟨edge,present,rfl⟩ := List.mem_map.mp member
    obtain ⟨src,dst⟩ := g.endpoints edge present
    rw [rows]
    exact ⟨List.mem_map_of_mem src,List.mem_map_of_mem dst⟩

end Valid

section Serial

/-- The stored graph is the requested one. -/
def Reflected (w : WorkflowID) (s : Store) (r : UpdateRequest) : Prop :=
  ∃ wf rename row, s.workflows w = some wf ∧ Stores r wf.graph rename row ∧ wf.graph.Valid

/-- A plan is what UpdateWorkflow made of some earlier graph of the workflow. -/
def Planned (w : WorkflowID) (r : UpdateRequest) (plan : Plan) : Prop :=
  (r.nodes.map (·.id)).Nodup ∧
    ∃ env s t wf, planUpdate env r s = (t,.ok plan) ∧ s.workflows w = some wf

/-- While no request has failed, the stored graph is, as soon as one has returned nil, that of
one that has. -/
structure Settling (w : WorkflowID) (s : Saves) : Prop where
  stored : (s.store.workflows w).isSome
  addressed : ∀ save ∈ s.saves, save.request.workflowID = w
  planned : ∀ save ∈ s.saves, ∀ plan, save.phase = .planned plan → Planned w save.request plan
  latest : (∀ save ∈ s.saves, save.phase ≠ .failed) → (∃ save ∈ s.saves, save.phase = .saved) →
    ∃ save ∈ s.saves, save.phase = .saved ∧ Reflected w s.store save.request

variable {w : WorkflowID} {env : Env} {r : UpdateRequest} {plan : Plan} {s t : Store} {i : Nat}
  {phase : Phase} {x y : Saves} {label : SaveLabel}

theorem Reflected.quiet (reflected : Reflected w s r) (quiet : Quiet w s t) : Reflected w t r := by
  obtain ⟨wf,rename,row,stored,stores,valid⟩ := reflected
  obtain ⟨wf',after,same,_⟩ := quiet.graph stored
  exact ⟨wf',rename,row,after,same ▸ stores,same ▸ valid⟩

theorem dto_injective : Function.Injective NodeRow.dto := by
  rintro ⟨⟨id,category,nodeType,config⟩,position⟩ ⟨⟨id',category',nodeType',config'⟩,position'⟩ same
  simp only [NodeRow.dto,WorkflowNodeDTO.mk.injEq,ID.row.injEq,Option.some.injEq] at same
  obtain ⟨rfl,rfl,rfl,rfl,rfl⟩ := same
  rfl

theorem edgeDTO_injective : Function.Injective edgeDTO := by
  rintro ⟨src,dst⟩ ⟨src',dst'⟩ same
  simp only [edgeDTO,WorkflowEdgeDTO.mk.injEq,ID.row.injEq] at same
  obtain ⟨_,rfl,rfl⟩ := same
  rfl

/-- A write to the graph that was read leaves the requested graph. -/
theorem write_reflects (planned : Planned r.workflowID r plan) (current : plan.Current r.workflowID s)
    (patches : Patches env r plan s t) : Reflected r.workflowID t r := by
  obtain ⟨distinct,env₀,s₀,t₀,wf,read,before⟩ := planned
  obtain ⟨valid,wf₀,_,before₀,existing,_⟩ := planUpdate_ok read
  obtain rfl := Option.some.inj (before.symm.trans before₀)
  obtain ⟨wf',now,rendered⟩ := Option.map_eq_some_iff.mp current
  obtain ⟨nodes,edges⟩ := Prod.mk.inj rendered
  rw [existing] at nodes edges
  have same : wf'.graph = wf.graph :=
    Graph.ext_rows (dto_injective.list_map nodes) (edgeDTO_injective.list_map edges)
  obtain ⟨wf'',rename,row,after,stores⟩ := saved read before now same distinct patches
  exact ⟨wf'',rename,row,after,stores,stores.valid distinct valid⟩

/-- The outcome of a read: it failed, it had nothing to write, or it has a plan. -/
theorem readSave_cases (distinct : (r.nodes.map (·.id)).Nodup)
    (stored : (s.workflows r.workflowID).isSome) (read : readSave env r s = (t,phase)) :
    Quiet r.workflowID s t ∧ (phase = .failed ∨ phase = .saved ∧ Reflected r.workflowID t r ∨
      ∃ plan, phase = .planned plan ∧ Planned r.workflowID r plan) := by
  have quiet := planUpdate_quiet env r s
  obtain ⟨wf,before⟩ := Option.isSome_iff_exists.mp stored
  unfold readSave at read
  split at read
  next u err step =>
    cases read
    rw [step] at quiet
    exact ⟨quiet,.inl rfl⟩
  next u plan step =>
    cases read
    rw [step] at quiet
    refine ⟨quiet,.inr ?_⟩
    split
    next unchanged =>
      obtain ⟨valid,_⟩ := planUpdate_ok step
      obtain ⟨wf',after,same,_⟩ := quiet.graph before
      have patches : Patches env r plan t t := (if_pos unchanged).mpr rfl
      obtain ⟨wf'',rename,row,now,stores⟩ := saved step before after same distinct patches
      exact .inl ⟨rfl,wf'',rename,row,now,stores,stores.valid distinct valid⟩
    next => exact .inr ⟨plan,rfl,distinct,env,s,t,wf,step,before⟩

/-- A write that fails may all the same have been committed. -/
theorem writeSave_cases (planned : Planned r.workflowID r plan) (current : plan.Current r.workflowID s)
    (write : writeSave env r plan s = (t,phase)) :
    (t.workflows r.workflowID).isSome ∧ (phase = .failed ∨ phase = .saved ∧ Reflected r.workflowID t r) := by
  have stored : (t.workflows r.workflowID).isSome := by
    obtain ⟨wf,before,_⟩ := Option.map_eq_some_iff.mp current
    have kept : t = s ∨ Patches env r plan s t := by
      unfold writeSave at write
      split at write
      next u err step => cases write; exact writeUpdate_error step
      next u step => cases write; exact .inr (writeUpdate_patches step)
    rcases kept with rfl | patches
    · simp [before]
    · obtain ⟨x,wf',_,after,_⟩ := patches.rows before
      simp [after]
  refine ⟨stored,?_⟩
  unfold writeSave at write
  split at write
  next u err step => cases write; exact .inl rfl
  next u step => cases write; exact .inr ⟨rfl,write_reflects planned current (writeUpdate_patches step)⟩

theorem saveStep_cases (step : saveStep label x = some y) :
    (∃ i env r, label = .read i env ∧ x.saves[i]? = some ⟨r,.pending⟩ ∧
      y = x.put i r (readSave env r x.store)) ∨
    ∃ i env r plan, label = .write i env ∧ x.saves[i]? = some ⟨r,.planned plan⟩ ∧
      y = x.put i r (writeSave env r plan x.store) := by
  cases label with
  | read i env =>
    simp only [saveStep] at step
    split at step
    next r at_ => cases step; exact .inl ⟨i,env,r,rfl,at_,rfl⟩
    next => contradiction
  | write i env =>
    simp only [saveStep] at step
    split at step
    next r plan at_ => cases step; exact .inr ⟨i,env,r,plan,rfl,at_,rfl⟩
    next => contradiction

/-- What one request's move means for all of them. -/
theorem Settling.put (settling : Settling w x) {before : Phase} (at_ : x.saves[i]? = some ⟨r,before⟩)
    (unsaved : before ≠ .saved) (untried : before ≠ .failed) (stored : (t.workflows w).isSome)
    (moved : phase = .failed ∨ phase = .saved ∧ Reflected w t r ∨
      (∃ plan, phase = .planned plan ∧ Planned w r plan) ∧ Quiet w x.store t) :
    Settling w (x.put i r (t,phase)) := by
  have addressed := settling.addressed _ (List.mem_of_getElem? at_)
  refine ⟨stored,?_,?_,?_⟩
  · exact Pool.forall_set settling.addressed addressed
  · refine Pool.forall_set settling.planned fun plan is => ?_
    rcases moved with rfl | ⟨rfl,_⟩ | ⟨⟨plan',rfl,planned⟩,_⟩
    · contradiction
    · contradiction
    · cases is
      exact planned
  · intro none_ some_
    rcases moved with rfl | ⟨rfl,reflected⟩ | ⟨⟨plan,rfl,_⟩,quiet⟩
    · exact absurd rfl (none_ _ (Pool.mem_set_self at_))
    · exact ⟨⟨r,.saved⟩,Pool.mem_set_self at_,rfl,reflected⟩
    · obtain ⟨save,member,done⟩ := some_
      have old : ∃ save ∈ x.saves, save.phase = .saved := by
        rcases Pool.mem_set_cases member with rfl | ⟨j,_,get⟩
        · contradiction
        · exact ⟨save,List.mem_of_getElem? get,done⟩
      have unfailed : ∀ save ∈ x.saves, save.phase ≠ .failed := by
        intro save member failed
        have other : save ≠ ⟨r,before⟩ := by
          rintro rfl
          exact untried failed
        exact none_ save (Pool.mem_set_of_ne at_ member other _) failed
      obtain ⟨first,member,done,reflected⟩ := settling.latest unfailed old
      have other : first ≠ ⟨r,before⟩ := by
        rintro rfl
        exact unsaved done
      exact ⟨first,Pool.mem_set_of_ne at_ member other _,done,reflected.quiet quiet⟩

theorem Settling.step (settling : Settling w x) (allowed : Undisturbed x label)
    (step : saveStep label x = some y) : Settling w y := by
  rcases saveStep_cases step with ⟨i,env,r,rfl,at_,rfl⟩ | ⟨i,env,r,plan,rfl,at_,rfl⟩
  · obtain rfl : r.workflowID = w := settling.addressed _ (List.mem_of_getElem? at_)
    have distinct : (r.nodes.map (·.id)).Nodup := by
      have checked : (x.saves[i]?.all fun save => decide (save.request.nodes.map (·.id)).Nodup) = true := allowed
      rw [at_] at checked
      exact of_decide_eq_true checked
    cases result : readSave env r x.store with
    | mk t phase =>
      obtain ⟨quiet,outcome⟩ := readSave_cases distinct settling.stored result
      obtain ⟨wf,before⟩ := Option.isSome_iff_exists.mp settling.stored
      obtain ⟨wf',after,_⟩ := quiet.graph before
      refine settling.put at_ (by simp) (by simp) (by simp [after]) ?_
      rcases outcome with failed | ⟨done,reflected⟩ | planned
      · exact .inl failed
      · exact .inr (.inl ⟨done,reflected⟩)
      · exact .inr (.inr ⟨planned,quiet⟩)
  · obtain rfl : r.workflowID = w := settling.addressed _ (List.mem_of_getElem? at_)
    have planned : Planned r.workflowID r plan :=
      settling.planned _ (List.mem_of_getElem? at_) plan rfl
    have current : plan.Current r.workflowID x.store := by
      simpa only [Undisturbed,at_] using allowed
    cases result : writeSave env r plan x.store with
    | mk t phase =>
      obtain ⟨stored,outcome⟩ := writeSave_cases planned current result
      exact settling.put at_ (by simp) (by simp) stored (outcome.imp_right fun done => .inl done)

theorem reach_settling {session : Session} (reach : Reach session.system Undisturbed x) :
    Settling session.workflowID x := by
  refine reach.invariant (Settling session.workflowID) ?_ ?_
  · have waiting : ∀ save ∈ session.requests.map (Save.mk · .pending), save.phase = .pending := by
      intro save member
      obtain ⟨r,_,rfl⟩ := List.mem_map.mp member
      rfl
    refine ⟨session.stored,?_,?_,?_⟩
    · intro save member
      obtain ⟨r,requested,rfl⟩ := List.mem_map.mp member
      exact session.addressed r requested
    · intro save member plan is
      rw [waiting save member] at is
      contradiction
    · rintro _ ⟨save,member,is⟩
      rw [waiting save member] at is
      contradiction
  · intro x label y _ settling allowed step
    exact settling.step allowed step

/-- Any interleaving in which no graph changes between a read and its write ends in the
graph of one of the requests. -/
theorem saves_serial (session : Session) {x : Saves} (reach : Reach session.system Undisturbed x) :
    Serial session.workflowID x := by
  intro some_ all
  obtain ⟨first,member⟩ := List.exists_mem_of_ne_nil _ some_
  have unfailed : ∀ save ∈ x.saves, save.phase ≠ .failed := fun save member failed => by
    rw [all save member] at failed
    contradiction
  obtain ⟨save,member,_,reflected⟩ := (reach_settling reach).latest unfailed ⟨first,member,all first member⟩
  exact ⟨save,member,reflected⟩

end Serial

section Runs

instance (plan : Plan) (w : WorkflowID) (s : Store) : Decidable (plan.Current w s) :=
  inferInstanceAs (Decidable (_ = _))

instance (s : Saves) : (label : SaveLabel) → Decidable (Undisturbed s label)
  | .read _ _ => inferInstanceAs (Decidable (_ = true))
  | .write i _ =>
    match at_ : s.saves[i]? with
    | some ⟨r,.planned plan⟩ =>
      decidable_of_iff (plan.Current r.workflowID s.store) (by simp [Undisturbed,at_])
    | some ⟨_,.pending⟩ | some ⟨_,.saved⟩ | some ⟨_,.failed⟩ | none =>
      isTrue (by simp [Undisturbed,at_])

/-- A quiet surrounding: everything answers, nothing has run. -/
def Env.calm : Env where
  visits := .insertion
  now := 0
  parseRFC3339 := fun _ => none
  isFuture := fun _ => true
  stillFuture := fun _ => true
  syncToken := fun _ _ => .ok ""
  ran := fun _ => false
  answers := fun _ => true
  applied := false

/-- Two actions of workflow 1 without an edge. -/
def pair : Graph where
  nodes := [⟨⟨1,.action,"send_email",.blank⟩,⟨0,0⟩⟩,⟨⟨2,.action,"send_email",.blank⟩,⟨0,0⟩⟩]
  edges := []
  nodeKey := by decide
  edgeKey := by decide
  endpoints := by simp
  categories := by decide

def pairStore : Store where
  workflows := fun w => if w = 1 then some ⟨"alice","pair","two mails",.active,pair,[],[],0,0⟩ else none
  nextWorkflow := 2
  nextNode := 3
  nextSchedule := 1
  nextCalendar := 1
  integrations := fun _ => false

/-- The request that joins the two actions. -/
def join (src dst : NodeID) : UpdateRequest where
  userID := "alice"
  workflowID := 1
  name := "pair"
  description := "two mails"
  nodes := pair.nodes.map NodeRow.dto
  edges := [⟨"",.row src,.row dst⟩]

def crossing : Session where
  workflowID := 1
  store := pairStore
  requests := [join 1 2,join 2 1]
  stored := by decide
  addressed := by decide

theorem crossing_serial : ∃ x, Reach crossing.system Undisturbed x ∧
    (∀ save ∈ x.saves, save.phase = .saved) ∧ Serial 1 x := by
  have run : ∃ x, Reach crossing.system Undisturbed x ∧ ∀ save ∈ x.saves, save.phase = .saved :=
    follow_exists [.read 0 .calm,.write 0 .calm,.read 1 .calm,.write 1 .calm] (by decide +kernel)
  obtain ⟨x,reach,all⟩ := run
  exact ⟨x,reach,all,saves_serial crossing reach⟩

/-- Both requests read before either writes, and the stored graph becomes a cycle. -/
theorem crossing_cycle : ¬∀ x, Reach crossing.system (fun _ _ => True) x → Serial 1 x := by
  intro serial
  have run : ∃ x, Reach crossing.system (fun _ _ => True) x ∧ (x.saves ≠ [] ∧
      (∀ save ∈ x.saves, save.phase = .saved) ∧ (x.store.workflows 1).all fun wf =>
        decide (validateWorkflowGraph .insertion (Run.validateNodes wf.graph.workflowGraph)
          (Run.validateEdges wf.graph.workflowGraph) = .error "validation error: cycle detected")) :=
    follow_exists [.read 0 .calm,.read 1 .calm,.write 0 .calm,.write 1 .calm] (by decide +kernel)
  obtain ⟨x,reach,some_,all,cycle⟩ := run
  obtain ⟨save,member,wf,rename,row,stored,stores,valid⟩ := serial x reach some_ all
  rw [stored] at cycle
  have found := of_decide_eq_true cycle
  rw [valid .insertion] at found
  contradiction

end Runs

end TinyAutomator.Workflows
