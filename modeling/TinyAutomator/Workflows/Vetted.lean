import TinyAutomator.Workflows.Progress
import TinyAutomator.Workflows.Readers

/-! What a validation leaves behind for good. A stored node keeps its kind and a config that
its handler can read; only a date that has passed can make it invalid again. -/
namespace TinyAutomator.Workflows

open Transition

/-- What validateNode checks whatever the time is. -/
structure Vetted (category : Category) (nodeType : String) (config : Config) : Prop where
  typed : nodeType ≠ ""
  handled : category = .trigger → ∃ handler, handlers nodeType = some handler ∧
    (handler = .calendarEvent → ∃ c, buildCalendarConfig config = .ok c ∧ validateCalendarConfig c = .ok ())

/-- The date of a schedule trigger can be parsed and has not passed. -/
def Upcoming (env : Env) (category : Category) (nodeType : String) (config : Config) : Prop :=
  category = .trigger → handlers nodeType = some .schedule →
    ∃ c, buildScheduleConfig env.parseRFC3339 config = .ok c ∧ env.isFuture c.scheduledDate = true

/-- What a node of a request brings. -/
def WorkflowNodeDTO.Vetted (d : WorkflowNodeDTO) : Prop :=
  Workflows.Vetted d.category d.nodeType (d.config.getD .blank)

def NodeRow.Vetted (row : NodeRow) : Prop := Workflows.Vetted row.category row.nodeType row.config

section Validation

variable {env : Env} {d : WorkflowNodeDTO} {row : NodeRow} {c : Config} {userID : UserID} {w : WorkflowID}
  {category : Category} {nodeType : String}

theorem Vetted.stored (vetted : Vetted category nodeType c) : Vetted category nodeType c.stored := by
  refine ⟨vetted.typed,fun trigger => ?_⟩
  obtain ⟨handler,registered,calendar⟩ := vetted.handled trigger
  exact ⟨handler,registered,by rwa [buildCalendarConfig_stored]⟩

theorem Vetted.withIDs (vetted : Vetted category nodeType c) :
    Vetted category nodeType (Config.withIDs c userID w) :=
  ⟨vetted.typed,vetted.handled⟩

theorem registry_validate_iff : TriggerRegistry.validate env nodeType c = .ok () ↔
    ∃ handler, handlers nodeType = some handler ∧ handler.validate env env.isFuture c = .ok () := by
  unfold TriggerRegistry.validate
  cases handlers nodeType with
  | none => simp
  | some handler => simp [wrap_ok]

theorem schedule_validate_iff {isFuture : Int → Bool} :
    TriggerHandler.validate env isFuture c .schedule = .ok () ↔
    ∃ s, buildScheduleConfig env.parseRFC3339 c = .ok s ∧ isFuture s.scheduledDate = true := by
  unfold TriggerHandler.validate
  cases buildScheduleConfig env.parseRFC3339 c with
  | error err => simp [wrap]
  | ok s => cases future : isFuture s.scheduledDate <;> simp [wrap,validateSchedule,future]

theorem calendar_validate_iff {isFuture : Int → Bool} :
    TriggerHandler.validate env isFuture c .calendarEvent = .ok () ↔
    ∃ s, buildCalendarConfig c = .ok s ∧ validateCalendarConfig s = .ok () := by
  unfold TriggerHandler.validate
  cases buildCalendarConfig c with
  | error err => simp [wrap]
  | ok s => cases checked : validateCalendarConfig s <;> simp [wrap,checked]

/-- Validation is the vetting and, for a schedule, the look at the clock. -/
theorem registry_validate_split : (category = .trigger → TriggerRegistry.validate env nodeType c = .ok ()) ∧
    nodeType ≠ "" ↔ Vetted category nodeType c ∧ Upcoming env category nodeType c := by
  constructor
  · rintro ⟨valid,typed⟩
    refine ⟨⟨typed,fun trigger => ?_⟩,fun trigger schedule => ?_⟩
    · obtain ⟨handler,registered,passed⟩ := registry_validate_iff.mp (valid trigger)
      refine ⟨handler,registered,fun calendar => ?_⟩
      subst calendar
      exact calendar_validate_iff.mp passed
    · obtain ⟨handler,registered,passed⟩ := registry_validate_iff.mp (valid trigger)
      obtain rfl := Option.some.inj (schedule.symm.trans registered)
      exact schedule_validate_iff.mp passed
  · rintro ⟨vetted,upcoming⟩
    refine ⟨fun trigger => ?_,vetted.typed⟩
    obtain ⟨handler,registered,calendar⟩ := vetted.handled trigger
    apply registry_validate_iff.mpr
    refine ⟨handler,registered,?_⟩
    cases handler with
    | schedule => exact schedule_validate_iff.mpr (upcoming trigger registered)
    | calendarEvent => exact calendar_validate_iff.mpr (calendar rfl)

theorem validateNode_iff (allowed : Allowed d.category) (given : d.config = some c) :
    validateNode env d = .ok () ↔ Vetted d.category d.nodeType c ∧ Upcoming env d.category d.nodeType c := by
  have known : d.category ≠ .other "" := fun other => by rw [other] at allowed; exact allowed
  rw [← registry_validate_split,validateNode,if_neg known,given]
  by_cases typed : d.nodeType = ""
  · simp [typed]
  · by_cases trigger : d.category = .trigger
    · simp [typed,trigger,wrap_ok]
    · simp [typed,trigger]

theorem validateNode_vetted (valid : validateNode env d = .ok ()) : d.Vetted := by
  obtain ⟨c,given⟩ := validateNode_config valid
  have parts : (d.category = .trigger → TriggerRegistry.validate env d.nodeType c = .ok ()) ∧ d.nodeType ≠ "" := by
    refine ⟨validateNode_trigger valid given,fun untyped => ?_⟩
    simp [validateNode,untyped] at valid
    split at valid <;> contradiction
  rw [WorkflowNodeDTO.Vetted,given,Option.getD_some]
  exact (registry_validate_split.mp parts).1

/-- A stored node is valid as long as its date has not passed. -/
theorem NodeRow.Vetted.valid_iff (vetted : row.Vetted) (allowed : Allowed row.category) :
    validateNode env row.dto = .ok () ↔ Upcoming env row.category row.nodeType row.config := by
  rw [@validateNode_iff env row.dto row.config allowed rfl]
  exact and_iff_right vetted

end Validation

section Rows

/-- An updated row keeps its id and its kind. -/
structure Becomes (updates : List WorkflowNodeDTO) (row after : NodeRow) : Prop where
  id : after.id = row.id
  category : after.category = row.category
  nodeType : after.nodeType = row.nodeType
  config : after.config = row.config ∨ ∃ d ∈ updates, d.id = .row row.id ∧ after.config = storedConfig d.config

/-- How a call changes the stored rows: new ones copy the listed nodes under numbers drawn
from the counter, and those of one workflow take the listed updates. -/
structure Evolves (created updates : List WorkflowNodeDTO) (w : WorkflowID) (s t : Store) : Prop where
  counter : s.nextNode ≤ t.nextNode
  rows : ∀ x h, t.graph x = some h → ∀ after ∈ h.nodes, ∃ row,
    Becomes (if x = w then updates else []) row after ∧
    ((∃ g, s.graph x = some g ∧ row ∈ g.nodes) ∨
      s.nextNode ≤ row.id ∧ row.id < t.nextNode ∧ ∃ d ∈ created, Copies d row)

variable {nodes updates created : List WorkflowNodeDTO} {edges : List WorkflowEdgeDTO} {row : NodeRow}
  {x y : Writing} {text : String} {env : Env} {s t : Store} {w : WorkflowID} {delta : WorkflowDelta}
  {existing : List WorkflowNodeDTO} {ran : NodeID → Bool} {nextNode : NodeID} {g : Graph}

theorem Becomes.refl (updates : List WorkflowNodeDTO) (row : NodeRow) : Becomes updates row row :=
  ⟨rfl,rfl,rfl,.inl rfl⟩

theorem Evolves.of_graph (same : ∀ x, t.graph x = s.graph x) (counter : t.nextNode = s.nextNode) :
    Evolves [] [] w s t :=
  ⟨counter.ge,fun x h here after member => ⟨after,.refl _ _,.inl ⟨h,same x ▸ here,member⟩⟩⟩

theorem Evolves.refl (created updates : List WorkflowNodeDTO) (w : WorkflowID) (s : Store) :
    Evolves created updates w s s :=
  ⟨Nat.le_refl _,fun _ h here after member => ⟨after,.refl _ _,.inl ⟨h,here,member⟩⟩⟩

theorem configure_foldl (updates : List WorkflowNodeDTO) (row : NodeRow) :
    Becomes updates row (updates.foldl configure row) := by
  refine ⟨configure_targets.foldl_id,configure_targets.foldl_kind.1,configure_targets.foldl_kind.2,?_⟩
  induction updates generalizing row with
  | nil => exact .inl rfl
  | cons d rest ih =>
    have own : (configure row d).id = row.id := configure_targets.id row d
    rw [List.foldl_cons]
    rcases ih (configure row d) with same | ⟨e,later,named,config⟩
    · by_cases names : d.id = .row row.id
      · exact .inr ⟨d,List.mem_cons_self,names,by rw [same,configure,if_pos names]⟩
      · exact .inl (by rw [same,configure_targets.apart row d names])
    · exact .inr ⟨e,List.mem_cons_of_mem _ later,own ▸ named,config⟩

theorem place_foldl (moves : List WorkflowNodeDTO) (row : NodeRow) :
    (moves.foldl place row).config = row.config := by
  induction moves generalizing row with
  | nil => rfl
  | cons d rest ih =>
    rw [List.foldl_cons,ih,place]
    split <;> rfl

theorem inserts_copies {β : Type} {f : β → WorkflowNodeDTO → Except String β} {writing : β → Writing} {b c : β}
    (turn : ∀ b d c, f b d = .ok c → (writing b).createNode text d = .ok (writing c))
    (created : nodes.foldlM f b = .ok c) : (writing b).nextNode ≤ (writing c).nextNode ∧
      ∀ row ∈ (writing c).graph.nodes, row ∈ (writing b).graph.nodes ∨
        (writing b).nextNode ≤ row.id ∧ row.id < (writing c).nextNode ∧ ∃ d ∈ nodes, Copies d row := by
  refine Fold.foldlM_ok (fun done c => (writing b).nextNode ≤ (writing c).nextNode ∧
    ∀ row ∈ (writing c).graph.nodes, row ∈ (writing b).graph.nodes ∨
      (writing b).nextNode ≤ row.id ∧ row.id < (writing c).nextNode ∧ ∃ d ∈ done, Copies d row) ?_ ?_ created
  · exact ⟨Nat.le_refl _,fun row member => .inl member⟩
  · intro done d x y ⟨later,copies⟩ step
    have insert := turn x d y step
    obtain ⟨ids,rows,_⟩ := createNode_ok insert
    have counter := (createNode_ids insert).1
    refine ⟨Nat.le_trans later (counter ▸ Nat.le_succ _),fun row member => ?_⟩
    rw [rows] at member
    rcases List.mem_append.mp member with old | new
    · rcases copies row old with stored | ⟨above,below,e,listed,copied⟩
      · exact .inl stored
      · refine .inr ⟨above,?_,e,List.mem_append_left _ listed,copied⟩
        rw [counter]
        exact Nat.lt_succ_of_lt below
    · obtain rfl := List.mem_singleton.mp new
      have number : (newRow (writing y).nodeIDs d).id = (writing x).nextNode := by
        simp [newRow,ids,NodeIDMap.set]
      refine .inr ⟨number ▸ later,?_,d,List.mem_append_right _ (List.mem_singleton_self d),rfl,rfl,rfl⟩
      rw [number,counter]
      exact Nat.lt_succ_self _

theorem createEdge_next {edge : ID × ID} (created : x.createEdge edge = .ok y) : y.nextNode = x.nextNode := by
  unfold Writing.createEdge at created
  split at created
  next => contradiction
  next => cases created; rfl

theorem createGraphEdge_edge {e : WorkflowEdgeDTO} (created : createGraphEdge x e = .ok y) :
    x.createEdge e.key = .ok y := by
  unfold createGraphEdge at created
  split at created
  next => contradiction
  next => exact created

theorem createEdges_next {edges : List (ID × ID)} (created : edges.foldlM Writing.createEdge x = .ok y) :
    y.nextNode = x.nextNode :=
  Fold.foldlM_rel (fun x y : Writing => y.nextNode = x.nextNode) (fun _ => rfl)
    (fun _ _ _ first second => second.trans first) (fun _ _ _ step => createEdge_next step) created

theorem createGraphEdges_next (created : edges.foldlM createGraphEdge x = .ok y) : y.nextNode = x.nextNode :=
  Fold.foldlM_rel (fun x y : Writing => y.nextNode = x.nextNode) (fun _ => rfl)
    (fun _ _ _ first second => second.trans first)
    (fun _ _ _ step => createEdge_next (createGraphEdge_edge step)) created

/-- The rows of a write are patched rows of the graph or patched copies of the new nodes. -/
theorem applyDelta_becomes (applied : applyDelta ran delta existing nextNode g = .ok x) :
    nextNode ≤ x.nextNode ∧ ∀ after ∈ x.graph.nodes, ∃ row, Becomes delta.nodesToUpdate row after ∧
      (row ∈ g.nodes ∨ nextNode ≤ row.id ∧ row.id < x.nextNode ∧ ∃ d ∈ delta.nodesToCreate, Copies d row) := by
  unfold applyDelta at applied
  obtain ⟨deleted,delete,applied⟩ := Fold.bind_ok.mp applied
  obtain ⟨created,create,applied⟩ := Fold.bind_ok.mp applied
  obtain ⟨updated,update,applied⟩ := Fold.bind_ok.mp applied
  obtain ⟨placed,place_,applied⟩ := Fold.bind_ok.mp applied
  obtain ⟨cut,cutting,add⟩ := Fold.bind_ok.mp applied
  obtain ⟨later,copies⟩ := @inserts_copies _ _ Writing _ id _ _ (fun _ _ _ step => step) create
  have cutNodes := Fold.foldlM_rel (fun g h : Graph => h.nodes = g.nodes) (fun _ => rfl)
    (fun _ _ _ first second => second.trans first) (fun _ _ _ step => deleteEdge_nodes step) cutting
  have counter := createEdges_next add
  refine ⟨counter ▸ later,fun after member => ?_⟩
  rw [(createEdges_ok add).1,cutNodes,(updateNodesUI_ok place_).1,(updateNodes_ok update).1,List.map_map] at member
  obtain ⟨row,present,rfl⟩ := List.mem_map.mp member
  have becomes := configure_foldl delta.nodesToUpdate row
  refine ⟨row,⟨?_,?_,?_,?_⟩,?_⟩
  · exact (place_targets.foldl_id).trans becomes.id
  · exact (place_targets.foldl_kind.1).trans becomes.category
  · exact (place_targets.foldl_kind.2).trans becomes.nodeType
  · rw [Function.comp_apply,place_foldl]
    exact becomes.config
  · rcases copies row present with old | ⟨above,below,copied⟩
    · rw [id,(deleteNodes_ok delete).1] at old
      exact .inl (List.mem_filter.mp old).1
    · exact .inr ⟨above,counter ▸ below,copied⟩

theorem createGraphNode_node {a b : Writing × List WorkflowNode} {d : WorkflowNodeDTO}
    (created : createGraphNode a d = .ok b) :
    a.1.createNode "db error create workflow nodes: " d = .ok b.1 := by
  unfold createGraphNode at created
  split at created
  next => contradiction
  next =>
    split at created
    next => contradiction
    next inserted => cases created; exact inserted

theorem executeTriggers_next (env : Env) (userID : UserID) (w : WorkflowID) (nodes : List WorkflowNode)
    (s : Store) : (executeTriggers env userID w nodes s).1.nextNode = s.nextNode := by
  induction nodes generalizing s with
  | nil => rfl
  | cons n rest ih =>
    unfold executeTriggers
    split
    next =>
      split
      next => rfl
      next t executed =>
        obtain ⟨_,_,_,_,_,_,_,counter⟩ := registry_execute_ok executed
        exact (ih t).trans counter
    next => exact ih s

theorem createWorkflow_evolves (env : Env) (userID : UserID) (name description status : String)
    (nodes : List WorkflowNodeDTO) (edges : List WorkflowEdgeDTO) (s : Store) (w : WorkflowID) :
    Evolves nodes [] w s (createWorkflow env userID name description status nodes edges s).1 := by
  rcases createWorkflow_store env userID name description status nodes edges s with same | ⟨t,wg,_,rows,same⟩
  · rw [same]
    exact .refl nodes [] w s
  · obtain ⟨_,frame,_⟩ := insertWorkflow_ok rows
    obtain ⟨_,x,y,wf,first,second,stored,graph,counter⟩ := insertWorkflow_loops rows
    obtain ⟨later,copies⟩ := @inserts_copies _ _ _ _ Prod.fst _ _ (fun _ _ _ step => createGraphNode_node step) first
    have drawn : t.nextNode = x.1.nextNode := counter.trans (createGraphEdges_next second)
    rw [same]
    refine ⟨?_,fun z h here after member => ?_⟩
    · rw [executeTriggers_next,drawn]
      exact later
    · rw [executeTriggers_graph] at here
      refine ⟨after,.refl _ _,?_⟩
      by_cases new : z = s.nextWorkflow
      · subst new
        rw [Store.graph,stored,Option.map_some,graph] at here
        cases here
        rw [(createGraphEdges_ok second).1] at member
        rcases copies after member with none_ | ⟨above,below,copied⟩
        · simp [Graph.empty] at none_
        · rw [executeTriggers_next,drawn]
          exact .inr ⟨above,below,copied⟩
      · rw [Store.graph,frame z new] at here
        exact .inl ⟨h,here,member⟩

/-- A write draws its copies and its updates from its plan. -/
theorem writeUpdate_evolves (env : Env) (r : UpdateRequest) (plan : Plan) (u : Store) :
    Evolves plan.delta.nodesToCreate plan.delta.nodesToUpdate r.workflowID u (writeUpdate env r plan u).1 := by
  rcases writeUpdate_cases env r plan u with ⟨err,failed⟩ | ⟨v,result,patches,written⟩
  · rw [failed]
    exact .refl _ _ _ u
  · rw [written]
    unfold Patches at patches
    split at patches
    next => rw [patches]; exact .refl _ _ _ u
    next =>
      unfold patchWorkflow at patches
      split at patches
      next => contradiction
      next wf current =>
        obtain ⟨x,applied,patches⟩ := Fold.bind_ok.mp patches
        obtain ⟨later,becomes⟩ := applyDelta_becomes applied
        cases patches
        refine ⟨later,fun z h here after member => ?_⟩
        by_cases own : z = r.workflowID
        · subst own
          have graph : x.graph = h := by
            simpa [Store.graph,Store.put] using here
          obtain ⟨row,became,old | new⟩ := becomes after (graph ▸ member)
          · exact ⟨row,by rwa [if_pos rfl],.inl ⟨wf.graph,by rw [Store.graph,current]; rfl,old⟩⟩
          · exact ⟨row,by rwa [if_pos rfl],.inr new⟩
        · have same : u.graph z = some h := by
            simpa [Store.graph,Store.put,own] using here
          exact ⟨after,.refl _ _,.inl ⟨h,same,member⟩⟩

end Rows

section Runs

/-- An update in flight aims at a node of its own kind, which it may no longer find. -/
structure Aims (s : Store) (w : WorkflowID) (d : WorkflowNodeDTO) : Prop where
  vetted : d.Vetted
  target : ∃ n, d.id = .row n ∧ n < s.nextNode ∧ ∀ g, s.graph w = some g → ∀ row ∈ g.nodes, row.id = n →
    row.category = d.category ∧ row.nodeType = d.nodeType

/-- Every stored row is vetted, and its number was drawn. -/
def Store.Vetted (s : Store) : Prop :=
  ∀ w g, s.graph w = some g → ∀ row ∈ g.nodes, row.Vetted ∧ row.id < s.nextNode

structure Canvas.Vetted (s : Canvas) : Prop where
  store : s.store.Vetted
  creates : ∀ save ∈ s.saves, ∀ d ∈ save.2.delta.nodesToCreate, d.Vetted
  updates : ∀ save ∈ s.saves, ∀ d ∈ save.2.delta.nodesToUpdate, Aims s.store save.1.workflowID d

variable {created updates : List WorkflowNodeDTO} {s t : Store} {w x : WorkflowID} {d : WorkflowNodeDTO}
  {row : NodeRow} {env : Env} {r : UpdateRequest} {plan : Plan} {label : CanvasLabel}
  {integrations : UserID → Bool}

theorem storedConfig_vetted (vetted : d.Vetted) :
    Workflows.Vetted d.category d.nodeType (storedConfig d.config) :=
  vetted.stored

theorem Copies.vetted (copies : Copies d row) (vetted : d.Vetted) : row.Vetted := by
  obtain ⟨category,nodeType,config⟩ := copies
  rw [NodeRow.Vetted,category,nodeType,config]
  exact storedConfig_vetted vetted

/-- A call keeps the rows vetted when what it creates is vetted and its updates aim well. -/
theorem Evolves.vetted (evolves : Evolves created updates w s t) (vetted : s.Vetted)
    (creates : ∀ d ∈ created, d.Vetted) (aims : ∀ d ∈ updates, Aims s w d) : t.Vetted := by
  intro x h here after member
  obtain ⟨row,became,origin⟩ := evolves.rows x h here after member
  have known : row.Vetted ∧ row.id < t.nextNode := by
    rcases origin with ⟨g,stored,present⟩ | ⟨_,below,d,listed,copies⟩
    · obtain ⟨sound,below⟩ := vetted x g stored row present
      exact ⟨sound,Nat.lt_of_lt_of_le below evolves.counter⟩
    · exact ⟨copies.vetted (creates d listed),below⟩
  refine ⟨?_,became.id ▸ known.2⟩
  rw [NodeRow.Vetted,became.category,became.nodeType]
  rcases became.config with same | ⟨d,listed,named,config⟩
  · rw [same]
    exact known.1
  · split at listed
    next own =>
      subst own
      obtain ⟨n,target,drawn,kinds⟩ := (aims d listed).target
      obtain rfl := ID.row.inj (named.symm.trans target)
      rcases origin with ⟨g,stored,present⟩ | ⟨above,_⟩
      · obtain ⟨category,nodeType⟩ := kinds g stored row present rfl
        rw [config,category,nodeType]
        exact storedConfig_vetted (aims d listed).vetted
      · exact absurd drawn (Nat.not_lt_of_le above)
    next => contradiction

/-- An update in flight keeps aiming well: ids are not given out again and kinds stay. -/
theorem Aims.evolves (aims : Aims s x d) (evolves : Evolves created updates w s t) : Aims t x d := by
  obtain ⟨n,target,drawn,kinds⟩ := aims.target
  refine ⟨aims.vetted,n,target,Nat.lt_of_lt_of_le drawn evolves.counter,fun h here after member own => ?_⟩
  obtain ⟨row,became,origin⟩ := evolves.rows x h here after member
  have same : row.id = n := became.id.symm.trans own
  rcases origin with ⟨g,stored,present⟩ | ⟨above,_⟩
  · obtain ⟨category,nodeType⟩ := kinds g stored row present same
    exact ⟨became.category.trans category,became.nodeType.trans nodeType⟩
  · rw [same] at above
    exact absurd drawn (Nat.not_lt_of_le above)

/-- The plan of a save is vetted, and its updates aim at the rows it has read. -/
theorem planUpdate_aims (vetted : s.Vetted) (planned : planUpdate env r s = (t,.ok plan)) :
    (∀ d ∈ plan.delta.nodesToCreate, d.Vetted) ∧ ∀ d ∈ plan.delta.nodesToUpdate, Aims s r.workflowID d := by
  obtain ⟨valid,wf,_,stored,_⟩ := planUpdate_ok planned
  have diffed := plan_diffed planned stored
  have each := (validateRequest_ok valid).2
  refine ⟨fun d member => ?_,fun d member => ?_⟩
  · rw [diffed.create] at member
    exact validateNode_vetted (each d (List.mem_filter.mp member).1)
  · rw [diffed.update] at member
    obtain ⟨e,listed,rfl⟩ := List.mem_map.mp member
    obtain ⟨requested,changes⟩ := List.mem_filter.mp listed
    obtain ⟨row,found⟩ := Option.isSome_iff_exists.mp (Option.isSome_of_any changes)
    obtain ⟨present,own⟩ := rowOf_some found
    obtain ⟨c,given⟩ := validateNode_config (each e requested)
    have graph : s.graph r.workflowID = some wf.graph := by rw [Store.graph,stored]; rfl
    refine ⟨?_,row.id,own,(vetted _ _ graph row present).2,fun g here other member same => ?_⟩
    · have sound := validateNode_vetted (each e requested)
      simp only [WorkflowNodeDTO.Vetted,WorkflowNodeDTO.withIDs,given,Option.map_some,Option.getD_some] at sound ⊢
      exact sound.withIDs
    · obtain rfl := Option.some.inj (graph.symm.trans here)
      obtain rfl := List.inj_on_of_nodup_map wf.graph.nodeKey member present same
      obtain ⟨row',found',category,nodeType,_⟩ := diffed.known e requested (by rw [own]; rfl)
      obtain rfl := Option.some.inj (found.symm.trans found')
      exact ⟨category,nodeType⟩

theorem createWorkflow_vetted {userID : UserID} {name description status : String}
    {nodes : List WorkflowNodeDTO} {edges : List WorkflowEdgeDTO} (vetted : s.Vetted) :
    (createWorkflow env userID name description status nodes edges s).1.Vetted := by
  by_cases valid : validateRequest env nodes edges = .ok ()
  · have evolves := createWorkflow_evolves env userID name description status nodes edges s s.nextWorkflow
    exact evolves.vetted vetted (fun d member => validateNode_vetted ((validateRequest_ok valid).2 d member)) (by simp)
  · cases checked : validateRequest env nodes edges with
    | ok => exact absurd checked valid
    | error err =>
      rw [createWorkflow,checked]
      exact vetted

theorem Canvas.Vetted.evolves {s : Canvas} {saves : List (UpdateRequest × Plan)} {returned : List WorkflowID}
    (vetted : s.Vetted) (evolves : Evolves created updates w s.store t) (sound : t.Vetted)
    (known : ∀ save ∈ saves, save ∈ s.saves) : Canvas.Vetted ⟨t,saves,returned⟩ where
  store := sound
  creates := fun save member => vetted.creates save (known save member)
  updates := fun save member d listed => (vetted.updates save (known save member) d listed).evolves evolves

theorem planUpdate_evolves (env : Env) (r : UpdateRequest) (s : Store) :
    Evolves [] [] r.workflowID s (planUpdate env r s).1 :=
  .of_graph (planUpdate_graph env r s) (planUpdate_quiet env r s).nextNode

theorem archiveTriggers_next (env : Env) (w : WorkflowID) (nodes : List WorkflowNode) (s : Store) :
    (archiveTriggers env w nodes s).nextNode = s.nextNode := by
  induction nodes generalizing s with
  | nil => rfl
  | cons n rest ih =>
    unfold archiveTriggers
    split <;> exact ih _

theorem archiveWorkflow_evolves (env : Env) (w : WorkflowID) (s : Store) :
    Evolves [] [] w s (archiveWorkflow env w s).1 := by
  refine .of_graph (archiveWorkflow_graph env w s) ?_
  unfold archiveWorkflow
  split
  next => rfl
  next =>
    split
    next => rfl
    next =>
      split
      next => rfl
      next =>
        dsimp only
        split
        next => rfl
        next => exact archiveTriggers_next env w _ _

theorem Canvas.Vetted.step {s t : Canvas} (vetted : s.Vetted) (step : canvasStep label s = some t) : t.Vetted := by
  have quiet : ∀ {u : Store} {w}, Evolves [] [] w s.store u → u.Vetted := fun evolves =>
    evolves.vetted vetted.store (by simp) (by simp)
  cases label with
  | create env userID name description status nodes edges =>
    have evolves := createWorkflow_evolves env userID name description status nodes edges s.store
      s.store.nextWorkflow
    have sound := @createWorkflow_vetted s.store env userID name description status nodes edges vetted.store
    simp only [canvasStep] at step
    split at step
    next u w created =>
      rw [created] at evolves sound
      cases step
      exact vetted.evolves evolves sound fun _ member => member
    next u err created =>
      rw [created] at evolves sound
      cases step
      exact vetted.evolves evolves sound fun _ member => member
  | read env r =>
    have evolves := planUpdate_evolves env r s.store
    simp only [canvasStep] at step
    split at step
    next u plan planned =>
      rw [planned] at evolves
      cases step
      obtain ⟨creates,aims⟩ := planUpdate_aims vetted.store planned
      have kept := @Canvas.Vetted.evolves _ _ _ _ s _ s.returned vetted evolves (quiet evolves) fun _ member => member
      refine ⟨kept.store,fun save member => ?_,fun save member => ?_⟩
      · rcases List.mem_append.mp member with old | new
        · exact kept.creates save old
        · rw [List.mem_singleton.mp new]
          exact creates
      · rcases List.mem_append.mp member with old | new
        · exact kept.updates save old
        · rw [List.mem_singleton.mp new]
          exact fun d listed => (aims d listed).evolves evolves
    next u err planned =>
      rw [planned] at evolves
      cases step
      exact vetted.evolves evolves (quiet evolves) fun _ member => member
  | write env i =>
    simp only [canvasStep] at step
    split at step
    next r plan at_ =>
      cases step
      have evolves := writeUpdate_evolves env r plan s.store
      have listed := List.mem_of_getElem? at_
      have sound := evolves.vetted vetted.store (vetted.creates _ listed) (vetted.updates _ listed)
      exact vetted.evolves evolves sound fun _ member => List.mem_of_mem_eraseIdx member
    next => contradiction
  | archive env w =>
    have evolves := archiveWorkflow_evolves env w s.store
    cases step
    exact vetted.evolves evolves (quiet evolves) fun _ member => member

/-- In every run, whatever saves overlap, the stored rows are vetted. -/
theorem reach_vetted {s : Canvas} {allowed : Canvas → CanvasLabel → Prop}
    (reach : Reach (canvas integrations) allowed s) : s.Vetted := by
  refine reach.invariant Canvas.Vetted ?_ ?_
  · constructor <;> simp [canvas,Store.fresh,Store.Vetted,Store.graph]
  · intro s label t _ vetted _ step
    exact vetted.step step

/-- In every run the sequence of the node ids is past the stored nodes. -/
theorem reach_sequenced {s : Canvas} {allowed : Canvas → CanvasLabel → Prop}
    (reach : Reach (canvas integrations) allowed s) (w : WorkflowID) : Sequenced s.store w := by
  intro wf stored n member
  obtain ⟨row,listed,rfl⟩ := List.mem_map.mp member
  have drawn : s.store.graph w = some wf.graph := by rw [Store.graph,stored]; rfl
  exact ((reach_vetted reach).store w wf.graph drawn row listed).2

end Runs

end TinyAutomator.Workflows
