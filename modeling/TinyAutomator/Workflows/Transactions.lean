import TinyAutomator.Lib.Deferred
import TinyAutomator.Workflows.Progress

/-! How the transactions of the repositories end. The deferred rollback reads the `err`
of the function; the loops declare their own. -/
namespace TinyAutomator.Workflows

open Deferred

/-- What may fail in the three functions: a statement, marshalling a config, or parsing an
id. A loop numbers its turns. -/
inductive TxStep where
  | beginTx | commit | marshalConfig
  | createWorkflow | createWorkflowNode | createWorkflowNodeUi | createWorkflowEdge
  | updateWorkflow | deleteWorkflowNode | existingNodeID
  | updateNodeID | marshalUpdate | updateWorkflowNode | updateWorkflowNodeUI
  | moveNodeID | moveWorkflowNodeUI
  | edgeSourceID | edgeTargetID | deleteWorkflowEdge
  | createWorkflowRun | parseNodeID | createWorkflowNodeRun
  deriving DecidableEq

section Bodies

variable (fails : TxStep → Nat → Bool)

/-- The steps of an insert of a node; only the texts differ between the two functions. -/
def insertNode (node ui : String) (i : Nat) (d : WorkflowNodeDTO) : Body Unit := do
  attempts [("error marshalling config: ",fails .marshalConfig i),(node,fails .createWorkflowNode i)]
  deref nilDereference d.position
  shadowed ui (fails .createWorkflowNodeUi i)

/-- An incomplete node is refused before the loop has an `err` of its own. -/
def createNodeTurn (i : Nat) (d : WorkflowNodeDTO) : Body Unit := do
  shadowed ((missing d).getD "") (missing d).isSome
  insertNode fails "db error create workflow nodes: " "db error create workflow node ui: " i d

def WorkflowEdgeDTO.nameless (e : WorkflowEdgeDTO) : Prop :=
  e.sourceNodeID = ID.empty ∨ e.targetNodeID = ID.empty

instance : DecidablePred WorkflowEdgeDTO.nameless := fun e =>
  inferInstanceAs (Decidable (e.sourceNodeID = ID.empty ∨ e.targetNodeID = ID.empty))

def createEdgeTurn (i : Nat) (e : WorkflowEdgeDTO) : Body Unit :=
  attempts [(s!"edge source or target node ID is missing for edge {e.id}",decide e.nameless),
    ("db error create workflow edges: ",fails .createWorkflowEdge i)]

/-- The repository's CreateWorkflow, if it begins a transaction. -/
def createWorkflowTx (userID : UserID) (name description status : String) (nodes : List WorkflowNodeDTO)
    (edges : List WorkflowEdgeDTO) : Option Ending :=
  if userID = "" ∨ name = "" ∨ description = "" ∨ status = "" then none
  else if nodes = [] then none
  else if fails .beginTx 0 then none
  else some (transact (do
      held "db error create workflow: " (fails .createWorkflow 0)
      inTurn (createNodeTurn fails) 0 nodes
      inTurn (createEdgeTurn fails) 0 edges)
    (shadowed "failed to commit transaction in create workflow: " (fails .commit 0)))

def deleteNodeTurn (i : Nat) (_ : NodeID) : Body Unit :=
  held "db error delete workflow node: " (fails .deleteWorkflowNode i)

def existingNodeTurn (i : Nat) (_ : WorkflowNodeDTO) : Body Unit :=
  shadowed "invalid node id: " (fails .existingNodeID i)

def insertNodeTurn (i : Nat) (d : WorkflowNodeDTO) : Body Unit :=
  insertNode fails "db error create workflow node: " "db error create workflow node ui: " i d

def updateNodeTurn (i : Nat) (d : WorkflowNodeDTO) : Body Unit := do
  attempts [("invalid node id: ",fails .updateNodeID i),("error marshalling config: ",fails .marshalUpdate i),
    ("db error update workflow node: ",fails .updateWorkflowNode i)]
  deref nilDereference d.position
  shadowed "db error update workflow node ui: " (fails .updateWorkflowNodeUI i)

def moveNodeTurn (i : Nat) (d : WorkflowNodeDTO) : Body Unit := do
  attempts [("invalid node id: ",fails .moveNodeID i)]
  deref nilDereference d.position
  shadowed "db error update workflow node ui: " (fails .moveWorkflowNodeUI i)

def deleteEdgeTurn (i : Nat) (_ : ID × ID) : Body Unit :=
  attempts [("invalid edge source id: ",fails .edgeSourceID i),("invalid edge target id: ",fails .edgeTargetID i),
    ("db error delete workflow edge: ",fails .deleteWorkflowEdge i)]

/-- The loop over the added edges assigns the `err` of the function. -/
def addEdgeTurn (i : Nat) (_ : ID × ID) : Body Unit :=
  held "db error create workflow edges: " (fails .createWorkflowEdge i)

/-- The repository's UpdateWorkflow, if it begins a transaction. -/
def updateWorkflowTx (delta : WorkflowDelta) (existingNodes : List WorkflowNodeDTO) : Option Ending :=
  if fails .beginTx 0 then none
  else some (transact (do
      held "db error update workflow metadata: " (delta.updateMetadata && fails .updateWorkflow 0)
      inTurn (deleteNodeTurn fails) 0 delta.nodeIDsToDelete
      inTurn (existingNodeTurn fails) 0 existingNodes
      inTurn (insertNodeTurn fails) 0 delta.nodesToCreate
      inTurn (updateNodeTurn fails) 0 delta.nodesToUpdate
      inTurn (moveNodeTurn fails) 0 delta.nodesToUpdateUI
      inTurn (deleteEdgeTurn fails) 0 delta.edgesToDelete
      inTurn (addEdgeTurn fails) 0 delta.edgesToAdd)
    (held "commit tx failed: " (fails .commit 0)))

def createNodeRunTurn (i : Nat) (_ : ValidateNode) : Body Unit :=
  attempts [("db error parse node id: ",fails .parseNodeID i),
    ("db error create workflow node run: ",fails .createWorkflowNodeRun i)]

/-- The repository's CreateWorkflowRun, if it begins a transaction. -/
def createWorkflowRunTx (nodes : List ValidateNode) : Option Ending :=
  if nodes = [] then none
  else if fails .beginTx 0 then none
  else some (transact (do
      held "db error create workflow run: " (fails .createWorkflowRun 0)
      inTurn (createNodeRunTurn fails) 0 nodes)
    (shadowed "db error commit tx in create workflow run: " (fails .commit 0)))

end Bodies

section Conditions

variable (fails : TxStep → Nat → Bool)

/-- A call that begins a transaction has ended it when it is left. -/
def Ends (call : Option Ending) : Prop := ∀ ending, call = some ending → ending.Released

/-- A turn of some steps around the position of a node goes through. -/
def RowPasses (before : Prop) (d : WorkflowNodeDTO) (ui : Bool) : Prop :=
  ¬before ∧ d.position.isSome = true ∧ ui = false

def InsertFails (i : Nat) : Prop := fails .marshalConfig i = true ∨ fails .createWorkflowNode i = true

def CreateFails (i : Nat) (d : WorkflowNodeDTO) : Prop := missing d ≠ none ∨ InsertFails fails i

def UpdateFails (i : Nat) : Prop :=
  fails .updateNodeID i = true ∨ fails .marshalUpdate i = true ∨ fails .updateWorkflowNode i = true

def EdgeFails (i : Nat) (e : WorkflowEdgeDTO) : Prop := e.nameless ∨ fails .createWorkflowEdge i = true

def CutFails (i : Nat) : Prop :=
  fails .edgeSourceID i = true ∨ fails .edgeTargetID i = true ∨ fails .deleteWorkflowEdge i = true

/-- Every node and every edge goes through. -/
def CreatePasses (nodes : List WorkflowNodeDTO) (edges : List WorkflowEdgeDTO) : Prop :=
  AllPass (fun i d => RowPasses (CreateFails fails i d) d (fails .createWorkflowNodeUi i)) nodes ∧
  AllPass (fun i e => ¬EdgeFails fails i e) edges

/-- The same for the five loops of an update that have an `err` of their own. -/
def UpdatePasses (delta : WorkflowDelta) (existingNodes : List WorkflowNodeDTO) : Prop :=
  AllPass (fun i _ => fails .existingNodeID i = false) existingNodes ∧
  AllPass (fun i d => RowPasses (InsertFails fails i) d (fails .createWorkflowNodeUi i)) delta.nodesToCreate ∧
  AllPass (fun i d => RowPasses (UpdateFails fails i) d (fails .updateWorkflowNodeUI i)) delta.nodesToUpdate ∧
  AllPass (fun i d => RowPasses (fails .moveNodeID i = true) d (fails .moveWorkflowNodeUI i))
    delta.nodesToUpdateUI ∧
  AllPass (fun i _ => ¬CutFails fails i) delta.edgesToDelete

def RunFails (i : Nat) : Prop := fails .parseNodeID i = true ∨ fails .createWorkflowNodeRun i = true

/-- The condition of each function: once the transaction has begun and the statements that
assign the function's `err` have gone through, so does every turn of the loops before the
last statements. -/
def CreateEnds (userID : UserID) (name description status : String) (nodes : List WorkflowNodeDTO)
    (edges : List WorkflowEdgeDTO) : Prop :=
  userID ≠ "" → name ≠ "" → description ≠ "" → status ≠ "" → nodes ≠ [] → fails .beginTx 0 = false →
    fails .createWorkflow 0 = false → CreatePasses fails nodes edges

def UpdateEnds (delta : WorkflowDelta) (existingNodes : List WorkflowNodeDTO) : Prop :=
  fails .beginTx 0 = false → (delta.updateMetadata = true → fails .updateWorkflow 0 = false) →
    (∀ i < delta.nodeIDsToDelete.length, fails .deleteWorkflowNode i = false) →
    UpdatePasses fails delta existingNodes

def RunEnds (nodes : List ValidateNode) : Prop :=
  fails .beginTx 0 = false → fails .createWorkflowRun 0 = false →
    ∀ i < nodes.length, ¬RunFails fails i

end Conditions

section Iff

variable {fails : TxStep → Nat → Bool} {i : Nat} {d : WorkflowNodeDTO} {x : Body Unit} {ui : Bool}
  {text : String} {before : Prop} {body commit : Body Unit}

theorem ends_some : Ends (some (transact body commit)) ↔ Seen body := by
  rw [← @transact_released body commit]
  exact ⟨fun ends => ends _ rfl,fun released _ same => Option.some.inj same ▸ released⟩

theorem ends_none : Ends none := fun _ same => nomatch same

/-- Some steps, the position, and the statement for the user interface: the turn goes through,
or it stops with an error that the deferred call does not see, or with a panic. -/
theorem row_turn (pass : x = .ok () ↔ ¬before) (unseen : ¬Caught x) :
    ((x >>= fun _ => deref nilDereference d.position >>= fun _ => shadowed text ui) = .ok () ↔
      RowPasses before d ui) ∧
    ¬Caught (x >>= fun _ => deref nilDereference d.position >>= fun _ => shadowed text ui) := by
  constructor
  · rw [passes_bind,passes_bind,pass,passes_deref,passes_shadowed]
    rfl
  · rw [caught_bind,caught_bind]
    simp [unseen]

theorem insertNode_turn {node uiText : String} : (insertNode fails node uiText i d = .ok () ↔
      RowPasses (InsertFails fails i) d (fails .createWorkflowNodeUi i)) ∧
    ¬Caught (insertNode fails node uiText i d) :=
  row_turn (by simp [InsertFails]) caught_attempts

theorem createNodeTurn_turn : (createNodeTurn fails i d = .ok () ↔
      RowPasses (CreateFails fails i d) d (fails .createWorkflowNodeUi i)) ∧
    ¬Caught (createNodeTurn fails i d) := by
  have rest := @insertNode_turn fails i d "db error create workflow nodes: " "db error create workflow node ui: "
  rw [createNodeTurn,passes_bind,caught_bind,rest.1,passes_shadowed]
  simp only [caught_shadowed,rest.2,and_false,or_false,not_false_eq_true,and_true]
  unfold RowPasses CreateFails
  cases missing d <;> simp

theorem updateNodeTurn_turn : (updateNodeTurn fails i d = .ok () ↔
      RowPasses (UpdateFails fails i) d (fails .updateWorkflowNodeUI i)) ∧
    ¬Caught (updateNodeTurn fails i d) :=
  row_turn (by simp [UpdateFails]) caught_attempts

theorem moveNodeTurn_turn : (moveNodeTurn fails i d = .ok () ↔
      RowPasses (fails .moveNodeID i = true) d (fails .moveWorkflowNodeUI i)) ∧
    ¬Caught (moveNodeTurn fails i d) :=
  row_turn (by simp) caught_attempts

theorem createWorkflowTx_ends (fails : TxStep → Nat → Bool) (userID : UserID)
    (name description status : String) (nodes : List WorkflowNodeDTO) (edges : List WorkflowEdgeDTO) :
    Ends (createWorkflowTx fails userID name description status nodes edges) ↔
      CreateEnds fails userID name description status nodes edges := by
  have loop := @allPass_inTurn _ (createNodeTurn fails) nodes _ fun _ _ => createNodeTurn_turn.1
  have edgeLoop := @allPass_inTurn _ (createEdgeTurn fails) edges (fun i e => ¬EdgeFails fails i e)
    fun _ _ => by simp [createEdgeTurn,EdgeFails]
  have unseen : ¬Caught (inTurn (createNodeTurn fails) 0 nodes) := never_inTurn fun _ _ => createNodeTurn_turn.2
  have edgesUnseen : ¬Caught (inTurn (createEdgeTurn fails) 0 edges) := never_inTurn fun _ _ => caught_attempts
  unfold createWorkflowTx CreateEnds
  split
  next incomplete =>
    refine iff_of_true ends_none fun user name_ description_ status_ => ?_
    rcases incomplete with h | h | h | h <;> contradiction
  next complete =>
    simp only [not_or] at complete
    obtain ⟨user,name_,description_,status_⟩ := complete
    simp only [user,name_,description_,status_,ne_eq,not_false_eq_true,true_imp_iff]
    split
    next none_ => exact iff_of_true ends_none fun some_ => absurd none_ some_
    next some_ =>
      split
      next refused => exact iff_of_true ends_none fun _ begun => by rw [refused] at begun; contradiction
      next begun =>
        rw [ends_some,seen_held.bind,unseen_bind unseen,Seen.iff_passes edgesUnseen,loop,edgeLoop,passes_held]
        simp [some_,begun,CreatePasses]

theorem updateWorkflowTx_ends (fails : TxStep → Nat → Bool) (delta : WorkflowDelta)
    (existingNodes : List WorkflowNodeDTO) :
    Ends (updateWorkflowTx fails delta existingNodes) ↔ UpdateEnds fails delta existingNodes := by
  have deleted := @passes_each _ (deleteNodeTurn fails) delta.nodeIDsToDelete _ fun _ _ => passes_held
  have existing := @allPass_inTurn _ (existingNodeTurn fails) existingNodes
    (fun i _ => fails .existingNodeID i = false) fun _ _ => passes_shadowed
  have inserts := @allPass_inTurn _ (insertNodeTurn fails) delta.nodesToCreate _ fun _ _ => insertNode_turn.1
  have updates := @allPass_inTurn _ (updateNodeTurn fails) delta.nodesToUpdate _
    fun _ _ => updateNodeTurn_turn.1
  have moves := @allPass_inTurn _ (moveNodeTurn fails) delta.nodesToUpdateUI _ fun _ _ => moveNodeTurn_turn.1
  have cuts := @allPass_inTurn _ (deleteEdgeTurn fails) delta.edgesToDelete (fun i _ => ¬CutFails fails i)
    fun _ _ => by simp [deleteEdgeTurn,CutFails]
  have existingUnseen : ¬Caught (inTurn (existingNodeTurn fails) 0 existingNodes) :=
    never_inTurn fun _ _ => caught_shadowed
  have insertsUnseen : ¬Caught (inTurn (insertNodeTurn fails) 0 delta.nodesToCreate) :=
    never_inTurn fun _ _ => insertNode_turn.2
  have updatesUnseen : ¬Caught (inTurn (updateNodeTurn fails) 0 delta.nodesToUpdate) :=
    never_inTurn fun _ _ => updateNodeTurn_turn.2
  have movesUnseen : ¬Caught (inTurn (moveNodeTurn fails) 0 delta.nodesToUpdateUI) :=
    never_inTurn fun _ _ => moveNodeTurn_turn.2
  have cutsUnseen : ¬Caught (inTurn (deleteEdgeTurn fails) 0 delta.edgesToDelete) :=
    never_inTurn fun _ _ => caught_attempts
  have deletes : Seen (inTurn (deleteNodeTurn fails) 0 delta.nodeIDsToDelete) := seen_inTurn fun _ _ => seen_held
  have adds : Seen (inTurn (addEdgeTurn fails) 0 delta.edgesToAdd) := seen_inTurn fun _ _ => seen_held
  unfold updateWorkflowTx UpdateEnds
  split
  next refused => exact iff_of_true ends_none fun begun => by rw [refused] at begun; contradiction
  next begun =>
    rw [ends_some,seen_held.bind,deletes.bind,unseen_bind existingUnseen,unseen_bind insertsUnseen,
      unseen_bind updatesUnseen,unseen_bind movesUnseen,unseen_bind cutsUnseen,deleted,existing,inserts,
      updates,moves,cuts,passes_held]
    simp [begun,adds,UpdatePasses]

theorem createWorkflowRunTx_ends (fails : TxStep → Nat → Bool) (nodes : List ValidateNode) :
    Ends (createWorkflowRunTx fails nodes) ↔ RunEnds fails nodes := by
  have loop := @passes_each _ (createNodeRunTurn fails) nodes (fun i => ¬RunFails fails i)
    fun _ _ => by simp [createNodeRunTurn,RunFails]
  have unseen : ¬Caught (inTurn (createNodeRunTurn fails) 0 nodes) := never_inTurn fun _ _ => caught_attempts
  unfold createWorkflowRunTx RunEnds
  split
  next none_ => exact iff_of_true ends_none fun _ _ i below => by subst none_; contradiction
  next =>
    split
    next refused => exact iff_of_true ends_none fun begun => by rw [refused] at begun; contradiction
    next begun =>
      rw [ends_some,seen_held.bind,Seen.iff_passes unseen,loop,passes_held]
      simp [begun]

/-- Every transaction of the three functions is ended exactly when no loop with an `err` of
its own returns an error or panics. -/
theorem transactions_end (fails : TxStep → Nat → Bool) :
    (∀ userID name description status nodes edges,
      Ends (createWorkflowTx fails userID name description status nodes edges) ↔
        CreateEnds fails userID name description status nodes edges) ∧
    (∀ delta existingNodes, Ends (updateWorkflowTx fails delta existingNodes) ↔
      UpdateEnds fails delta existingNodes) ∧
    ∀ nodes, Ends (createWorkflowRunTx fails nodes) ↔ RunEnds fails nodes :=
  ⟨createWorkflowTx_ends fails,updateWorkflowTx_ends fails,createWorkflowRunTx_ends fails⟩

/-- The second insert of a node fails: the call returns, and nothing has ended its
transaction. -/
theorem secondInsert_leaks : ¬∀ fails userID name description status nodes edges,
    Ends (createWorkflowTx fails userID name description status nodes edges) := by
  intro ends
  have leak : createWorkflowTx (fun step i => step = .createWorkflowNode ∧ i = 1) "alice" "mails" "some mails"
      "active" twoMails between = some ⟨some (some "db error create workflow nodes: "),false,false⟩ := by
    decide +kernel
  rcases ends _ _ _ _ _ _ _ _ leak with commit | rollback
  · contradiction
  · contradiction

end Iff

section Answered

variable {env : Env} {userID : UserID} {name description status : String} {s t : Store} {w : WorkflowID}
  {nodes : List WorkflowNodeDTO} {edges : List WorkflowEdgeDTO} {wg : WorkflowGraph} {delta : WorkflowDelta}
  {existingNodes : List WorkflowNodeDTO} {now : Int}

/-- No statement, marshalling or parsing fails. -/
def answered : TxStep → Nat → Bool := fun _ _ => false

def committed : Ending := ⟨some none,true,false⟩

theorem transact_committed {body : Body Unit} {text : String} (passes : body = .ok ()) :
    transact body (shadowed text false) = committed ∧ transact body (held text false) = committed := by
  rw [passes]
  exact ⟨rfl,rfl⟩

/-- A creation whose statements go through comes to its commit. -/
theorem insertWorkflow_committed
    (created : insertWorkflow userID name description status nodes edges now s = .ok (t,wg)) :
    createWorkflowTx answered userID name description status nodes edges = some committed := by
  obtain ⟨some_,x,y,_,first,second,_⟩ := insertWorkflow_loops created
  have complete : ∀ d ∈ nodes, missing d = none ∧ d.position.isSome = true := by
    refine Fold.foldlM_ok (fun (done : List WorkflowNodeDTO) (_ : Writing × List WorkflowNode) =>
      ∀ d ∈ done, missing d = none ∧ d.position.isSome = true) (by simp) ?_ first
    intro done d x y all step
    refine List.forall_mem_append.mpr ⟨all,List.forall_mem_singleton.mpr ?_⟩
    unfold createGraphNode at step
    split at step
    next => contradiction
    next complete =>
      split at step
      next => contradiction
      next inserted => exact ⟨complete,(createNode_ok inserted).2.2.2⟩
  have named : ∀ e ∈ edges, ¬e.nameless := by
    refine Fold.foldlM_ok (fun (done : List WorkflowEdgeDTO) (_ : Writing) => ∀ e ∈ done, ¬e.nameless)
      (by simp) ?_ second
    intro done e x y all step
    refine List.forall_mem_append.mpr ⟨all,List.forall_mem_singleton.mpr fun nameless => ?_⟩
    have ends : e.sourceNodeID = ID.empty ∨ e.targetNodeID = ID.empty := nameless
    rw [createGraphEdge,if_pos ends] at step
    contradiction
  have passes : (do
      held "db error create workflow: " (answered .createWorkflow 0)
      inTurn (createNodeTurn answered) 0 nodes
      inTurn (createEdgeTurn answered) 0 edges) = .ok () := by
    rw [passes_bind,passes_bind,passes_inTurn,passes_inTurn]
    refine ⟨rfl,fun i d at_ => ?_,fun i e at_ => ?_⟩
    · obtain ⟨complete,position⟩ := complete d (List.mem_of_getElem? at_)
      exact createNodeTurn_turn.1.mpr ⟨by simp [CreateFails,InsertFails,answered,complete],position,rfl⟩
    · have named := named e (List.mem_of_getElem? at_)
      simp [createEdgeTurn,answered,named]
  have metadata : ¬(userID = "" ∨ name = "" ∨ description = "" ∨ status = "") := by
    intro incomplete
    rw [insertWorkflow,if_pos incomplete] at created
    contradiction
  rw [createWorkflowTx,if_neg metadata,if_neg some_,if_neg (by simp [answered])]
  exact congrArg some (transact_committed passes).1

/-- The same for a save. -/
theorem patchWorkflow_committed
    (updated : patchWorkflow env w delta existingNodes s = .ok t) :
    updateWorkflowTx answered delta existingNodes = some committed := by
  unfold patchWorkflow at updated
  split at updated
  next => contradiction
  next wf _ =>
    obtain ⟨x,applied,_⟩ := Fold.bind_ok.mp updated
    unfold applyDelta at applied
    obtain ⟨deleted,delete,applied⟩ := Fold.bind_ok.mp applied
    obtain ⟨created,create,applied⟩ := Fold.bind_ok.mp applied
    obtain ⟨updated,update,applied⟩ := Fold.bind_ok.mp applied
    obtain ⟨placed,move,_⟩ := Fold.bind_ok.mp applied
    have inserts : ∀ d ∈ delta.nodesToCreate, d.position.isSome = true := fun d member =>
      ((createNodes_iff.mp ⟨created,create⟩).1 d member).1
    have positions : ∀ {f : Graph → WorkflowNodeDTO → Except String Graph} {g h : Graph}
        {nodes : List WorkflowNodeDTO}, nodes.foldlM f g = .ok h →
        (∀ g d h, f g d = .ok h → d.position.isSome = true) → ∀ d ∈ nodes, d.position.isSome = true := by
      intro f g h nodes ended turn
      refine Fold.foldlM_ok (fun (done : List WorkflowNodeDTO) (_ : Graph) =>
        ∀ d ∈ done, d.position.isSome = true) (by simp) ?_ ended
      intro done d x y all step
      exact List.forall_mem_append.mpr ⟨all,List.forall_mem_singleton.mpr (turn x d y step)⟩
    have updates := positions update fun g d h step => by
      unfold updateNode at step
      split at step <;> simp_all
    have moves := positions move fun g d h step => by
      unfold updateNodeUI at step
      split at step <;> simp_all
    rw [updateWorkflowTx,if_neg (by simp [answered])]
    refine congrArg some (transact_committed ?_).2
    simp only [passes_bind,passes_inTurn]
    refine ⟨by simp [answered],fun _ _ _ => rfl,fun _ _ _ => rfl,fun i d at_ => ?_,fun i d at_ => ?_,
      fun i d at_ => ?_,fun _ _ _ => ?_,fun _ _ _ => rfl⟩
    · exact insertNode_turn.1.mpr ⟨by simp [InsertFails,answered],inserts d (List.mem_of_getElem? at_),rfl⟩
    · exact updateNodeTurn_turn.1.mpr ⟨by simp [UpdateFails,answered],updates d (List.mem_of_getElem? at_),rfl⟩
    · exact moveNodeTurn_turn.1.mpr ⟨by simp [answered],moves d (List.mem_of_getElem? at_),rfl⟩
    · simp [deleteEdgeTurn,answered]

end Answered

end TinyAutomator.Workflows
