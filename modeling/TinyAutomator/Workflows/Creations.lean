import TinyAutomator.Workflows.Progress

/-! When a creation is all or nothing. Its transaction is, but the COMMIT may be applied without
an answer, and the triggers are executed after it. -/
namespace TinyAutomator.Workflows

section Requests

variable (parse : String → Option Int) (userID : UserID) (name description status : String)
  (nodes : List WorkflowNodeDTO) (edges : List WorkflowEdgeDTO) (s : Store)

/-- Whatever goes wrong around it, a creation that fails has added no row. -/
def CreatesNothing : Prop :=
  ∀ env, env.parseRFC3339 = parse → ∀ err,
    (createWorkflow env userID name description status nodes edges s).2 = .error err →
    (createWorkflow env userID name description status nodes edges s).1.workflows = s.workflows

structure Insertable : Prop where
  metadata : userID ≠ "" ∧ name ≠ "" ∧ description ≠ "" ∧ (WorkflowStatus.ofText status).isSome = true
  free : s.workflows s.nextWorkflow = none
  some_ : nodes ≠ []
  storable : ∀ d ∈ nodes, Storable d
  distinct : (edges.map (·.key)).Nodup

/-- The request can pass validation and the database takes it. -/
def Committable : Prop :=
  (∃ env, env.parseRFC3339 = parse ∧ validateRequest env nodes edges = .ok ()) ∧
    Insertable userID name description status nodes edges s

/-- No COMMIT is applied without an answer. -/
def AnsweredCreatesNothing : Prop :=
  ∀ env, env.parseRFC3339 = parse → (env.applied = true → env.answers .transaction = true) → ∀ err,
    (createWorkflow env userID name description status nodes edges s).2 = .error err →
    (createWorkflow env userID name description status nodes edges s).1.workflows = s.workflows

/-- A trigger that no stored edge enters: none enters its id, or a later node has the id
as well and gets the edges. -/
def RootTrigger : Prop := ∃ before d after, nodes = before ++ d :: after ∧ d.category = .trigger ∧
  (d.id ∈ after.map (·.id) ∨ d.id ∉ edges.map (·.targetNodeID))

end Requests

section Rows

variable {env : Env} {userID : UserID} {name description status : String} {s t : Store}
  {nodes : List WorkflowNodeDTO} {edges : List WorkflowEdgeDTO} {wg : WorkflowGraph} {d : WorkflowNodeDTO}

theorem validateNode_missing (valid : validateNode env d = .ok ()) : missing d = none := by
  obtain ⟨c,given⟩ := validateNode_config valid
  unfold validateNode at valid
  split at valid
  next => contradiction
  next category =>
    split at valid
    next => contradiction
    next nodeType => simp [missing,category,nodeType,given]

theorem createGraphNodes_iff {x z : Writing} {listed : List WorkflowNode}
    (complete : ∀ d ∈ nodes, missing d = none) :
    (∃ m, nodes.foldlM createGraphNode (x,listed) = .ok (z,m)) ↔
      nodes.foldlM (Writing.createNode "db error create workflow nodes: ") x = .ok z := by
  induction nodes generalizing x listed with
  | nil => simp [pure,Except.pure]
  | cons d rest ih =>
    obtain ⟨none_,complete⟩ := List.forall_mem_cons.mp complete
    constructor
    · rintro ⟨m,created⟩
      obtain ⟨⟨y,more⟩,first,later⟩ := Fold.foldlM_cons_ok.mp created
      simp only [createGraphNode,none_] at first
      split at first
      next => contradiction
      next y' inserted =>
        cases first
        exact Fold.foldlM_cons_ok.mpr ⟨y,inserted,(ih complete).mp ⟨m,later⟩⟩
    · intro created
      obtain ⟨y,inserted,later⟩ := Fold.foldlM_cons_ok.mp created
      obtain ⟨m,later⟩ := (@ih y
        (listed ++ [⟨x.nextNode,d.category,d.nodeType,d.config.getD .blank⟩]) complete).mpr later
      refine ⟨m,Fold.foldlM_cons_ok.mpr ⟨_,?_,later⟩⟩
      simp only [createGraphNode,none_,inserted]

theorem createGraphEdges_eq {x : Writing}
    (named : ∀ e ∈ edges, e.sourceNodeID ≠ ID.empty ∧ e.targetNodeID ≠ ID.empty) :
    edges.foldlM createGraphEdge x = (edges.map (·.key)).foldlM Writing.createEdge x := by
  induction edges generalizing x with
  | nil => rfl
  | cons e rest ih =>
    obtain ⟨here,named⟩ := List.forall_mem_cons.mp named
    rw [List.map_cons,List.foldlM_cons,List.foldlM_cons]
    have turn : createGraphEdge x e = x.createEdge e.key := by
      rw [createGraphEdge,if_neg (not_or.mpr here)]
    rw [turn]
    exact bind_congr fun y => ih named

theorem validated_named (valid : validateRequest env nodes edges = .ok ()) :
    ∀ id ∈ nodes.map (·.id), id ≠ ID.empty := by
  have accepted := (validateRequest_ok valid).1
  unfold validateWorkflowGraph at accepted
  split at accepted
  next => contradiction
  next named =>
    intro id member is
    rw [← prepForValidate_ids nodes edges] at member
    obtain ⟨node,listed,same⟩ := List.mem_map.mp member
    exact named ⟨node,listed,same.trans is⟩

/-- The node loop from an empty graph gives the edges their ends. -/
theorem createGraphNodes_resolve {x y : Writing × List WorkflowNode} (empty : x.1.graph.nodes = [])
    (created : nodes.foldlM createGraphNode x = .ok y)
    (ends : ∀ e ∈ edges, e.sourceNodeID ∈ nodes.map (·.id) ∧ e.targetNodeID ∈ nodes.map (·.id)) :
    (∀ e ∈ edges, y.1.graph.Joins (y.1.resolve e.key)) ∧
    (((edges.map (·.key)).map y.1.resolve).Nodup ↔ (edges.map (·.key)).Nodup) := by
  obtain ⟨copies,_,known⟩ := createGraphNodes_copies empty created
  have listed : ∀ id ∈ nodes.map (·.id), y.1.nodeIDs id ∈ y.1.graph.ids := by
    intro id member
    obtain ⟨p,paired,_,resolved⟩ := known id member
    rw [← resolved]
    exact List.mem_map_of_mem (List.of_mem_zip paired).2
  have distinct := zip_rows copies.length_eq y.1.graph.nodeKey
  have injective : ∀ id ∈ nodes.map (·.id), ∀ id' ∈ nodes.map (·.id),
      y.1.nodeIDs id = y.1.nodeIDs id' → id = id' := by
    intro id member id' member' same
    obtain ⟨p,paired,carries,resolved⟩ := known id member
    obtain ⟨p',paired',carries',resolved'⟩ := known id' member'
    have one := List.inj_on_of_nodup_map distinct paired paired'
      (resolved.trans (same.trans resolved'.symm))
    rw [← carries,← carries',one]
  refine ⟨fun e member => ⟨listed _ (ends e member).1,listed _ (ends e member).2⟩,?_,?_⟩
  · exact List.Nodup.of_map _
  · refine fun keys => keys.map_on ?_
    intro k member k' member' same
    obtain ⟨e,asked,rfl⟩ := List.mem_map.mp member
    obtain ⟨e',asked',rfl⟩ := List.mem_map.mp member'
    obtain ⟨source,target⟩ := WorkflowEdge.mk.inj same
    exact Prod.ext (injective _ (ends e asked).1 _ (ends e' asked').1 source)
      (injective _ (ends e asked).2 _ (ends e' asked').2 target)

theorem insertWorkflow_iff (now : Int) (valid : validateRequest env nodes edges = .ok ()) :
    (∃ x, insertWorkflow userID name description status nodes edges now s = .ok x) ↔
      Insertable userID name description status nodes edges s := by
  have ends := validated_ends valid
  have named : ∀ e ∈ edges, e.sourceNodeID ≠ ID.empty ∧ e.targetNodeID ≠ ID.empty := fun e member =>
    ⟨validated_named valid _ (ends e member).1,validated_named valid _ (ends e member).2⟩
  have complete : ∀ d ∈ nodes, missing d = none := fun d member =>
    validateNode_missing ((validateRequest_ok valid).2 d member)
  unfold insertWorkflow
  constructor
  · rintro ⟨x,created⟩
    split at created
    next => contradiction
    next metadata =>
      split at created
      next => contradiction
      next some_ =>
        split at created
        next => contradiction
        next => contradiction
        next known free =>
          obtain ⟨⟨y,listed⟩,first,created⟩ := Fold.bind_ok.mp created
          obtain ⟨z,second,_⟩ := Fold.bind_ok.mp created
          have storable := (createNodes_iff.mp ⟨y,(createGraphNodes_iff complete).mp ⟨_,first⟩⟩).1
          obtain ⟨_,keys⟩ := createGraphNodes_resolve rfl first ends
          dsimp only at second keys
          rw [createGraphEdges_eq named] at second
          have distinct := (List.nodup_append.mp (createEdges_iff.mp ⟨z,second⟩).1).2.1
          simp only [not_or] at metadata
          refine ⟨⟨metadata.1,metadata.2.1,metadata.2.2.1,?_⟩,free,some_,storable,keys.mp distinct⟩
          rw [known]
          rfl
  · rintro ⟨⟨user,name_,description_,known⟩,free,some_,storable,distinct⟩
    obtain ⟨status_,known⟩ := Option.isSome_iff_exists.mp known
    have given : status ≠ "" := by
      rintro rfl
      exact absurd known (by simp [WorkflowStatus.ofText])
    rw [if_neg (by simp [user,name_,description_,given]),if_neg some_,known,free]
    dsimp only
    obtain ⟨y,created⟩ := (@createNodes_iff ⟨.empty,s.nextNode,fun _ => 0⟩ nodes
      "db error create workflow nodes: ").mpr ⟨storable,by simp [Graph.ids,Graph.empty]⟩
    obtain ⟨m,first⟩ := (@createGraphNodes_iff _ _ y [] complete).mpr created
    obtain ⟨joins,keys⟩ := createGraphNodes_resolve rfl first ends
    have none_ : y.graph.edges = [] := (createGraphNodes_copies rfl first).2.1
    obtain ⟨z,second⟩ := (@createEdges_iff y (edges.map (·.key))).mpr ⟨by
      rw [none_,List.nil_append]
      exact keys.mpr distinct,List.forall_mem_map.mpr joins⟩
    rw [← createGraphEdges_eq named] at second
    simp only [first,second,bind,Except.bind]
    exact ⟨_,rfl⟩

end Rows

section Roots

variable {env : Env} {userID : UserID} {name description status : String} {s t : Store} {w : WorkflowID}
  {nodes : List WorkflowNodeDTO} {edges : List WorkflowEdgeDTO} {wg : WorkflowGraph}
  {all : List WorkflowNode}

/-- The map holds the row of a node exactly when no later node has its id. -/
def LastWins (pairs : List (WorkflowNodeDTO × NodeRow)) (nodeIDs : NodeIDMap) : Prop :=
  ∀ before p after, pairs = before ++ p :: after →
    (p.2.id = nodeIDs p.1.id ↔ p.1.id ∉ after.map (·.1.id))

theorem createGraphNodes_last {x y : Writing × List WorkflowNode} (empty : x.1.graph.nodes = [])
    (created : nodes.foldlM createGraphNode x = .ok y) : LastWins (nodes.zip y.1.graph.nodes) y.1.nodeIDs := by
  refine (Fold.foldlM_ok (fun done y => done.length = y.1.graph.nodes.length ∧
    LastWins (done.zip y.1.graph.nodes) y.1.nodeIDs) ?_ ?_ created).2
  · refine ⟨by rw [empty]; rfl,fun before p after split_ => ?_⟩
    rw [List.zip_nil_left] at split_
    exact absurd split_.symm (by simp)
  · intro done d y z ⟨same,last⟩ step
    obtain ⟨row,_,number,nodes,_,ids⟩ := createGraphNode_copies step
    refine ⟨by simp [nodes,same],fun before p after split_ => ?_⟩
    rw [nodes,List.zip_append same,List.zip_cons_cons,List.zip_nil_right] at split_
    rw [ids,NodeIDMap.set]
    rcases List.eq_nil_or_concat after with rfl | ⟨earlier,q,rfl⟩
    · obtain ⟨_,own⟩ := List.append_inj' split_ rfl
      obtain rfl : (d,row) = p := List.singleton_inj.mp own
      simp [number]
    · rw [List.concat_eq_append,← List.cons_append,← List.append_assoc] at split_
      obtain ⟨old,own⟩ := List.append_inj' split_ rfl
      obtain rfl : (d,row) = q := List.singleton_inj.mp own
      have stored : p.2 ∈ y.1.graph.nodes := by
        have paired : p ∈ done.zip y.1.graph.nodes := old ▸ by simp
        exact (List.of_mem_zip paired).2
      have apart : p.2.id ≠ y.1.nextNode := by
        intro taken
        have distinct := z.1.graph.nodeKey
        rw [nodes,List.map_append,List.nodup_append] at distinct
        exact distinct.2.2 _ (List.mem_map_of_mem stored) _ (List.mem_singleton_self _) (taken.trans number.symm)
      by_cases shared : p.1.id = d.id
      · simp [shared,apart]
      · rw [if_neg shared,last before p earlier old]
        simp [shared]

theorem insertWorkflow_last {now : Int}
    (created : insertWorkflow userID name description status nodes edges now s = .ok (t,wg)) :
    ∃ wf nodeIDs, t.workflows s.nextWorkflow = some wf ∧ Inserted nodes edges wf.graph nodeIDs ∧
      LastWins (nodes.zip wf.graph.nodes) nodeIDs := by
  obtain ⟨_,x,y,wf,first,second,stored,graph,_⟩ := insertWorkflow_loops created
  obtain ⟨copies,none_,resolves⟩ := createGraphNodes_copies rfl first
  obtain ⟨kept,joined⟩ := createGraphEdges_ok second
  have last := createGraphNodes_last rfl first
  refine ⟨wf,x.1.nodeIDs,stored,?_,graph ▸ kept ▸ last⟩
  rw [graph]
  exact ⟨kept ▸ copies,kept ▸ resolves,joined.trans (by rw [none_]; rfl)⟩

/-- A stored trigger is a root exactly when the request has it as one. -/
theorem Inserted.rootTrigger_iff {g : Graph} {nodeIDs : NodeIDMap} (inserted : Inserted nodes edges g nodeIDs)
    (last : LastWins (nodes.zip g.nodes) nodeIDs)
    (ends : ∀ e ∈ edges, e.targetNodeID ∈ nodes.map (·.id)) :
    (∃ row ∈ g.nodes, row.category = .trigger ∧ row.id ∉ g.edges.map (·.targetNodeID)) ↔
      RootTrigger nodes edges := by
  have same := inserted.copies.length_eq
  have targets : g.edges.map (·.targetNodeID) = edges.map fun e => nodeIDs e.targetNodeID := by
    rw [inserted.edges,List.map_map]
    rfl
  rw [targets]
  constructor
  · rintro ⟨row,stored,trigger,root⟩
    obtain ⟨p,paired,rfl⟩ := List.mem_map.mp (by rwa [← List.map_snd_zip same.ge] at stored)
    obtain ⟨before,after,split_⟩ := List.append_of_mem paired
    have requested : nodes = before.map Prod.fst ++ p.1 :: after.map Prod.fst := by
      rw [← List.map_fst_zip same.le,split_,List.map_append,List.map_cons]
    refine ⟨_,p.1,_,requested,?_,?_⟩
    · rw [← trigger,(List.forall₂_zip inserted.copies paired).1]
    · rw [List.map_map]
      refine or_iff_not_imp_left.mpr fun unshared entered => root ?_
      obtain ⟨e,asked,target⟩ := List.mem_map.mp entered
      exact List.mem_map.mpr ⟨e,asked,by rw [target,(last before p after split_).mpr unshared]⟩
  · rintro ⟨before,d,after,requested,trigger,free⟩
    obtain ⟨first,second,rows⟩ : ∃ first second, g.nodes = first ++ second ∧
        first.length = before.length := by
      refine ⟨g.nodes.take before.length,g.nodes.drop before.length,(List.take_append_drop _ _).symm,?_⟩
      rw [List.length_take,← same,requested]
      simp
    obtain ⟨rows,level⟩ := rows
    cases second with
    | nil =>
      rw [rows,requested] at same
      simp [level] at same
    | cons row later =>
      have split_ : nodes.zip g.nodes = before.zip first ++ (d,row) :: after.zip later := by
        rw [requested,rows,List.zip_append level.symm,List.zip_cons_cons]
      have paired : (d,row) ∈ nodes.zip g.nodes := split_ ▸ by simp
      refine ⟨row,(List.of_mem_zip paired).2,?_,fun entered => ?_⟩
      · rw [← trigger,(List.forall₂_zip inserted.copies paired).1]
      · obtain ⟨e,asked,target⟩ := List.mem_map.mp entered
        have is : d.id = e.targetNodeID := inserted.carries paired (ends e asked) target.symm
        have length : after.length = later.length := by
          have all := same
          rw [requested,rows] at all
          simpa [level] using all
        have unshared := (last _ _ _ split_).mp (by dsimp only; rw [is]; exact target.symm)
        rw [zip_ids length] at unshared
        exact free.elim unshared fun none_ => none_ (List.mem_map.mpr ⟨e,asked,is.symm⟩)

theorem execute_answers {left : Nat} {nodeType : String} {config : Config}
    (executed : TriggerRegistry.execute env left nodeType config s = .ok t) :
    env.answers (.triggerRow left) = true := by
  unfold TriggerRegistry.execute at executed
  split at executed
  next => contradiction
  next handler _ =>
    split at executed
    next => contradiction
    next =>
      have executed := wrap_ok.mp executed
      cases handler with
      | schedule =>
        obtain ⟨c,_,executed⟩ := Fold.bind_ok.mp executed
        split at executed
        next =>
          split at executed
          next answers => exact answers
          next => contradiction
        next => contradiction
      | calendarEvent =>
        obtain ⟨c,_,executed⟩ := Fold.bind_ok.mp executed
        split at executed
        next =>
          split at executed
          next =>
            obtain ⟨syncToken,_,executed⟩ := Fold.bind_ok.mp executed
            split at executed
            next answers => exact answers
            next => contradiction
          next => contradiction
        next => contradiction

theorem executeTriggers_silent (silent : ∀ left, env.answers (.triggerRow left) = false)
    (trigger : ∃ n ∈ all, n.category = .trigger) :
    ∃ err, executeTriggers env userID w all s = (s,.error err) := by
  induction all with
  | nil => simp at trigger
  | cons n rest ih =>
    unfold executeTriggers
    by_cases here : n.category = .trigger
    · rw [if_pos here]
      cases executed : TriggerRegistry.execute env rest.length n.nodeType
        (Config.withIDs n.config userID w) s with
      | error err => exact ⟨_,rfl⟩
      | ok t => exact absurd (execute_answers executed) (by rw [silent]; simp)
    · rw [if_neg here]
      obtain ⟨n',member,trigger⟩ := trigger
      rcases List.mem_cons.mp member with rfl | later
      · exact absurd trigger here
      · exact ih ⟨n',later,trigger⟩

theorem executeTriggers_none (none_ : ¬∃ n ∈ all, n.category = .trigger) :
    executeTriggers env userID w all s = (s,.ok ()) := by
  induction all with
  | nil => rfl
  | cons n rest ih =>
    unfold executeTriggers
    rw [if_neg fun trigger => none_ ⟨n,List.mem_cons_self,trigger⟩]
    apply ih
    rintro ⟨other,member,trigger⟩
    exact none_ ⟨other,List.mem_cons_of_mem _ member,trigger⟩

theorem insertWorkflow_roots {now : Int} (valid : validateRequest env nodes edges = .ok ())
    (created : insertWorkflow userID name description status nodes edges now s = .ok (t,wg)) :
    (∃ n ∈ getRootNodes wg, n.category = .trigger) ↔ RootTrigger nodes edges := by
  obtain ⟨wf,nodeIDs,stored,inserted,last⟩ := insertWorkflow_last created
  obtain ⟨_,_,wf',stored',_,_,same,targets⟩ := insertWorkflow_ok created
  obtain rfl := Option.some.inj (stored.symm.trans stored')
  rw [← inserted.rootTrigger_iff last fun e member => (validated_ends valid e member).2,targets]
  constructor
  · rintro ⟨n,root,trigger⟩
    obtain ⟨member,root⟩ := List.mem_filter.mp root
    have listed : storedNode n ∈ wf.graph.nodes.map (·.toWorkflowNode) := same ▸ List.mem_map_of_mem member
    obtain ⟨row,stored,is⟩ := List.mem_map.mp listed
    have id : row.id = n.id := show row.id = (storedNode n).id from congrArg WorkflowNode.id is
    have category : row.category = n.category :=
      show row.category = (storedNode n).category from congrArg WorkflowNode.category is
    exact ⟨row,stored,category.trans trigger,id ▸ of_decide_eq_true root⟩
  · rintro ⟨row,stored,trigger,root⟩
    have listed : row.toWorkflowNode ∈ wg.nodes.map storedNode := same ▸ List.mem_map_of_mem stored
    obtain ⟨n,member,is⟩ := List.mem_map.mp listed
    have id : n.id = row.id := show (storedNode n).id = row.id from congrArg WorkflowNode.id is
    have category : n.category = row.category :=
      show (storedNode n).category = row.category from congrArg WorkflowNode.category is
    exact ⟨n,List.mem_filter.mpr ⟨member,decide_eq_true (id ▸ root)⟩,category.trans trigger⟩

/-- A workflow that has been inserted is there, whatever the triggers did. -/
theorem inserted_stored {now : Int} (free : s.workflows s.nextWorkflow = none)
    (created : insertWorkflow userID name description status nodes edges now s = .ok (t,wg)) :
    t.workflows ≠ s.workflows := by
  intro same
  obtain ⟨_,_,wf,stored,_⟩ := insertWorkflow_ok created
  rw [same,free] at stored
  contradiction

/-- A creation is all or nothing exactly when it cannot be committed: a COMMIT that is applied and
not answered is reported as a failure. -/
theorem createsNothing_iff (parse : String → Option Int) (userID : UserID) (name description status : String)
    (nodes : List WorkflowNodeDTO) (edges : List WorkflowEdgeDTO) (s : Store) :
    CreatesNothing parse userID name description status nodes edges s ↔
      ¬Committable parse userID name description status nodes edges s := by
  constructor
  · rintro nothing ⟨⟨env,rfl,valid⟩,insertable⟩
    let lost : Env := { env with answers := fun statement => decide (statement ≠ .transaction), applied := true }
    have valid : validateRequest lost nodes edges = .ok () := valid
    obtain ⟨⟨t,wg⟩,rows⟩ := (insertWorkflow_iff lost.now valid).mpr insertable
    have result : createWorkflow lost userID name description status nodes edges s =
        (t,.error "failed to create workflow: failed to commit transaction in create workflow") := by
      simp only [createWorkflow,valid,createWorkflowRows,rows]
      rfl
    have unchanged := nothing lost rfl _ (by rw [result])
    rw [result] at unchanged
    exact inserted_stored insertable.free rows unchanged
  · intro harmless env same err failed
    rcases createWorkflow_store env userID name description status nodes edges s with kept | ⟨t,wg,_,rows,_⟩
    · rw [kept]
    · cases valid : validateRequest env nodes edges with
      | error err' => rw [createWorkflow,valid]
      | ok => exact absurd ⟨⟨env,same,valid⟩,(insertWorkflow_iff env.now valid).mp ⟨_,rows⟩⟩ harmless

/-- Where every applied COMMIT is answered, it is the triggers executed after it that leave rows behind. -/
theorem answeredCreatesNothing_iff (parse : String → Option Int) (userID : UserID)
    (name description status : String) (nodes : List WorkflowNodeDTO) (edges : List WorkflowEdgeDTO) (s : Store) :
    AnsweredCreatesNothing parse userID name description status nodes edges s ↔
      ¬(Committable parse userID name description status nodes edges s ∧ RootTrigger nodes edges) := by
  constructor
  · rintro nothing ⟨⟨⟨env,rfl,valid⟩,insertable⟩,root⟩
    let silent : Env := { env with
      answers := fun statement =>
        match statement with
        | .triggerRow _ => false
        | .workflow | .graph | .transaction | .status _ | .integrations | .runs => true }
    have valid : validateRequest silent nodes edges = .ok () := valid
    obtain ⟨⟨t,wg⟩,rows⟩ := (insertWorkflow_iff silent.now valid).mpr insertable
    obtain ⟨err,failed⟩ := @executeTriggers_silent silent userID t s.nextWorkflow _ (fun _ => rfl)
      ((insertWorkflow_roots valid rows).mpr root)
    have result : createWorkflow silent userID name description status nodes edges s = (t,.error err) := by
      have answered : silent.answers .transaction = true := rfl
      simp only [createWorkflow,valid,createWorkflowRows,rows,Env.commit,answered,if_true,failed]
    have unchanged := nothing silent rfl (fun _ => rfl) err (by rw [result])
    rw [result] at unchanged
    exact inserted_stored insertable.free rows unchanged
  · intro harmless env same answered err failed
    rcases createWorkflow_store env userID name description status nodes edges s with kept | ⟨t,wg,_,rows,_⟩
    · rw [kept]
    · cases valid : validateRequest env nodes edges with
      | error err' => rw [createWorkflow,valid]
      | ok =>
        have insertable := (insertWorkflow_iff env.now valid).mp ⟨_,rows⟩
        have none_ : ¬∃ n ∈ getRootNodes wg, n.category = .trigger := by
          rw [insertWorkflow_roots valid rows]
          exact fun root => harmless ⟨⟨⟨env,same,valid⟩,insertable⟩,root⟩
        simp only [createWorkflow,valid,createWorkflowRows,rows,Env.commit] at failed ⊢
        cases committed : env.answers .transaction with
        | true =>
          simp only [committed,if_true,executeTriggers_none none_] at failed
          contradiction
        | false =>
          have unapplied : env.applied = false := by
            by_contra applied
            have answers := answered (by simpa using applied)
            rw [committed] at answers
            contradiction
          simp [unapplied]

end Roots

section Runs

def meetings : List WorkflowNodeDTO :=
  [⟨.uuid "t",.trigger,"calendar_event",some { Config.blank with eventStatus := some (.str "cancelled") },
    some ⟨0,0⟩⟩,mail (.uuid "m")]

/-- The creation fails, and the workflow with its two nodes is there. -/
theorem meetings_left : ¬∀ parse userID name description status nodes edges s,
    CreatesNothing parse userID name description status nodes edges s := by
  intro nothing
  have failed : (createWorkflow .calm "alice" "meetings" "mail on cancelled meetings" "active" meetings
      [⟨"",.uuid "t",.uuid "m"⟩] (.fresh fun _ => false)).2.toOption = none := by decide +kernel
  have left : (((createWorkflow .calm "alice" "meetings" "mail on cancelled meetings" "active" meetings
      [⟨"",.uuid "t",.uuid "m"⟩] (.fresh fun _ => false)).1.workflows 1).map
        fun wf => (wf.graph.nodes.length,wf.calendars)) = some (2,[]) := by decide +kernel
  cases result : (createWorkflow .calm "alice" "meetings" "mail on cancelled meetings" "active" meetings
      [⟨"",.uuid "t",.uuid "m"⟩] (.fresh fun _ => false)).2 with
  | ok w =>
    rw [result] at failed
    contradiction
  | error err =>
    rw [nothing _ _ _ _ _ _ _ _ .calm rfl err result] at left
    contradiction

end Runs

end TinyAutomator.Workflows
