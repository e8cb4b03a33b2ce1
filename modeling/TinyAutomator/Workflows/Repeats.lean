import TinyAutomator.Workflows.Resaves

/-! Submitting a save twice. The service puts its keys into the config that it stores, and the
next diff compares the config of the request with that one. -/
namespace TinyAutomator.Workflows

/-- Nothing that the save stores differs from what it was asked to store: the listings of a
node agree, and a config that is new has the service's keys already, as they are stored. -/
structure Repeatable (r : UpdateRequest) (g : Graph) : Prop where
  consistent : Consistent r
  keyed : ∀ d ∈ r.nodes, changed g d = true → d.config = (d.withIDs r).config.map Config.stored

section Saved

variable {env : Env} {r : UpdateRequest} {s t : Store} {wf wf' : Workflow} {g : Graph} {delta : WorkflowDelta}
  {x : Writing} {ran : NodeID → Bool} {nextNode : NodeID} {d : WorkflowNodeDTO} {row : NodeRow}

theorem plain_nodes (plain : ∀ d ∈ r.nodes, ID.isUUID d.id = false) :
    (r.nodes.filter fun d => ID.isUUID d.id) = [] := by
  apply List.filter_eq_nil_iff.mpr
  intro d member
  simp [plain d member]

theorem applyDelta_plain (diffed : Diffed r g delta) (plain : ∀ d ∈ r.nodes, ID.isUUID d.id = false)
    (applied : applyDelta ran delta (g.nodes.map NodeRow.dto) nextNode g = .ok x) :
    x.graph.nodes = (g.nodes.filter fun n => ID.row n.id ∈ r.nodes.map (·.id)).map (patched r g) ∧
    ∀ n, ID.row n ∈ r.nodes.map (·.id) → x.nodeIDs (.row n) = n := by
  have none_ := plain_nodes plain
  obtain ⟨nodes,_,kept,_⟩ := applyDelta_ok diffed (by simp [none_]) applied
  refine ⟨?_,fun n listed => ?_⟩
  · rw [nodes,none_,List.map_nil,List.append_nil]
    rfl
  · obtain ⟨d,member,own⟩ := List.mem_map.mp listed
    obtain ⟨row,found,_⟩ := diffed.known d member (plain d member)
    obtain ⟨present,named⟩ := rowOf_some found
    rw [ID.row.inj (own.symm.trans named)]
    exact kept row.id (List.mem_map_of_mem present)

theorem applyDelta_ends (diffed : Diffed r g delta) (plain : ∀ d ∈ r.nodes, ID.isUUID d.id = false)
    (declared : ∀ e ∈ r.edges, e.sourceNodeID ∈ r.nodes.map (·.id) ∧ e.targetNodeID ∈ r.nodes.map (·.id))
    (applied : applyDelta ran delta (g.nodes.map NodeRow.dto) nextNode g = .ok x) (k : ID × ID) :
    k ∈ r.edges.map (·.key) ↔ k ∈ x.graph.edges.map WorkflowEdge.ends := by
  have none_ := plain_nodes plain
  obtain ⟨_,kept⟩ := applyDelta_plain diffed plain applied
  obtain ⟨_,_,_,edges⟩ := applyDelta_ok diffed (by simp [none_]) applied
  have stored : ∀ id ∈ r.nodes.map (·.id), ID.row (x.nodeIDs id) = id := by
    intro id listed
    obtain ⟨d,member,own⟩ := List.mem_map.mp listed
    obtain ⟨row,found,_⟩ := diffed.known d member (plain d member)
    have named : id = .row row.id := own.symm.trans (rowOf_some found).2
    rw [named] at listed ⊢
    rw [kept _ listed]
  have ends : ∀ e ∈ r.edges,
      WorkflowEdge.ends ⟨x.nodeIDs e.sourceNodeID,x.nodeIDs e.targetNodeID⟩ = e.key := by
    intro e member
    obtain ⟨src,dst⟩ := declared e member
    rw [WorkflowEdge.ends,stored _ src,stored _ dst]
    rfl
  have saved := fun e : WorkflowEdge => edges ▸ @mem_saved_edges g r x.nodeIDs e declared kept
  rw [List.mem_map,List.mem_map]
  constructor
  · rintro ⟨e,member,rfl⟩
    exact ⟨_,(saved _).mpr ⟨e,member,rfl⟩,ends e member⟩
  · rintro ⟨_,member,rfl⟩
    obtain ⟨e,asked,rfl⟩ := (saved _).mp member
    exact ⟨e,asked,(ends e asked).symm⟩

theorem updateWorkflow_plain (updated : updateWorkflow env r s = (t,.ok ()))
    (plain : ∀ d ∈ r.nodes, ID.isUUID d.id = false) : ∃ wf wf', s.workflows r.workflowID = some wf ∧
    (∀ d ∈ r.nodes, ∃ row, rowOf wf.graph d.id = some row ∧ row.category = d.category ∧
      row.nodeType = d.nodeType ∧ d.position.isSome ∧ d.config.isSome) ∧
    t.workflows r.workflowID = some wf' ∧ (r.name,r.description) = (wf'.name,wf'.description) ∧
      wf'.graph.nodes = (wf.graph.nodes.filter fun n => ID.row n.id ∈ r.nodes.map (·.id)).map (patched r wf.graph) ∧
      ∀ k, k ∈ r.edges.map (·.key) ↔ k ∈ wf'.graph.edges.map WorkflowEdge.ends := by
  unfold updateWorkflow at updated
  split at updated
  next => simp at updated
  next u plan planned =>
    obtain ⟨valid,wf,_,stored,existing,_⟩ := planUpdate_ok planned
    have quiet := planUpdate_quiet env r s
    rw [planned] at quiet
    obtain ⟨mid,between,graph,_⟩ := quiet.graph stored
    obtain ⟨x,wf',applied,after,graph',_,_,_,_,names⟩ := writeUpdate_ok updated between
    rw [existing,graph] at applied
    have diffed := plan_diffed planned stored
    obtain ⟨name,description⟩ := quiet.names stored between
    rw [name,description,plan_names planned stored] at names
    refine ⟨wf,wf',stored,fun d member => ?_,after,names.symm,?_,?_⟩
    · obtain ⟨row,found,category,nodeType,placed⟩ := diffed.known d member (plain d member)
      obtain ⟨c,given⟩ := validateNode_config ((validateRequest_ok valid).2 d member)
      exact ⟨row,found,category,nodeType,placed,by rw [given]; rfl⟩
    · rw [graph']
      exact (applyDelta_plain diffed plain applied).1
    · rw [graph']
      exact applyDelta_ends diffed plain (validated_ends valid) applied

end Saved

section Repeated

variable {env : Env} {r : UpdateRequest} {s t : Store} {wf wf' : Workflow} {g : Graph} {d : WorkflowNodeDTO}
  {row : NodeRow}

theorem keyed_config (given : d.config.isSome) :
    (d.withIDs r).config.map Config.stored = some (storedConfig (d.withIDs r).config) := by
  obtain ⟨c,given⟩ := Option.isSome_iff_exists.mp given
  simp [WorkflowNodeDTO.withIDs,storedConfig,given]

/-- The patched row is the node exactly when its new config, if any, has the keys. -/
theorem patched_dto (consistent : Consistent r) (member : d ∈ r.nodes) (found : rowOf g d.id = some row)
    (kind : row.category = d.category ∧ row.nodeType = d.nodeType) (placed : d.position.isSome)
    (given : d.config.isSome) : d = (patched r g row).dto ↔
      (changed g d = true → d.config = (d.withIDs r).config.map Config.stored) := by
  obtain ⟨config,position⟩ := patched_kept consistent member found placed
  rw [keyed_config given]
  constructor
  · intro same changes
    have own : d.config = some (patched r g row).config := congrArg WorkflowNodeDTO.config same
    rw [own,config,if_pos changes]
  · intro keyed
    have own : d.config = some (patched r g row).config := by
      rw [config]
      cases changes : changed g d with
      | true => exact keyed changes
      | false => exact changed_false found changes
    have id : d.id = .row (patched r g row).id := by rw [patched_id,(rowOf_some found).2]
    rw [NodeRow.dto,← id,patched_kind.1,kind.1,patched_kind.2,kind.2,← own,← position]

/-- The saved workflow is what was asked for exactly when the save was repeatable. -/
theorem depicts_iff (known : ∀ d ∈ r.nodes, ∃ row, rowOf wf.graph d.id = some row ∧ row.category = d.category ∧
      row.nodeType = d.nodeType ∧ d.position.isSome ∧ d.config.isSome)
    (names : (r.name,r.description) = (wf'.name,wf'.description))
    (nodes : wf'.graph.nodes =
      (wf.graph.nodes.filter fun n => ID.row n.id ∈ r.nodes.map (·.id)).map (patched r wf.graph))
    (edges : ∀ k, k ∈ r.edges.map (·.key) ↔ k ∈ wf'.graph.edges.map WorkflowEdge.ends) :
    Depicts r wf' ↔ Repeatable r wf.graph := by
  constructor
  · intro depicts
    have consistent : Consistent r := by
      intro d member e other same
      obtain ⟨row,stored,rfl⟩ := depicts.nodes d member
      obtain ⟨row',stored',rfl⟩ := depicts.nodes e other
      rw [List.inj_on_of_nodup_map wf'.graph.nodeKey stored stored' (ID.row.inj same)]
    refine ⟨consistent,fun d member => ?_⟩
    obtain ⟨row,found,category,nodeType,placed,given⟩ := known d member
    apply (patched_dto consistent member found ⟨category,nodeType⟩ placed given).mp
    obtain ⟨after,stored,same⟩ := depicts.nodes d member
    rw [nodes] at stored
    obtain ⟨before,kept,rfl⟩ := List.mem_map.mp stored
    have own : d.id = .row before.id := by
      rw [same]
      exact congrArg ID.row patched_id
    have is := rowOf_row (List.mem_filter.mp kept).1
    rw [← own,found] at is
    exact Option.some.inj is ▸ same
  · intro repeatable
    obtain ⟨name,description⟩ := Prod.mk.inj names
    refine ⟨name,description,fun d member => ?_,fun after stored => ?_,edges⟩
    · obtain ⟨row,found,category,nodeType,placed,given⟩ := known d member
      obtain ⟨present,own⟩ := rowOf_some found
      refine ⟨patched r wf.graph row,?_,?_⟩
      · rw [nodes]
        refine List.mem_map_of_mem (List.mem_filter.mpr ⟨present,decide_eq_true ?_⟩)
        exact own ▸ List.mem_map_of_mem member
      · exact (patched_dto repeatable.consistent member found ⟨category,nodeType⟩ placed given).mpr
          (repeatable.keyed d member)
    · rw [nodes] at stored
      obtain ⟨before,kept,rfl⟩ := List.mem_map.mp stored
      rw [patched_id]
      exact of_decide_eq_true (List.mem_filter.mp kept).2

/-- After a save without new nodes the same request, accepted once more, is a no-op exactly
when it lists a node, its listings of a node agree, and every config that it changed had the
service's keys already. -/
theorem repeated_iff (updated : updateWorkflow env r s = (t,.ok ()))
    (plain : ∀ d ∈ r.nodes, ID.isUUID d.id = false) : ∃ wf, s.workflows r.workflowID = some wf ∧
      ∀ env', NoOp env' r t ↔ validateRequest env' r.nodes r.edges = .ok () ∧ env'.answers .graph = true ∧
        r.nodes ≠ [] ∧ Repeatable r wf.graph := by
  obtain ⟨wf,wf',stored,known,after,names,nodes,edges⟩ := updateWorkflow_plain updated plain
  refine ⟨wf,stored,fun env' => ?_⟩
  have some_ : wf'.graph.nodes ≠ [] ↔ r.nodes ≠ [] := by
    constructor
    · rintro some_ none_
      exact some_ (by simp [nodes,none_])
    · intro some_
      obtain ⟨d,member⟩ := List.exists_mem_of_ne_nil _ some_
      obtain ⟨row,found,_⟩ := known d member
      obtain ⟨present,own⟩ := rowOf_some found
      rw [nodes]
      refine List.ne_nil_of_mem (List.mem_map_of_mem (List.mem_filter.mpr ⟨present,decide_eq_true ?_⟩))
      exact own ▸ List.mem_map_of_mem member
  rw [noOp_iff after,depicts_iff known names nodes edges,some_]

instance (r : UpdateRequest) : Decidable (Consistent r) :=
  inferInstanceAs (Decidable (∀ d ∈ r.nodes, ∀ e ∈ r.nodes, d.id = e.id → d = e))

instance (r : UpdateRequest) (g : Graph) : Decidable (Repeatable r g) :=
  decidable_of_iff (Consistent r ∧ ∀ d ∈ r.nodes, changed g d = true →
      d.config = (d.withIDs r).config.map Config.stored)
    ⟨fun ⟨consistent,keyed⟩ => ⟨consistent,keyed⟩,fun ⟨consistent,keyed⟩ => ⟨consistent,keyed⟩⟩

/-- The save that makes the reminder weekly. -/
def toWeekly (config : Config) : UpdateRequest := ⟨"alice",1,"reminder","a weekly mail",
  [⟨.row 1,.trigger,"schedule",some config,some ⟨0,0⟩⟩,mail (.row 2)],[⟨"",.row 1,.row 2⟩]⟩

/-- The config as the first save will store it. -/
def weeklyKeyed : Config := { scheduled "weekly" with
  userID := some (.str "alice")
  workflowID := some (.num 1) }

theorem keyed_repeated : NoOp .dated (toWeekly weeklyKeyed)
    (updateWorkflow .dated (toWeekly weeklyKeyed) reminderStore).1 := by
  have ok : (updateWorkflow .dated (toWeekly weeklyKeyed) reminderStore).2 = .ok () := by decide +kernel
  obtain ⟨wf,stored,exactly⟩ := repeated_iff (reply_ok ok) (by decide)
  refine (exactly .dated).mpr ⟨by decide +kernel,rfl,by decide,?_⟩
  have repeatable : (reminderStore.workflows 1).all (fun wf =>
      decide (Repeatable (toWeekly weeklyKeyed) wf.graph)) = true := by
    decide +kernel
  rw [show reminderStore.workflows 1 = some wf from stored] at repeatable
  exact of_decide_eq_true repeatable

/-- The second save finds the keys that the first one stored and updates the trigger again. -/
theorem weekly_repeated : ¬∀ env r s t, updateWorkflow env r s = (t,.ok ()) → r.nodes ≠ [] →
    (∀ d ∈ r.nodes, ID.isUUID d.id = false) → NoOp env r t := by
  intro all
  have ok : (updateWorkflow .dated (toWeekly (scheduled "weekly")) reminderStore).2 = .ok () := by
    decide +kernel
  obtain ⟨⟨plan,planned,same⟩,_⟩ := all _ _ _ _ (reply_ok ok) (by decide) (by decide)
  have again : (planUpdate .dated (toWeekly (scheduled "weekly"))
      (updateWorkflow .dated (toWeekly (scheduled "weekly")) reminderStore).1).2.toOption.all
        (fun plan => plan.delta.nodesToUpdate ≠ []) = true := by
    decide +kernel
  rw [planned] at again
  exact of_decide_eq_true again same.2.2.1

end Repeated

end TinyAutomator.Workflows
