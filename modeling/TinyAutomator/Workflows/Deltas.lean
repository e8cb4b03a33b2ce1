import TinyAutomator.Workflows.Progress

/-! When the statements of a save go through, and when they leave the graph as it is. -/
namespace TinyAutomator.Workflows

/-- The request drops a stored node that has run. -/
def Blocked (ran : NodeID → Bool) (r : UpdateRequest) (g : Graph) : Prop :=
  ∃ n ∈ g.ids, ID.row n ∉ r.nodes.map (·.id) ∧ ran n = true

/-- The numbers of the new nodes are not those of nodes that stay. -/
def FreeNumbers (r : UpdateRequest) (g : Graph) (nextNode : NodeID) : Prop :=
  ∀ k < (r.nodes.filter fun d => ID.isUUID d.id).length,
    ∀ n ∈ g.ids, ID.row n ∈ r.nodes.map (·.id) → nextNode + k ≠ n

def newEdges (r : UpdateRequest) (g : Graph) : List (ID × ID) :=
  (r.edges.map (·.key)).filter (· ∉ g.edges.map fun e => (ID.row e.sourceNodeID,ID.row e.targetNodeID))

section Transaction

variable {g h : Graph} {r : UpdateRequest} {delta : WorkflowDelta} {x y : Writing} {ran ran' : NodeID → Bool}
  {nextNode : NodeID} {d : WorkflowNodeDTO} {row : NodeRow} {text : String} {id id' : ID}

theorem deleted_ids (diffed : Diffed r g delta)
    (deleted : delta.nodeIDsToDelete.foldlM (fun g id => wrap text (g.deleteWorkflowNode ran id)) g = .ok h) :
    ∀ n, n ∈ h.ids ↔ n ∈ g.ids ∧ ID.row n ∈ r.nodes.map (·.id) := by
  intro n
  have kept : ∀ n ∈ g.ids, n ∉ delta.nodeIDsToDelete ↔ ID.row n ∈ r.nodes.map (·.id) := by
    intro n member
    rw [diffed.delete]
    simp [member]
  rw [Graph.ids,(deleteNodes_ok deleted).1]
  constructor
  · intro member
    obtain ⟨row,stays,rfl⟩ := List.mem_map.mp member
    obtain ⟨stored,spared⟩ := List.mem_filter.mp stays
    have listed := List.mem_map_of_mem (f := fun n : NodeRow => n.id) stored
    exact ⟨listed,(kept _ listed).mp (of_decide_eq_true spared)⟩
  · rintro ⟨stored,listed⟩
    have spared := (kept n stored).mpr listed
    obtain ⟨row,member,rfl⟩ := List.mem_map.mp stored
    exact List.mem_map_of_mem (List.mem_filter.mpr ⟨member,decide_eq_true spared⟩)

/-- A requested id is that of a node that stays, or of a new one with its own number. -/
theorem createNodes_listed (diffed : Diffed r g delta)
    (stays : ∀ n, n ∈ h.ids ↔ n ∈ g.ids ∧ ID.row n ∈ r.nodes.map (·.id)) (free : FreeNumbers r g nextNode)
    (created : (r.nodes.filter fun d => ID.isUUID d.id).foldlM (Writing.createNode text)
      ⟨h,nextNode,existingNodeIDs (g.nodes.map NodeRow.dto)⟩ = .ok y)
    (listed : id ∈ r.nodes.map (·.id)) :
    (∃ n ∈ h.ids, id = .row n ∧ y.nodeIDs id = n) ∨
    ∃ k d, (r.nodes.filter fun d => ID.isUUID d.id)[k]? = some d ∧ d.id = id ∧
      y.nodeIDs id = nextNode + k ∧ nextNode + k ∉ h.ids ∧ nextNode + k ∈ y.graph.ids := by
  obtain ⟨new,old,numbers,_,_⟩ := createNodes_resolve created
  obtain ⟨d,requested,rfl⟩ := List.mem_map.mp listed
  cases uuid : ID.isUUID d.id with
  | true =>
    right
    obtain ⟨k,e,at_,carries,number⟩ := new d.id
      (List.mem_map_of_mem (List.mem_filter.mpr ⟨requested,uuid⟩))
    have below := (List.getElem?_eq_some_iff.mp at_).1
    refine ⟨k,e,at_,carries,number,fun taken => ?_,numbers k below⟩
    obtain ⟨stored,stays⟩ := (stays _).mp taken
    exact free k below _ stored stays rfl
  | false =>
    left
    obtain ⟨row,found,_⟩ := diffed.known d requested uuid
    obtain ⟨stored,own⟩ := rowOf_some found
    have unborn : d.id ∉ (r.nodes.filter fun d => ID.isUUID d.id).map (·.id) := by
      intro born
      obtain ⟨e,born,same⟩ := List.mem_map.mp born
      rw [← same,(List.mem_filter.mp born).2] at uuid
      contradiction
    refine ⟨row.id,(stays _).mpr ⟨List.mem_map_of_mem stored,own ▸ listed⟩,own,?_⟩
    have known : ID.row row.id ∈ (g.nodes.map NodeRow.dto).map (·.id) :=
      List.mem_map.mpr ⟨row.dto,List.mem_map_of_mem stored,rfl⟩
    rw [old _ unborn,own]
    exact if_pos known

theorem createNodes_apart (diffed : Diffed r g delta)
    (stays : ∀ n, n ∈ h.ids ↔ n ∈ g.ids ∧ ID.row n ∈ r.nodes.map (·.id)) (free : FreeNumbers r g nextNode)
    (created : (r.nodes.filter fun d => ID.isUUID d.id).foldlM (Writing.createNode text)
      ⟨h,nextNode,existingNodeIDs (g.nodes.map NodeRow.dto)⟩ = .ok y)
    (listed : id ∈ r.nodes.map (·.id)) (listed' : id' ∈ r.nodes.map (·.id))
    (same : y.nodeIDs id = y.nodeIDs id') : id = id' := by
  rcases createNodes_listed diffed stays free created listed with
    ⟨n,old,rfl,number⟩ | ⟨k,d,at_,carries,number,fresh,_⟩
  · rcases createNodes_listed diffed stays free created listed' with
      ⟨n',_,rfl,number'⟩ | ⟨k',d',_,_,number',fresh',_⟩
    · rw [← number,← number',same]
    · exact absurd (by rwa [← number',← same,number]) fresh'
  · rcases createNodes_listed diffed stays free created listed' with
      ⟨n',old',rfl,number'⟩ | ⟨k',d',at_',carries',number',_,_⟩
    · exact absurd (by rwa [← number,same,number']) fresh
    · have one : k = k' := Nat.add_left_cancel (number.symm.trans (same.trans number'))
      subst one
      cases at_.symm.trans at_'
      exact carries.symm.trans carries'

theorem Diffed.placed (diffed : Diffed r g delta) :
    (∀ d ∈ delta.nodesToUpdate, Placed d) ∧ ∀ d ∈ delta.nodesToUpdateUI, Placed d := by
  have known : ∀ d ∈ r.nodes, (rowOf g d.id).isSome = true → Placed d := by
    intro d requested stored
    obtain ⟨row,found⟩ := Option.isSome_iff_exists.mp stored
    have own := (rowOf_some found).2
    obtain ⟨_,_,_,_,position⟩ := diffed.known d requested (by rw [own]; rfl)
    exact ⟨by rw [own]; rfl,position⟩
  rw [diffed.update,diffed.updateUI]
  refine ⟨List.forall_mem_map.mpr fun d member => ?_,List.forall_mem_map.mpr fun d member => ?_⟩
  · obtain ⟨requested,changes⟩ := List.mem_filter.mp member
    exact known d requested (Option.isSome_of_any changes)
  · obtain ⟨requested,moves⟩ := List.mem_filter.mp member
    obtain ⟨id,position⟩ := known d requested (Option.isSome_of_any moves)
    exact ⟨by rwa [sent_id],by rwa [sent_position]⟩

theorem createEdges_distinct (diffed : Diffed r g delta)
    (stays : ∀ n, n ∈ h.ids ↔ n ∈ g.ids ∧ ID.row n ∈ r.nodes.map (·.id)) (free : FreeNumbers r g nextNode)
    (created : (r.nodes.filter fun d => ID.isUUID d.id).foldlM (Writing.createNode text)
      ⟨h,nextNode,existingNodeIDs (g.nodes.map NodeRow.dto)⟩ = .ok y)
    (ends : ∀ e ∈ r.edges, e.sourceNodeID ∈ r.nodes.map (·.id) ∧ e.targetNodeID ∈ r.nodes.map (·.id))
    {cut : Graph} (ids : cut.ids = y.graph.ids)
    (edges : ∀ e ∈ cut.edges, e ∈ g.edges ∧ e.sourceNodeID ∈ h.ids ∧ e.targetNodeID ∈ h.ids) :
    (∃ z, (newEdges r g).foldlM Writing.createEdge { y with graph := cut } = .ok z) ↔ (newEdges r g).Nodup := by
  obtain ⟨_,_,_,kept,_⟩ := createNodes_resolve created
  have listed : ∀ e ∈ newEdges r g, e.1 ∈ r.nodes.map (·.id) ∧ e.2 ∈ r.nodes.map (·.id) := by
    intro e member
    obtain ⟨asked,_⟩ := List.mem_filter.mp member
    obtain ⟨f,asked',rfl⟩ := List.mem_map.mp asked
    exact ends f asked'
  have stored : ∀ id ∈ r.nodes.map (·.id), y.nodeIDs id ∈ cut.ids := by
    intro id member
    rw [ids]
    rcases createNodes_listed diffed stays free created member with ⟨n,old,_,number⟩ | ⟨k,_,_,_,number,_,new⟩
    · exact number ▸ kept n old
    · exact number ▸ new
  have old : ∀ id ∈ r.nodes.map (·.id), y.nodeIDs id ∈ h.ids → id = .row (y.nodeIDs id) := by
    intro id member there
    rcases createNodes_listed diffed stays free created member with ⟨n,_,is,number⟩ | ⟨k,_,_,_,number,fresh,_⟩
    · rw [number,is]
    · exact absurd (number ▸ there) fresh
  rw [createEdges_iff]
  constructor
  · rintro ⟨distinct,_⟩
    exact List.Nodup.of_map _ (List.nodup_append.mp distinct).2.1
  · intro distinct
    refine ⟨List.nodup_append.mpr ⟨cut.edgeKey,distinct.map_on ?_,?_⟩,fun e member => ?_⟩
    · intro e member e' member' same
      obtain ⟨source,target⟩ := WorkflowEdge.mk.inj same
      exact Prod.ext
        (createNodes_apart diffed stays free created (listed e member).1 (listed e' member').1 source)
        (createNodes_apart diffed stays free created (listed e member).2 (listed e' member').2 target)
    · rintro e member _ new rfl
      obtain ⟨f,asked,same⟩ := List.mem_map.mp new
      obtain ⟨source,target⟩ := listed f asked
      obtain ⟨known,fromSource,fromTarget⟩ := edges e member
      subst same
      refine of_decide_eq_true (List.mem_filter.mp asked).2 (List.mem_map.mpr ⟨_,known,?_⟩)
      exact Prod.ext (old f.1 source fromSource).symm (old f.2 target fromTarget).symm
    · exact ⟨stored _ (listed e member).1,stored _ (listed e member).2⟩

/-- The statements of a save go through exactly when no run and no new row stands in their
way. -/
theorem applyDelta_iff (diffed : Diffed r g delta)
    (ends : ∀ e ∈ r.edges, e.sourceNodeID ∈ r.nodes.map (·.id) ∧ e.targetNodeID ∈ r.nodes.map (·.id)) :
    (∃ x, applyDelta ran delta (g.nodes.map NodeRow.dto) nextNode g = .ok x) ↔ ¬Blocked ran r g ∧
      (∀ d ∈ r.nodes, ID.isUUID d.id = true → Storable d) ∧ FreeNumbers r g nextNode ∧
      (newEdges r g).Nodup := by
  have deletes : ∀ text, (∃ h, delta.nodeIDsToDelete.foldlM
      (fun g id => wrap text (g.deleteWorkflowNode ran id)) g = .ok h) ↔ ¬Blocked ran r g := by
    intro text
    rw [deleteNodes_iff,diffed.delete]
    constructor
    · rintro free ⟨n,stored,dropped,held⟩
      rw [free n (List.mem_filter.mpr ⟨stored,decide_eq_true dropped⟩) stored] at held
      contradiction
    · intro free n member stored
      obtain ⟨_,dropped⟩ := List.mem_filter.mp member
      exact Bool.eq_false_iff.mpr fun held => free ⟨n,stored,of_decide_eq_true dropped,held⟩
  have storable : (∀ d ∈ r.nodes.filter fun d => ID.isUUID d.id, Storable d) ↔
      ∀ d ∈ r.nodes, ID.isUUID d.id = true → Storable d := by
    simp only [List.mem_filter,and_imp]
  have numbers : ∀ {h : Graph}, (∀ n, n ∈ h.ids ↔ n ∈ g.ids ∧ ID.row n ∈ r.nodes.map (·.id)) →
      ((∀ k < (r.nodes.filter fun d => ID.isUUID d.id).length, nextNode + k ∉ h.ids) ↔
        FreeNumbers r g nextNode) := by
    intro h stays
    constructor
    · rintro free k below n stored listed rfl
      exact free k below ((stays _).mpr ⟨stored,listed⟩)
    · intro free k below taken
      exact free k below _ ((stays _).mp taken).1 ((stays _).mp taken).2 rfl
  unfold applyDelta
  constructor
  · rintro ⟨x,applied⟩
    obtain ⟨deleted,delete,applied⟩ := Fold.bind_ok.mp applied
    obtain ⟨created,create,applied⟩ := Fold.bind_ok.mp applied
    obtain ⟨updated,update,applied⟩ := Fold.bind_ok.mp applied
    obtain ⟨placed,move,applied⟩ := Fold.bind_ok.mp applied
    obtain ⟨cut,cutting,add⟩ := Fold.bind_ok.mp applied
    have stays := deleted_ids diffed delete
    rw [diffed.create] at create
    obtain ⟨all,fresh⟩ := createNodes_iff.mp ⟨created,create⟩
    refine ⟨(deletes _).mp ⟨deleted,delete⟩,storable.mp all,(numbers stays).mp fresh,?_⟩
    rw [diffed.add] at add
    have distinct := (createEdges_iff.mp ⟨x,add⟩).1
    exact List.Nodup.of_map _ (List.nodup_append.mp distinct).2.1
  · rintro ⟨unblocked,all,free,distinct⟩
    obtain ⟨deleted,delete⟩ := (deletes "db error delete workflow node: ").mpr unblocked
    have stays := deleted_ids diffed delete
    obtain ⟨created,create⟩ := (@createNodes_iff
      ⟨deleted,nextNode,existingNodeIDs (g.nodes.map NodeRow.dto)⟩ _ "db error create workflow node: ").mpr
        ⟨storable.mpr all,(numbers stays).mpr free⟩
    obtain ⟨updated,update⟩ := @updateNodes_placed delta.nodesToUpdate created.graph diffed.placed.1
    obtain ⟨placed,move⟩ := @updateNodesUI_placed delta.nodesToUpdateUI updated diffed.placed.2
    obtain ⟨cut,cutting⟩ := @deleteEdges_rows placed (g.edges.filter fun e =>
      (ID.row e.sourceNodeID,ID.row e.targetNodeID) ∉ r.edges.map (·.key))
    have ids : cut.ids = created.graph.ids := by
      rw [Graph.ids,(deleteEdges_ok cutting).1,(updateNodesUI_ok move).1,(updateNodes_ok update).1]
      simp only [List.map_map]
      refine List.map_congr_left fun row _ => ?_
      exact (place_targets.foldl_id).trans configure_targets.foldl_id
    have edges : ∀ e ∈ cut.edges, e ∈ g.edges ∧ e.sourceNodeID ∈ deleted.ids ∧ e.targetNodeID ∈ deleted.ids := by
      intro e member
      have same : created.graph.edges = deleted.edges := (createNodes_resolve create).2.2.2.2
      rw [(deleteEdges_ok cutting).2,(updateNodesUI_ok move).2,(updateNodes_ok update).2,same] at member
      obtain ⟨left,_⟩ := List.mem_filter.mp member
      refine ⟨?_,deleted.endpoints e left⟩
      rw [(deleteNodes_ok delete).2] at left
      exact (List.mem_filter.mp left).1
    obtain ⟨x,add⟩ := (createEdges_distinct diffed stays free create ends ids edges).mpr distinct
    rw [← diffed.create] at create
    rw [← diffed.cut] at cutting
    rw [newEdges,← diffed.add] at add
    refine ⟨x,Fold.bind_ok.mpr ⟨deleted,delete,Fold.bind_ok.mpr ⟨created,create,?_⟩⟩⟩
    exact Fold.bind_ok.mpr ⟨updated,update,Fold.bind_ok.mpr ⟨placed,move,Fold.bind_ok.mpr ⟨cut,cutting,add⟩⟩⟩

theorem applyDelta_ran (diffed : Diffed r g delta) (free : ¬Blocked ran r g) (free' : ¬Blocked ran' r g) :
    applyDelta ran delta (g.nodes.map NodeRow.dto) nextNode g =
      applyDelta ran' delta (g.nodes.map NodeRow.dto) nextNode g := by
  have spared : ∀ {ran}, ¬Blocked ran r g → ∀ n ∈ delta.nodeIDsToDelete, n ∈ g.ids → ran n = false := by
    intro ran free n member stored
    rw [diffed.delete] at member
    have dropped := of_decide_eq_true (List.mem_filter.mp member).2
    exact Bool.eq_false_iff.mpr fun held => free ⟨n,stored,dropped,held⟩
  rw [applyDelta,deleteNodes_eq (spared free) (spared free'),applyDelta]

end Transaction

section Echo

variable {g : Graph} {r : UpdateRequest} {delta : WorkflowDelta} {x : Writing} {ran : NodeID → Bool}
  {nextNode : NodeID} {d : WorkflowNodeDTO} {row : NodeRow} {nodes : List WorkflowNodeDTO}

/-- A request that asks for the stored graph. Of the entries of a node that differ from its config
the last one counts, with the keys that the service adds. -/
structure Echoes (r : UpdateRequest) (g : Graph) : Prop where
  known : ∀ d ∈ r.nodes, ID.isUUID d.id = false
  all : ∀ n ∈ g.ids, ID.row n ∈ r.nodes.map (·.id)
  unmoved : ∀ d ∈ r.nodes, moved g d = false
  config : ∀ row ∈ g.nodes, ∀ d, ((r.nodes.filter (changed g)).filter (·.id = .row row.id)).getLast? = some d →
    storedConfig (d.withIDs r).config = row.config
  edges : ∀ e, e ∈ r.edges.map (·.key) ↔ e ∈ g.edges.map fun e => (ID.row e.sourceNodeID,ID.row e.targetNodeID)

theorem configures_config : (nodes.foldl configure row).config =
    (((nodes.filter (·.id = .row row.id)).getLast?).map fun d => storedConfig d.config).getD row.config := by
  induction nodes using List.reverseRecOn with
  | nil => rfl
  | append_singleton nodes d ih =>
    have id : (nodes.foldl configure row).id = row.id := configure_targets.foldl_id
    rw [List.foldl_append,List.foldl_cons,List.foldl_nil,List.filter_append,configure,id]
    by_cases own : d.id = .row row.id
    · simp [own]
    · simp [own,ih]

theorem configures_position (same : ∀ d ∈ nodes, d.id = .row row.id → d.position = some row.position) :
    (nodes.foldl configure row).position = row.position := by
  induction nodes using List.reverseRecOn with
  | nil => rfl
  | append_singleton nodes d ih =>
    have id : (nodes.foldl configure row).id = row.id := configure_targets.foldl_id
    have before := ih fun e member => same e (List.mem_append_left _ member)
    rw [List.foldl_append,List.foldl_cons,List.foldl_nil,configure,id]
    split
    next own => simp [same d (by simp) own]
    next => exact before

theorem places_position {p : Position → Prop}
    (given : ∀ d ∈ nodes, d.id = .row row.id → ∃ after, d.position = some after ∧ p after)
    (own : ∃ d ∈ nodes, d.id = .row row.id) : p (nodes.foldl place row).position := by
  induction nodes using List.reverseRecOn with
  | nil => simp at own
  | append_singleton nodes d ih =>
    have id : (nodes.foldl place row).id = row.id := place_targets.foldl_id
    rw [List.foldl_append,List.foldl_cons,List.foldl_nil,place,id]
    split
    next last =>
      obtain ⟨after,position,holds⟩ := given d (by simp) last
      simpa [position] using holds
    next other =>
      obtain ⟨e,member,own⟩ := own
      rcases List.mem_append.mp member with before | last
      · exact ih (fun e member => given e (List.mem_append_left _ member)) ⟨e,before,own⟩
      · rw [List.mem_singleton.mp last] at own
        exact absurd own other

theorem moved_apart (moves : moved g d = true) (stored : row ∈ g.nodes) (own : d.id = .row row.id) :
    ∃ after, d.position = some after ∧ after ≠ row.position := by
  rw [moved,own,rowOf_row stored,Option.any_some] at moves
  obtain ⟨after,position,differs⟩ := (Option.any_eq_true _ _).mp moves
  refine ⟨after,position,?_⟩
  rintro rfl
  simp at differs

theorem patched_same (diffed : Diffed r g delta)
    (stored : row ∈ g.nodes) : patched r g row = row ↔
      (∀ d ∈ r.nodes, d.id = .row row.id → moved g d = false) ∧
      ∀ d, ((r.nodes.filter (changed g)).filter (·.id = .row row.id)).getLast? = some d →
        storedConfig (d.withIDs r).config = row.config := by
  have config : (patched r g row).config =
      (((r.nodes.filter (changed g)).filter (·.id = .row row.id)).getLast?.map
        fun d => storedConfig (d.withIDs r).config).getD row.config := by
    have placed : ∀ (l : List WorkflowNodeDTO) row, (l.foldl place row).config = row.config := by
      intro l
      induction l with
      | nil => exact fun _ => rfl
      | cons d rest ih =>
        intro row
        rw [List.foldl_cons,ih,place]
        split <;> rfl
    rw [patched,placed,configures_config,List.filter_map,List.getLast?_map,Option.map_map]
    rfl
  constructor
  · intro same
    refine ⟨fun d member own => ?_,fun d last => ?_⟩
    · by_contra moves
      have apart : (patched r g row).position ≠ row.position := by
        rw [patched]
        refine places_position (p := (· ≠ row.position)) ?_ ?_
        · rw [configure_targets.foldl_id]
          refine List.forall_mem_map.mpr fun e member own => ?_
          rw [sent_id] at own
          rw [sent_position]
          exact moved_apart (List.mem_filter.mp member).2 stored own
        · rw [configure_targets.foldl_id]
          refine ⟨_,List.mem_map_of_mem (List.mem_filter.mpr ⟨member,by simpa using moves⟩),?_⟩
          rw [sent_id]
          exact own
      exact apart (congrArg NodeRow.position same)
    · rw [last,Option.map_some,Option.getD_some] at config
      rw [← config,same]
  · rintro ⟨unmoved,settled⟩
    have still : patched r g row = ((r.nodes.filter (changed g)).map (·.withIDs r)).foldl configure row := by
      refine place_targets.foldl_apart ?_
      rw [configure_targets.foldl_id]
      refine List.forall_mem_map.mpr fun d member own => ?_
      obtain ⟨requested,moves⟩ := List.mem_filter.mp member
      rw [unmoved d requested (sent_id.symm.trans own)] at moves
      contradiction
    have position : (patched r g row).position = row.position := by
      rw [still]
      refine configures_position (List.forall_mem_map.mpr fun d member own => ?_)
      have requested := (List.mem_filter.mp member).1
      have own : d.id = .row row.id := own
      obtain ⟨_,_,_,_,given⟩ := diffed.known d requested (by rw [own]; rfl)
      obtain ⟨after,given⟩ := Option.isSome_iff_exists.mp given
      have same := unmoved d requested own
      rw [moved,own,rowOf_row stored,Option.any_some,given,Option.any_some] at same
      have same : row.position = after := by
        simp only [ne_eq,decide_not,Bool.decide_or,Bool.or_eq_false_iff,Bool.not_eq_false',decide_eq_true_eq] at same
        cases after
        exact Position.mk.injEq .. ▸ same
      exact given.trans (congrArg some same.symm)
    have settled : (patched r g row).config = row.config := by
      rw [config]
      cases last : ((r.nodes.filter (changed g)).filter (·.id = .row row.id)).getLast? with
      | none => rfl
      | some d => exact settled d last
    obtain ⟨category,nodeType⟩ := @patched_kind g r row
    have fields : ∀ a b : NodeRow, a.id = b.id → a.category = b.category → a.nodeType = b.nodeType →
        a.config = b.config → a.position = b.position → a = b := by
      rintro ⟨⟨⟩⟩ ⟨⟨⟩⟩ ⟨⟩ ⟨⟩ ⟨⟩ ⟨⟩ ⟨⟩
      rfl
    exact fields _ _ patched_id category nodeType settled position

theorem applyDelta_numbers (diffed : Diffed r g delta)
    (applied : applyDelta ran delta (g.nodes.map NodeRow.dto) nextNode g = .ok x) :
    ∀ k < (r.nodes.filter fun d => ID.isUUID d.id).length, nextNode + k ∈ x.graph.ids := by
  obtain ⟨deleted,_,applied⟩ := Fold.bind_ok.mp applied
  obtain ⟨created,create,applied⟩ := Fold.bind_ok.mp applied
  obtain ⟨updated,update,applied⟩ := Fold.bind_ok.mp applied
  obtain ⟨placed,move,applied⟩ := Fold.bind_ok.mp applied
  obtain ⟨cut,cutting,add⟩ := Fold.bind_ok.mp applied
  rw [diffed.create] at create
  rw [diffed.cut] at cutting
  have ids : x.graph.ids = created.graph.ids := by
    rw [Graph.ids,(createEdges_ok add).1,(deleteEdges_ok cutting).1,(updateNodesUI_ok move).1,
      (updateNodes_ok update).1]
    simp only [List.map_map]
    refine List.map_congr_left fun row _ => ?_
    exact (place_targets.foldl_id).trans configure_targets.foldl_id
  rw [ids]
  exact (createNodes_resolve create).2.2.1

theorem ends_stored (diffed : Diffed r g delta) (known : ∀ d ∈ r.nodes, ID.isUUID d.id = false) {id : ID}
    (listed : id ∈ r.nodes.map (·.id)) : ∃ n ∈ g.ids, id = .row n := by
  obtain ⟨d,member,rfl⟩ := List.mem_map.mp listed
  obtain ⟨row,found,_⟩ := diffed.known d member (known d member)
  obtain ⟨stored,own⟩ := rowOf_some found
  exact ⟨row.id,List.mem_map_of_mem stored,own⟩

/-- Where nothing is new, the statements leave the listed rows, patched, and the listed edges, and add
the edges that are new. -/
theorem applyDelta_known (diffed : Diffed r g delta) (known : ∀ d ∈ r.nodes, ID.isUUID d.id = false)
    (ends : ∀ e ∈ r.edges, e.sourceNodeID ∈ r.nodes.map (·.id) ∧ e.targetNodeID ∈ r.nodes.map (·.id))
    (applied : applyDelta ran delta (g.nodes.map NodeRow.dto) nextNode g = .ok x) :
    x.graph.nodes = (g.nodes.filter fun n => ID.row n.id ∈ r.nodes.map (·.id)).map (patched r g) ∧
    ∃ new : List WorkflowEdge, x.graph.edges = ((g.edges.filter fun e => ID.row e.sourceNodeID ∈ r.nodes.map (·.id) ∧
          ID.row e.targetNodeID ∈ r.nodes.map (·.id)).filter fun e =>
            (ID.row e.sourceNodeID,ID.row e.targetNodeID) ∈ r.edges.map (·.key)) ++ new ∧
      new.map (fun e => (ID.row e.sourceNodeID,ID.row e.targetNodeID)) = newEdges r g := by
  have none_ : (r.nodes.filter fun d => ID.isUUID d.id) = [] := by
    rw [List.filter_eq_nil_iff]
    intro d member
    simp [known d member]
  obtain ⟨nodes,_,ids,edges⟩ := applyDelta_ok diffed (by rw [none_]; exact List.nodup_nil) applied
  rw [none_,List.map_nil,List.append_nil] at nodes
  refine ⟨nodes,_,edges,?_⟩
  rw [List.map_map]
  refine (List.map_congr_left fun f member => ?_).trans (List.map_id _)
  obtain ⟨asked,_⟩ := List.mem_filter.mp member
  obtain ⟨e,requested,rfl⟩ := List.mem_map.mp asked
  obtain ⟨source,target⟩ := ends e requested
  obtain ⟨n,stored,source⟩ := ends_stored diffed known source
  obtain ⟨m,stored',target⟩ := ends_stored diffed known target
  have key : e.key = (ID.row n,ID.row m) := Prod.ext source target
  simp [key,ids n stored,ids m stored']

/-- Where the sequence is past the stored nodes, the statements of a save leave the graph as it is
exactly when the request asks for it. -/
theorem applyDelta_echoes (diffed : Diffed r g delta) (sequenced : ∀ n ∈ g.ids, n < nextNode)
    (ends : ∀ e ∈ r.edges, e.sourceNodeID ∈ r.nodes.map (·.id) ∧ e.targetNodeID ∈ r.nodes.map (·.id))
    (applied : applyDelta ran delta (g.nodes.map NodeRow.dto) nextNode g = .ok x) :
    x.graph = g ↔ Echoes r g := by
  constructor
  · intro same
    have known : ∀ d ∈ r.nodes, ID.isUUID d.id = false := by
      intro d member
      by_contra uuid
      have new : d ∈ r.nodes.filter fun d => ID.isUUID d.id := List.mem_filter.mpr ⟨member,by simpa using uuid⟩
      have some_ := List.length_pos_of_mem new
      have taken := applyDelta_numbers diffed applied 0 some_
      rw [same] at taken
      exact Nat.lt_irrefl _ (sequenced _ taken)
    obtain ⟨nodes,new,edges,keys⟩ := applyDelta_known diffed known ends applied
    rw [same] at nodes edges
    have listed : ∀ row ∈ g.nodes, ID.row row.id ∈ r.nodes.map (·.id) := by
      have length := congrArg List.length nodes
      rw [List.length_map,eq_comm,List.length_filter_eq_length_iff] at length
      exact fun row member => of_decide_eq_true (length row member)
    have all : ∀ n ∈ g.ids, ID.row n ∈ r.nodes.map (·.id) := List.forall_mem_map.mpr listed
    rw [List.filter_eq_self.mpr fun row member => decide_eq_true (listed row member)] at nodes
    have patched_ : ∀ row ∈ g.nodes, patched r g row = row :=
      List.map_inj_left.mp (nodes.symm.trans (List.map_id _).symm)
    have none_ : new = [] := by
      rw [List.eq_nil_iff_forall_not_mem]
      intro e member
      have fresh : (ID.row e.sourceNodeID,ID.row e.targetNodeID) ∈ newEdges r g := by
        rw [← keys]
        exact List.mem_map_of_mem member
      refine of_decide_eq_true (List.mem_filter.mp fresh).2 (List.mem_map_of_mem ?_)
      rw [edges]
      exact List.mem_append_right _ member
    have asked : newEdges r g = [] := by rw [← keys,none_,List.map_nil]
    refine ⟨known,all,fun d member => ?_,fun row stored => ((patched_same diffed stored).mp (patched_ row stored)).2,
      fun f => ⟨fun requested => ?_,fun stored => ?_⟩⟩
    · cases moves : moved g d with
      | false => rfl
      | true =>
        obtain ⟨row,found⟩ := Option.isSome_iff_exists.mp (Option.isSome_of_any moves)
        obtain ⟨stored,own⟩ := rowOf_some found
        exact moves.symm.trans (((patched_same diffed stored).mp (patched_ row stored)).1 d member own)
    · by_contra unstored
      have new : f ∈ newEdges r g := List.mem_filter.mpr ⟨requested,decide_eq_true unstored⟩
      rw [asked] at new
      contradiction
    · obtain ⟨e,member,rfl⟩ := List.mem_map.mp stored
      rw [none_,List.append_nil] at edges
      rw [edges] at member
      exact of_decide_eq_true (List.mem_filter.mp member).2
  · intro echoes
    obtain ⟨nodes,new,edges,keys⟩ := applyDelta_known diffed echoes.known ends applied
    have asked : newEdges r g = [] := by
      rw [newEdges,List.filter_eq_nil_iff]
      intro f requested
      simpa using (echoes.edges f).mp requested
    have none_ : new = [] := by
      rw [asked] at keys
      exact List.map_eq_nil_iff.mp keys
    have listed : ∀ row ∈ g.nodes, ID.row row.id ∈ r.nodes.map (·.id) := fun row member =>
      echoes.all _ (List.mem_map_of_mem member)
    refine Graph.ext_rows ?_ ?_
    · rw [nodes,List.filter_eq_self.mpr fun row member => decide_eq_true (listed row member)]
      refine (List.map_congr_left fun row stored => ?_).trans (List.map_id _)
      exact (patched_same diffed stored).mpr ⟨fun d member _ => echoes.unmoved d member,echoes.config row stored⟩
    · rw [edges,none_,List.append_nil,List.filter_filter]
      refine List.filter_eq_self.mpr fun e member => ?_
      obtain ⟨source,target⟩ := g.endpoints e member
      have requested := (echoes.edges _).mpr (List.mem_map_of_mem member)
      simp only [echoes.all _ source,echoes.all _ target,requested,and_self,decide_true,Bool.and_self]

end Echo

end TinyAutomator.Workflows
