import TinyAutomator.Canvas
import TinyAutomator.Workflows.Created

/-! The workflow builder: what is drawn on its canvas, the request that its save button sends, and
what the page draws that is opened next. -/
namespace TinyAutomator.Workflows.Builder

open Transition
open TinyAutomator.Canvas (EdgeChange Xyflow Reported removes)

section Canvas

/-- A node of the canvas; `type` is the category of its block. -/
structure CanvasNode extends WorkflowNodeDTO where
  type : Category

structure CanvasEdge where
  id : String
  source : ID
  target : ID

structure Board where
  nodes : List CanvasNode
  edges : List CanvasEdge

/-- The blocks by category and node type. -/
def blockCategories : List (Category × String) :=
  ["schedule","calendar_event","webhook","email_trigger","file_upload"].map (Category.trigger,·) ++
  ["send_email","google_calendar_create_event","send_sms","send_notification","create_task",
    "query_database","transform_data","export_csv","import_data","http_request","api_call",
    "webhook_send","oauth_connect","slack_message","teams_message","push_notification",
    "in_app_notification","create_user","update_user","assign_role","send_welcome_email",
    "track_event","log_metric","generate_report","export_analytics"].map (Category.action,·)

def nodeTypeToBlockMap (nodeType : String) : Option Category :=
  (blockCategories.find? (·.2 = nodeType)).map Prod.fst

/-- Without a block for its type, reading the category of the block throws. -/
def nodeBuilder (node : WorkflowNodeDTO) : Option CanvasNode :=
  (nodeTypeToBlockMap node.nodeType).map (CanvasNode.mk node)

def CanvasNode.sent (n : CanvasNode) : WorkflowNodeDTO := n.toWorkflowNodeDTO

def CanvasEdge.sent (e : CanvasEdge) : WorkflowEdgeDTO := ⟨e.id,e.source,e.target⟩

def CanvasEdge.ends (e : CanvasEdge) : ID × ID := (e.source,e.target)

/-- The page of a stored workflow. -/
def load (dto : WorkflowGraphDTO) : Option Board :=
  (dto.nodes.mapM nodeBuilder).map fun nodes =>
    ⟨nodes,dto.edges.map fun edge => ⟨edge.id,edge.sourceNodeID,edge.targetNodeID⟩⟩

/-- The changes to the nodes that xyflow reports by itself. -/
inductive NodeChange where
  | dimensions (id : ID)
  | position (id : ID) (position : Option Position)
  | select (id : ID) (selected : Bool)
  | remove (id : ID)

/-- The node with this id has a change of type remove. -/
def removesNode (changes : List NodeChange) (id : ID) : Bool :=
  changes.any fun
    | .remove removed => removed = id
    | .dimensions _ | .position _ _ | .select _ _ => false

/-- At most the position of a node has changed. -/
def Moved (n m : CanvasNode) : Prop :=
  ∃ position, m = { n with position := position } ∧ (n.position.isSome = true → position.isSome = true)

/-- What the builder relies on in xyflow. No handle of its nodes has an id, so that an edge is there
already if there is one between the same ends. -/
structure Documented (lib : Xyflow CanvasNode CanvasEdge NodeChange) : Prop where
  nodes : ∀ changes nodes, List.Forall₂ Moved (nodes.filter fun n => !removesNode changes n.id)
    (lib.applyNodeChanges changes nodes)
  edges : lib.Removes CanvasEdge.id CanvasEdge.sent
  adds : ∀ edge edges, edge.source.text ≠ "" → edge.target.text ≠ "" → lib.addEdge edge edges =
    if edge.ends ∈ edges.map CanvasEdge.ends then edges else edges ++ [edge]

variable (lib : Xyflow CanvasNode CanvasEdge NodeChange) (s : Board)

def Board.ids : List ID := s.nodes.map (·.id)

/-- setNodes with a new node behind the others. -/
def Board.onDrop (id : ID) (position : Position) (block : Category × String) : Option Board :=
  (nodeBuilder ⟨id,block.1,block.2,some .blank,some position⟩).map fun node =>
    { s with nodes := s.nodes ++ [node] }

def Board.onNodesChange (changes : List NodeChange) : Board :=
  { s with nodes := lib.applyNodeChanges changes s.nodes }

def Board.onEdgesChange (changes : List (EdgeChange CanvasEdge)) : Board :=
  { s with edges := lib.applyEdgeChanges changes s.edges }

def Board.onConnect (source target : ID) : Board :=
  if source.text = "" ∨ target.text = "" then s
  else { s with edges := lib.addEdge ⟨"e" ++ source.text ++ "-" ++ target.text,source,target⟩ s.edges }

/-- `node.data.config = ...` of the inspector's forms. -/
def Board.configure (id : ID) (config : Config) : Board :=
  { s with nodes := s.nodes.map fun n => if n.id = id then { n with config := some config } else n }

end Canvas

section System

inductive Act where
  | load (dto : WorkflowGraphDTO)
  | onDrop (id : ID) (position : Position) (block : Category × String)
  | onConnect (source target : ID)
  | onNodesChange (changes : List NodeChange)
  | onEdgesChange (changes : List (EdgeChange CanvasEdge))
  | configure (id : ID) (config : Config)

variable (lib : Xyflow CanvasNode CanvasEdge NodeChange)

/-- Only blocks can be dropped. Every node has a handle for edges that leave it, and an action has one
for edges that come in. -/
def step : Act → Board → Option Board
  | .load dto, _ => load dto
  | .onDrop id position block, s => if block ∈ blockCategories then s.onDrop id position block else none
  | .onConnect source target, s =>
    if source ∈ s.ids ∧ (s.nodes.any fun n => n.id = target && n.type = .action) = true then
      some (s.onConnect lib source target)
    else none
  | .onNodesChange changes, s => some (s.onNodesChange lib changes)
  | .onEdgesChange changes, s => some (s.onEdgesChange lib changes)
  | .configure id config, s => some (s.configure id config)

def builder : System Board Act := ⟨⟨[],[]⟩,step lib⟩

/-- The server collects the nodes in a map and its SQL has no ORDER BY: the lists of a workflow come
in any order. -/
def Rendered (env : Env) (w : WorkflowID) (store : Store) (dto : WorkflowGraphDTO) : Prop :=
  ∃ listed, renderWorkflowGraph env w store = .ok listed ∧ dto.name = listed.name ∧
    dto.description = listed.description ∧ dto.nodes.Perm listed.nodes ∧ dto.edges.Perm listed.edges

/-- uuidv4 gives new ids, a page is what the server has rendered, and xyflow reports that a node goes
when its edges have gone. -/
def Genuine : Guard Board Act
  | s, .onDrop id _ _ => id ∉ s.ids
  | _, .load dto => ∃ env w store, Rendered env w store dto
  | s, .onNodesChange changes => ∀ e ∈ s.edges,
      removesNode changes e.source = false ∧ removesNode changes e.target = false
  | _, .onEdgesChange changes => Reported changes
  | _, .onConnect _ _ | _, .configure _ _ => True

/-- What holds of every drawing. -/
structure Drawn (s : Board) : Prop where
  ids : s.ids.Nodup
  joined : ∀ e ∈ s.edges, e.source ∈ s.ids ∧ e.target ∈ s.ids
  once : (s.edges.map CanvasEdge.ends).Nodup
  known : ∀ n ∈ s.nodes, nodeTypeToBlockMap n.nodeType = some n.type
  full : ∀ n ∈ s.nodes, n.config.isSome = true ∧ n.position.isSome = true

end System

section Sessions

variable {lib : Xyflow CanvasNode CanvasEdge NodeChange} {s t : Board} {a : Act} {dto : WorkflowGraphDTO}

theorem nodeBuilder_some {d : WorkflowNodeDTO} {n : CanvasNode} (built : nodeBuilder d = some n) :
    n.sent = d ∧ nodeTypeToBlockMap n.nodeType = some n.type := by
  obtain ⟨type,known,rfl⟩ := Option.map_eq_some_iff.mp built
  exact ⟨rfl,known⟩

theorem mapM_nodeBuilder {listed : List WorkflowNodeDTO} {nodes : List CanvasNode}
    (built : listed.mapM nodeBuilder = some nodes) :
    nodes.map CanvasNode.sent = listed ∧ ∀ n ∈ nodes, nodeTypeToBlockMap n.nodeType = some n.type := by
  induction listed generalizing nodes with
  | nil =>
    cases built
    exact ⟨rfl,by simp⟩
  | cons d rest ih =>
    rw [List.mapM_cons] at built
    obtain ⟨n,first,built⟩ := Option.bind_eq_some_iff.mp built
    obtain ⟨others,rest',built⟩ := Option.bind_eq_some_iff.mp built
    cases built
    obtain ⟨sent,known⟩ := nodeBuilder_some first
    obtain ⟨all,known'⟩ := ih rest'
    exact ⟨by rw [List.map_cons,sent,all],List.forall_mem_cons.mpr ⟨known,known'⟩⟩

theorem load_some (loaded : load dto = some s) : s.nodes.map CanvasNode.sent = dto.nodes ∧
    s.edges.map CanvasEdge.sent = dto.edges ∧ ∀ n ∈ s.nodes, nodeTypeToBlockMap n.nodeType = some n.type := by
  obtain ⟨nodes,built,rfl⟩ := Option.map_eq_some_iff.mp loaded
  obtain ⟨all,known⟩ := mapM_nodeBuilder built
  refine ⟨all,?_,known⟩
  rw [List.map_map]
  exact List.map_id'' (fun _ => rfl) dto.edges

theorem load_total (known : ∀ d ∈ dto.nodes, (nodeTypeToBlockMap d.nodeType).isSome = true) :
    ∃ s, load dto = some s := by
  have parsed : ∀ listed : List WorkflowNodeDTO, (∀ d ∈ listed, (nodeTypeToBlockMap d.nodeType).isSome = true) →
      ∃ nodes, listed.mapM nodeBuilder = some nodes := by
    intro listed known
    induction listed with
    | nil => exact ⟨[],rfl⟩
    | cons d rest ih =>
      obtain ⟨first,known⟩ := List.forall_mem_cons.mp known
      obtain ⟨type,first⟩ := Option.isSome_iff_exists.mp first
      obtain ⟨nodes,rest'⟩ := ih known
      refine ⟨⟨d,type⟩ :: nodes,?_⟩
      rw [List.mapM_cons,nodeBuilder,first,rest']
      rfl
  obtain ⟨nodes,built⟩ := parsed dto.nodes known
  exact ⟨_,by rw [load,built]; rfl⟩

theorem ids_sent (s : Board) : s.ids = (s.nodes.map CanvasNode.sent).map (·.id) := by
  rw [List.map_map]
  rfl

theorem ends_sent (s : Board) : s.edges.map CanvasEdge.ends = (s.edges.map CanvasEdge.sent).map (·.key) := by
  rw [List.map_map]
  rfl

/-- What the server has rendered is a drawing. -/
theorem Drawn.load {env : Env} {w : WorkflowID} {store : Store} (rendered : Rendered env w store dto)
    (loaded : Builder.load dto = some s) : Drawn s := by
  obtain ⟨sentNodes,sentEdges,known⟩ := load_some loaded
  obtain ⟨_,read,_,_,nodes,edges⟩ := rendered
  obtain ⟨wf,_,rfl⟩ := render_ok read
  dsimp only at nodes edges
  have ids : s.ids.Perm (wf.graph.ids.map ID.row) := by
    have same := nodes.map (·.id)
    rw [← sentNodes,← ids_sent,List.map_map] at same
    rw [Graph.ids,List.map_map]
    exact same
  have ends : (s.edges.map CanvasEdge.ends).Perm
      (wf.graph.edges.map fun e => (ID.row e.sourceNodeID,ID.row e.targetNodeID)) := by
    have same := edges.map (·.key)
    rw [← sentEdges,← ends_sent,List.map_map] at same
    exact same
  have named {n : NodeID} (member : n ∈ wf.graph.ids) : ID.row n ∈ s.ids :=
    ids.mem_iff.mpr (List.mem_map_of_mem member)
  refine ⟨?_,fun e member => ?_,?_,known,fun n member => ?_⟩
  · exact ids.nodup_iff.mpr (wf.graph.nodeKey.map fun _ _ => ID.row.inj)
  · have among : e.ends ∈ s.edges.map CanvasEdge.ends := List.mem_map_of_mem member
    obtain ⟨edge,within,same⟩ := List.mem_map.mp (ends.mem_iff.mp among)
    obtain ⟨source,target⟩ := Prod.mk.inj same
    obtain ⟨out,into⟩ := wf.graph.endpoints edge within
    exact ⟨source ▸ named out,target ▸ named into⟩
  · refine ends.nodup_iff.mpr (wf.graph.edgeKey.map fun e f same => ?_)
    obtain ⟨source,target⟩ := Prod.mk.inj same
    rw [WorkflowEdge.mk.injEq]
    exact ⟨ID.row.inj source,ID.row.inj target⟩
  · have among : n.sent ∈ s.nodes.map CanvasNode.sent := List.mem_map_of_mem member
    rw [sentNodes] at among
    obtain ⟨row,_,same⟩ := List.mem_map.mp (nodes.mem_iff.mp among)
    unfold CanvasNode.sent at same
    rw [← same]
    exact ⟨rfl,rfl⟩

variable {id : ID}

theorem Drawn.configure {config : Config} (drawn : Drawn s) : Drawn (s.configure id config) := by
  have ids : (s.configure id config).ids = s.ids := by
    unfold Board.ids Board.configure
    rw [List.map_map]
    refine List.map_congr_left fun n _ => ?_
    dsimp only [Function.comp]
    split <;> rfl
  refine ⟨ids ▸ drawn.ids,fun e member => ids ▸ drawn.joined e member,drawn.once,fun n member => ?_,fun n member => ?_⟩
  · obtain ⟨old,within,rfl⟩ := List.mem_map.mp member
    split
    next => exact drawn.known old within
    next => exact drawn.known old within
  · obtain ⟨old,within,rfl⟩ := List.mem_map.mp member
    split
    next => exact ⟨rfl,(drawn.full old within).2⟩
    next => exact drawn.full old within

theorem Drawn.onDrop {position : Position} {block : Category × String} (drawn : Drawn s) (fresh : id ∉ s.ids)
    (dropped : s.onDrop id position block = some t) : Drawn t := by
  obtain ⟨node,built,rfl⟩ := Option.map_eq_some_iff.mp dropped
  obtain ⟨sent,known⟩ := nodeBuilder_some built
  have ids : Board.ids { s with nodes := s.nodes ++ [node] } = s.ids ++ [id] := by
    unfold Board.ids
    rw [List.map_append]
    exact congrArg (s.nodes.map (·.id) ++ [·]) (congrArg WorkflowNodeDTO.id sent)
  refine ⟨?_,fun e member => ?_,drawn.once,fun n member => ?_,fun n member => ?_⟩
  · rw [ids]
    exact List.nodup_append_comm.mp (List.nodup_cons.mpr ⟨fresh,drawn.ids⟩)
  · rw [ids]
    obtain ⟨out,into⟩ := drawn.joined e member
    exact ⟨List.mem_append_left _ out,List.mem_append_left _ into⟩
  · rcases List.mem_append.mp member with old | new
    · exact drawn.known n old
    · rw [List.mem_singleton.mp new]
      exact known
  · rcases List.mem_append.mp member with old | new
    · exact drawn.full n old
    · rw [List.mem_singleton.mp new]
      unfold CanvasNode.sent at sent
      rw [sent]
      exact ⟨rfl,rfl⟩

theorem Drawn.onConnect {source target : ID} (drawn : Drawn s) (documented : Documented lib)
    (out : source ∈ s.ids) (into : target ∈ s.ids) : Drawn (s.onConnect lib source target) := by
  unfold Board.onConnect
  split
  next => exact drawn
  next named =>
    rw [not_or] at named
    rw [documented.adds _ _ named.1 named.2]
    split
    next => exact drawn
    next apart =>
      refine ⟨drawn.ids,fun e member => ?_,?_,drawn.known,drawn.full⟩
      · rcases List.mem_append.mp member with old | new
        · exact drawn.joined e old
        · rw [List.mem_singleton.mp new]
          exact ⟨out,into⟩
      · rw [List.map_append]
        exact List.nodup_append_comm.mp (List.nodup_cons.mpr ⟨apart,drawn.once⟩)

/-- What is left of the nodes is what it was, up to its position. -/
theorem moved_mem {changes : List NodeChange} {n : CanvasNode} (documented : Documented lib)
    (member : n ∈ (s.onNodesChange lib changes).nodes) : ∃ old ∈ s.nodes, Moved old n := by
  have all := documented.nodes changes s.nodes
  obtain ⟨i,bound,rfl⟩ := List.getElem_of_mem member
  have bound' : i < (s.nodes.filter fun n => !removesNode changes n.id).length := all.length_eq ▸ bound
  exact ⟨_,(List.mem_filter.mp (List.getElem_mem bound')).1,all.get bound' bound⟩

theorem Drawn.onNodesChange {changes : List NodeChange} (drawn : Drawn s) (documented : Documented lib)
    (free : ∀ e ∈ s.edges, removesNode changes e.source = false ∧ removesNode changes e.target = false) :
    Drawn (s.onNodesChange lib changes) := by
  have ids : (s.onNodesChange lib changes).ids = s.ids.filter fun id => !removesNode changes id := by
    have same : List.Forall₂ (fun n m : CanvasNode => n.id = m.id)
        (s.nodes.filter fun n => !removesNode changes n.id) (s.onNodesChange lib changes).nodes :=
      (documented.nodes changes s.nodes).imp fun n m ⟨_,moved,_⟩ => by rw [moved]
    have equal : List.Forall₂ (· = ·) _ _ := List.forall₂_map_left_iff.mpr (List.forall₂_map_right_iff.mpr same)
    rw [List.forall₂_eq_eq_eq] at equal
    unfold Board.ids
    rw [← equal,List.filter_map]
    rfl
  refine ⟨?_,fun e member => ?_,drawn.once,fun n member => ?_,fun n member => ?_⟩
  · rw [ids]
    exact drawn.ids.filter _
  · obtain ⟨out,into⟩ := drawn.joined e member
    obtain ⟨source,target⟩ := free e member
    rw [ids]
    exact ⟨List.mem_filter.mpr ⟨out,by simp [source]⟩,List.mem_filter.mpr ⟨into,by simp [target]⟩⟩
  · obtain ⟨old,within,_,rfl,_⟩ := moved_mem documented member
    exact drawn.known old within
  · obtain ⟨old,within,_,rfl,placed⟩ := moved_mem documented member
    obtain ⟨config,position⟩ := drawn.full old within
    exact ⟨config,placed position⟩

theorem Drawn.onEdgesChange {changes : List (EdgeChange CanvasEdge)} (drawn : Drawn s) (documented : Documented lib)
    (reported : Reported changes) : Drawn (s.onEdgesChange lib changes) := by
  have left := documented.edges changes s.edges reported
  have among : ∀ e ∈ (s.onEdgesChange lib changes).edges, ∃ old ∈ s.edges, old.sent = e.sent := by
    intro e member
    have sent : e.sent ∈ (s.onEdgesChange lib changes).edges.map CanvasEdge.sent := List.mem_map_of_mem member
    obtain ⟨old,kept,same⟩ := List.mem_map.mp (left ▸ sent)
    exact ⟨old,(List.mem_filter.mp kept).1,same⟩
  refine ⟨drawn.ids,fun e member => ?_,?_,drawn.known,drawn.full⟩
  · obtain ⟨old,within,same⟩ := among e member
    obtain ⟨_,source,target⟩ := WorkflowEdgeDTO.mk.inj same
    obtain ⟨out,into⟩ := drawn.joined old within
    exact ⟨source ▸ out,target ▸ into⟩
  · have ends := congrArg (List.map (·.key)) left
    rw [← ends_sent ⟨[],_⟩,List.map_map] at ends
    have once := drawn.once.sublist ((List.filter_sublist (p := fun e => !removes changes e.id)).map CanvasEdge.ends)
    exact ends ▸ once

theorem Drawn.step (drawn : Drawn s) (documented : Documented lib) (genuine : Genuine s a)
    (stepped : Builder.step lib a s = some t) : Drawn t := by
  cases a with
  | load dto =>
    obtain ⟨_,_,_,rendered⟩ := genuine
    exact Drawn.load rendered stepped
  | onDrop id position block =>
    simp only [Builder.step] at stepped
    split at stepped
    next => exact drawn.onDrop genuine stepped
    next => contradiction
  | onConnect source target =>
    simp only [Builder.step] at stepped
    split at stepped
    next handles =>
      cases stepped
      obtain ⟨n,member,is⟩ := List.any_eq_true.mp handles.2
      have target : n.id = target := of_decide_eq_true (Bool.and_eq_true_iff.mp is).1
      exact drawn.onConnect documented handles.1 (target ▸ List.mem_map_of_mem member)
    next => contradiction
  | onNodesChange changes =>
    cases stepped
    exact drawn.onNodesChange documented genuine
  | onEdgesChange changes =>
    cases stepped
    exact drawn.onEdgesChange documented genuine
  | configure id config =>
    cases stepped
    exact drawn.configure

theorem reach_drawn (documented : Documented lib) (run : Reach (builder lib) Genuine s) : Drawn s := by
  have empty : Drawn ⟨[],[]⟩ := ⟨List.nodup_nil,by simp,List.nodup_nil,by simp,by simp⟩
  refine Reach.invariant Drawn empty ?_ run
  intro s a t _ drawn genuine stepped
  exact drawn.step documented genuine stepped

end Sessions

section Created

variable {env : Env} {userID : UserID} {s t : Store} {name description status : String}
  {nodes : List WorkflowNodeDTO} {edges : List WorkflowEdgeDTO} {w : WorkflowID} {nodeIDs : NodeIDMap} {g : Graph}

theorem createGraphNodes_placed {x y : Writing × List WorkflowNode} (empty : x.1.graph.nodes = [])
    (created : nodes.foldlM createGraphNode x = .ok y) :
    List.Forall₂ (fun d row => d.position = some row.position) nodes y.1.graph.nodes := by
  refine Fold.foldlM_ok (fun done y =>
    List.Forall₂ (fun d row => d.position = some row.position) done y.1.graph.nodes) ?_ ?_ created
  · exact empty ▸ .nil
  · intro done d y z placed step
    unfold createGraphNode at step
    split at step
    next => contradiction
    next =>
      split at step
      next => contradiction
      next u inserted =>
        cases step
        obtain ⟨_,nodes,_,given⟩ := createNode_ok inserted
        obtain ⟨position,given⟩ := Option.isSome_iff_exists.mp given
        rw [nodes]
        refine List.rel_append placed (.cons ?_ .nil)
        rw [newRow,given,Option.getD_some]

/-- What a creation has stored when it returns: the rows of its loops. -/
theorem createWorkflow_placed
    (created : createWorkflow env userID name description status nodes edges s = (t,.ok w)) :
    nodes ≠ [] ∧ ∃ wf nodeIDs, t.workflows w = some wf ∧ Inserted nodes edges wf.graph nodeIDs ∧
      List.Forall₂ (fun d row => d.position = some row.position) nodes wf.graph.nodes := by
  obtain ⟨_,rfl,u,listed,rows,executed⟩ := createWorkflow_ok created
  obtain ⟨some_,x,y,wf,first,second,stored,graph,_⟩ := insertWorkflow_loops rows
  obtain ⟨copies,none_,resolves⟩ := createGraphNodes_copies rfl first
  obtain ⟨kept,joined⟩ := createGraphEdges_ok second
  obtain ⟨_,wf',after,core,_⟩ := executeTriggers_ok executed stored
  have same : wf'.graph = y.graph := (core_graph core).trans graph
  refine ⟨some_,wf',x.1.nodeIDs,after,?_,?_⟩
  · rw [same]
    exact ⟨kept ▸ copies,kept ▸ resolves,joined.trans (by rw [none_]; rfl)⟩
  · rw [same,kept]
    exact createGraphNodes_placed rfl first

/-- Where no id comes twice, each node has the row that the map gives for its id. -/
theorem inserted_ids (inserted : Inserted nodes edges g nodeIDs) (distinct : (nodes.map (·.id)).Nodup) :
    ∀ p ∈ nodes.zip g.nodes, p.2.id = nodeIDs p.1.id := by
  intro p member
  have listed : p.1.id ∈ nodes.map (·.id) := List.mem_map_of_mem (List.of_mem_zip member).1
  obtain ⟨q,member',carries,resolved⟩ := inserted.resolves _ listed
  have same : q = p := by
    refine List.inj_on_of_nodup_map (f := fun p => p.1.id) ?_ member' member carries
    rw [zip_ids inserted.copies.length_eq]
    exact distinct
  rw [← same,resolved,← carries]

/-- A node as it comes back from the server. -/
def returned (nodeIDs : NodeIDMap) (d : WorkflowNodeDTO) : WorkflowNodeDTO :=
  { d with id := .row (nodeIDs d.id), config := d.config.map Config.stored }

theorem returned_nodes (inserted : Inserted nodes edges g nodeIDs) (distinct : (nodes.map (·.id)).Nodup)
    (placed : List.Forall₂ (fun d row => d.position = some row.position) nodes g.nodes)
    (full : ∀ d ∈ nodes, d.config.isSome = true) : g.nodes.map NodeRow.dto = nodes.map (returned nodeIDs) := by
  have each : List.Forall₂ (fun row d => row.dto = returned nodeIDs d) g.nodes nodes := by
    refine (List.forall₂_iff_zip.mpr ⟨inserted.copies.length_eq,fun {d row} member => ?_⟩ :
      List.Forall₂ (fun d row => row.dto = returned nodeIDs d) nodes g.nodes).flip
    obtain ⟨category,nodeType,config⟩ := List.forall₂_zip inserted.copies member
    have position := List.forall₂_zip placed member
    have id := inserted_ids inserted distinct (d,row) member
    obtain ⟨c,given⟩ := Option.isSome_iff_exists.mp (full d (List.of_mem_zip member).1)
    unfold NodeRow.dto returned
    rw [id,category,nodeType,config,position,given]
    rfl
  have all : List.Forall₂ (· = ·) (g.nodes.map NodeRow.dto) (nodes.map (returned nodeIDs)) :=
    List.forall₂_map_left_iff.mpr (List.forall₂_map_right_iff.mpr each)
  exact List.forall₂_eq_eq_eq ▸ all

theorem returned_apart (back : g.nodes.map NodeRow.dto = nodes.map (returned nodeIDs)) :
    ((nodes.map (·.id)).map fun id => ID.row (nodeIDs id)).Nodup := by
  have ids : (nodes.map (·.id)).map (fun id => ID.row (nodeIDs id)) = g.ids.map ID.row := by
    have same := congrArg (List.map WorkflowNodeDTO.id) back
    rw [List.map_map,List.map_map] at same
    rw [List.map_map,Graph.ids,List.map_map]
    exact same.symm
  rw [ids]
  exact g.nodeKey.map fun _ _ => ID.row.inj

/-- The node that a page draws. -/
def drawnNode (d : WorkflowNodeDTO) : CanvasNode := ⟨d,(nodeTypeToBlockMap d.nodeType).getD .action⟩

/-- The block of a node follows from what is sent. -/
theorem drawnNode_sent {nodes : List CanvasNode} (known : ∀ n ∈ nodes, nodeTypeToBlockMap n.nodeType = some n.type) :
    (nodes.map CanvasNode.sent).map drawnNode = nodes := by
  rw [List.map_map]
  refine (List.map_congr_left fun n member => ?_).trans (List.map_id nodes)
  have type : (nodeTypeToBlockMap n.sent.nodeType).getD .action = n.type := congrArg (·.getD .action) (known n member)
  dsimp only [Function.comp,drawnNode]
  rw [type]
  rfl

/-- What is drawn, saved and opened is drawn again: each node has got the id of its row. The nodes and
edges come in any order. -/
theorem drawing_returns {lib : Xyflow CanvasNode CanvasEdge NodeChange} (documented : Documented lib) {board : Board}
    (run : Reach (builder lib) Genuine board)
    (created : createWorkflow env userID name description status (board.nodes.map CanvasNode.sent)
      (board.edges.map CanvasEdge.sent) s = (t,.ok w)) {reader : Env} (answers : reader.answers .graph = true) :
    ∃ rename, (board.ids.map rename).Nodup ∧ (∃ dto, renderWorkflowGraph reader w t = .ok dto) ∧
      ∀ dto, Rendered reader w t dto → ∃ page, load dto = some page ∧
        page.nodes.Perm (board.nodes.map fun n =>
          { n with id := rename n.id, config := n.config.map Config.stored }) ∧
        (page.edges.map CanvasEdge.ends).Perm (board.edges.map fun e => (rename e.source,rename e.target)) := by
  have drawn := reach_drawn documented run
  obtain ⟨some_,wf,nodeIDs,stored,inserted,placed⟩ := createWorkflow_placed created
  have distinct := ids_sent board ▸ drawn.ids
  have full : ∀ d ∈ board.nodes.map CanvasNode.sent, d.config.isSome = true := by
    intro d member
    obtain ⟨n,within,rfl⟩ := List.mem_map.mp member
    exact (drawn.full n within).1
  have back := returned_nodes inserted distinct placed full
  have nonempty : wf.graph.nodes ≠ [] := by
    intro none_
    rw [none_] at back
    exact some_ (List.map_eq_nil_iff.mp back.symm)
  have rendered := render_answers answers stored nonempty
  refine ⟨fun id => .row (nodeIDs id),?_,⟨_,rendered⟩,?_⟩
  · rw [ids_sent]
    exact returned_apart back
  · rintro dto ⟨listed,read,_,_,sameNodes,sameEdges⟩
    cases rendered.symm.trans read
    dsimp only at sameNodes sameEdges
    rw [back] at sameNodes
    have known : ∀ d ∈ dto.nodes, (nodeTypeToBlockMap d.nodeType).isSome = true := by
      intro d member
      obtain ⟨_,listed,rfl⟩ := List.mem_map.mp (sameNodes.mem_iff.mp member)
      obtain ⟨n,within,rfl⟩ := List.mem_map.mp listed
      exact Option.isSome_of_eq_some (drawn.known n within)
    obtain ⟨page,loaded⟩ := load_total known
    obtain ⟨nodes,edges,known'⟩ := load_some loaded
    refine ⟨page,loaded,?_,?_⟩
    · have parsed := sameNodes.map drawnNode
      rw [← nodes,drawnNode_sent known',List.map_map,List.map_map] at parsed
      rw [← @drawnNode_sent (board.nodes.map fun n => { n with
        id := .row (nodeIDs n.id), config := n.config.map Config.stored }),List.map_map,List.map_map]
      · exact parsed
      · intro n member
        obtain ⟨n,within,rfl⟩ := List.mem_map.mp member
        exact drawn.known n within
    · have joined := sameEdges.map (·.key)
      rw [← edges,← ends_sent,inserted.edges,List.map_map,List.map_map,List.map_map] at joined
      exact joined

end Created

section Examples

def moved (n : CanvasNode) : NodeChange → CanvasNode
  | .position id (some position) => if id = n.id then { n with position := some position } else n
  | .position _ none | .dimensions _ | .select _ _ | .remove _ => n

/-- The functions of xyflow on the nodes and edges of the builder. -/
def xyflow : Xyflow CanvasNode CanvasEdge NodeChange where
  applyNodeChanges changes nodes := (nodes.filter fun n => !removesNode changes n.id).map (changes.foldl moved)
  applyEdgeChanges := TinyAutomator.Canvas.applyEdgeChanges CanvasEdge.id
  addEdge edge edges :=
    if edge.source.text = "" ∨ edge.target.text = "" ∨ edge.ends ∈ edges.map CanvasEdge.ends then edges
    else edges ++ [edge]

theorem foldl_moved (changes : List NodeChange) (n : CanvasNode) : Moved n (changes.foldl moved n) := by
  induction changes generalizing n with
  | nil => exact ⟨n.position,rfl,id⟩
  | cons change rest ih =>
    obtain ⟨before,same,placed⟩ : Moved n (moved n change) := by
      unfold moved
      split
      next position =>
        split
        next => exact ⟨some position,rfl,fun _ => rfl⟩
        next => exact ⟨n.position,rfl,id⟩
      all_goals exact ⟨n.position,rfl,id⟩
    obtain ⟨after,last,placed'⟩ := ih (moved n change)
    refine ⟨after,?_,fun first => placed' ?_⟩
    · rw [List.foldl_cons,last,same]
    · rw [same]
      exact placed first

theorem xyflow_documented : Documented xyflow where
  nodes changes nodes := by
    refine List.forall₂_map_right_iff.mpr (List.forall₂_same.mpr fun n _ => foldl_moved changes n)
  edges _ edges reported :=
    congrArg (List.map CanvasEdge.sent) (TinyAutomator.Canvas.applyEdgeChanges_reported edges reported)
  adds edge edges source target := by
    refine if_congr ?_ rfl rfl
    simp only [source,target,false_or]

/-- A session on a new workflow. -/
def Unloaded : Guard Board Act
  | s, .onDrop id _ _ => id ∉ s.ids
  | _, .load _ => False
  | s, .onNodesChange changes => ∀ e ∈ s.edges,
      removesNode changes e.source = false ∧ removesNode changes e.target = false
  | _, .onEdgesChange _ | _, .onConnect _ _ | _, .configure _ _ => True

instance (s : Board) (a : Act) : Decidable (Unloaded s a) := by
  cases a <;> unfold Unloaded <;> infer_instance

/-- The part of a session that is not about the board. -/
def Act.Reported : Act → Prop
  | .onEdgesChange changes => TinyAutomator.Canvas.Reported changes
  | _ => True

/-- Of three mails the second is deleted; the others are connected, and one is moved. -/
def sketch : List Act := [.onDrop (.uuid "a") ⟨0,0⟩ (.action,"send_email"),.onDrop (.uuid "b") ⟨0,5⟩ (.action,"send_email"),
  .onConnect (.uuid "a") (.uuid "b"),.onDrop (.uuid "c") ⟨0,9⟩ (.action,"send_email"),.onConnect (.uuid "a") (.uuid "c"),
  .onNodesChange [.select (.uuid "c") true,.position (.uuid "c") (some ⟨4,9⟩)],.onEdgesChange [.remove "ea-b"],
  .onNodesChange [.remove (.uuid "b")]]

def saveSketch (board : Board) : Reply WorkflowID :=
  createWorkflow .calm "alice" "mails" "New Workflow Description" "draft" (board.nodes.map CanvasNode.sent)
    (board.edges.map CanvasEdge.sent) (.fresh fun _ => false)

theorem sketch_returns : ∃ board dto page, Reach (builder xyflow) Genuine board ∧ board.ids = [.uuid "a",.uuid "c"] ∧
    renderWorkflowGraph .calm 1 (saveSketch board).1 = .ok dto ∧ load dto = some page ∧
    (page.nodes.map (·.position)).Perm (board.nodes.map (·.position)) ∧ page.edges.length = board.edges.length := by
  obtain ⟨board,run,ids,saved⟩ := @follow_exists_all Board Act (builder xyflow) Unloaded _ sketch Act.Reported
    (by simp [sketch,Act.Reported,TinyAutomator.Canvas.Reported])
    (fun board => board.ids = [.uuid "a",.uuid "c"] ∧ (saveSketch board).2 = .ok 1) _ (by decide +kernel)
  have genuine : Reach (builder xyflow) Genuine board := by
    refine run.mono fun s a allowed => ?_
    cases a with
    | load => exact allowed.2.elim
    | onDrop | onNodesChange => exact allowed.2
    | onEdgesChange => exact allowed.1
    | onConnect | configure => trivial
  have created : saveSketch board = ((saveSketch board).1,.ok 1) := Prod.ext rfl saved
  obtain ⟨rename,_,⟨dto,read⟩,drawn⟩ := drawing_returns xyflow_documented genuine created
    (rfl : Env.calm.answers .graph = true)
  obtain ⟨page,loaded,nodes,edges⟩ := drawn dto ⟨dto,read,rfl,rfl,.refl _,.refl _⟩
  refine ⟨board,dto,page,genuine,ids,read,loaded,?_,?_⟩
  · have positions := nodes.map (·.position)
    rw [List.map_map] at positions
    exact positions
  · simpa using edges.length_eq

end Examples

end TinyAutomator.Workflows.Builder
