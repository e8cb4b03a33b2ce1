import Mathlib.Data.List.Basic
import TinyAutomator.Lib.Transition

/-! The store of the canvas: the flows by key, and in each the table that says which handles of
which nodes are connected. The table is computed, set and cleared in different places. -/
namespace TinyAutomator.Canvas

open Transition

structure Node where
  id : String
  type : String
  deriving DecidableEq

/-- An edge as the canvas has it; the colour stands for its style and its marker. -/
structure Edge where
  id : String
  source : String
  target : String
  sourceHandle : Option String
  targetHandle : Option String
  edgeColor : String
  deriving DecidableEq

inductive HandleType where
  | source
  | target
  deriving DecidableEq

def Edge.at_ (edge : Edge) : HandleType → String
  | .source => edge.source
  | .target => edge.target

/-- The entry of a node; a handle that has not been set counts as false. -/
abbrev HandleAnimations := String → Option (HandleType → Bool)

structure FlowData where
  nodes : List Node
  edges : Option (List Edge)
  handleAnimations : HandleAnimations

def defaultFlowData : FlowData := ⟨[],some [],fun _ => none⟩

/-- What `...state.flows[key]` spreads where there is no flow. -/
def FlowData.absent : FlowData := ⟨[],none,fun _ => none⟩

structure FlowState where
  flows : String → Option FlowData
  currentKey : Option String

def FlowState.initial : FlowState := ⟨fun _ => none,none⟩

/-- A change of xyflow to the edges. -/
inductive EdgeChange (Edge : Type) where
  | add (item : Edge) (index : Option Nat)
  | remove (id : String)
  | replace (id : String) (item : Edge)
  | select (id : String) (selected : Bool)

structure Connection where
  source : String
  target : String
  sourceHandle : Option String
  targetHandle : Option String

/-- The functions of the library that the store calls. -/
structure Xyflow (Node Edge NodeChange : Type) where
  applyNodeChanges : List NodeChange → List Node → List Node
  applyEdgeChanges : List (EdgeChange Edge) → List Edge → List Edge
  addEdge : Edge → List Edge → List Edge

/-- addEdge appends an edge with two ends, unless there is one between the same ends. -/
def Xyflow.Adds {NodeChange : Type} (lib : Xyflow Node Edge NodeChange) : Prop :=
  ∀ edge edges, edge.source ≠ "" → edge.target ≠ "" → lib.addEdge edge edges = edges ++ [edge] ∨
    lib.addEdge edge edges = edges ∧ ∃ old ∈ edges, old.source = edge.source ∧ old.target = edge.target

/-- An edge of a workflow as the server renders it: its ends are row ids. -/
structure RenderedEdge where
  id : String
  source_node_id : String
  target_node_id : String
  named : source_node_id ≠ "" ∧ target_node_id ≠ ""

section Table

def HandleAnimations.put (animations : HandleAnimations) (nodeId : String) (handleType : HandleType)
    (value : Bool) : HandleAnimations :=
  Function.update animations nodeId
    (some (Function.update ((animations nodeId).getD fun _ => false) handleType value))

def HandleAnimations.lit (animations : HandleAnimations) (handleType : HandleType) (nodeId : String) : Bool :=
  (animations nodeId).any (· handleType)

/-- One of the two statements in the loop of computeHandleAnimations. -/
def mark (handleType : HandleType) (edge : Edge) (animations : HandleAnimations) : HandleAnimations :=
  if edge.at_ handleType ≠ "" then animations.put (edge.at_ handleType) handleType true else animations

def computeHandleAnimations (edges : Option (List Edge)) : HandleAnimations :=
  (edges.getD []).foldl (fun animations edge => mark .target edge (mark .source edge animations)) fun _ => none

/-- One of the two statements in the loop over the removed edges. -/
def clear (newEdges : List Edge) (handleType : HandleType) (edge : Edge) (animations : HandleAnimations) :
    HandleAnimations :=
  let stillHas := newEdges.any fun e => e.at_ handleType = edge.at_ handleType
  if edge.at_ handleType ≠ "" ∧ (animations (edge.at_ handleType)).isSome = true ∧ stillHas = false then
    animations.put (edge.at_ handleType) handleType false
  else animations

end Table

section Store

variable {NodeChange : Type} (lib : Xyflow Node Edge NodeChange)

def edgeColorOf (nodes : List Node) (source : String) : String :=
  match nodes.find? (·.id = source) with
  | some sourceNode =>
    if sourceNode.type = "trigger" then "#d97706"
    else if sourceNode.type = "action" then "#9333ea"
    else "#60a5fa"
  | none => "#60a5fa"

/-- `if (!currentKey) return`. -/
def FlowState.current (s : FlowState) : Option String := s.currentKey.filter (· ≠ "")

/-- `[currentKey]: { ...state.flows[currentKey], ... }`. -/
def FlowState.alter (s : FlowState) (key : String) (f : FlowData → FlowData) : FlowState :=
  { s with flows := Function.update s.flows key (some (f ((s.flows key).getD .absent))) }

def initializeFlow (key : String) (s : FlowState) : FlowState where
  currentKey := some key
  flows := Function.update s.flows key (some ((s.flows key).getD defaultFlowData))

def clearFlow (key : Option String) (s : FlowState) : FlowState :=
  match (key.filter (· ≠ "")).or s.current with
  | none => s
  | some keyToUse => {
      flows := Function.update s.flows keyToUse none
      currentKey := if s.currentKey = some keyToUse then none else s.currentKey }

def setHandleAnimation (nodeId : String) (handleType : HandleType) (value : Bool) (s : FlowState) : FlowState :=
  match s.current with
  | none => s
  | some currentKey => s.alter currentKey fun flowData =>
      { flowData with handleAnimations := flowData.handleAnimations.put nodeId handleType value }

def setNodes (nodes : List Node) (s : FlowState) : FlowState :=
  match s.current with
  | none => s
  | some currentKey => s.alter currentKey fun flowData => { flowData with nodes }

def setEdges (edges : Option (List Edge)) (s : FlowState) : FlowState :=
  match s.current with
  | none => s
  | some currentKey => s.alter currentKey fun flowData =>
      let processedEdges := edges.map fun edges =>
        edges.map fun e => { e with edgeColor := edgeColorOf flowData.nodes e.source }
      { flowData with edges := processedEdges, handleAnimations := computeHandleAnimations processedEdges }

/-- What the routes make of the edges of a workflow: the server sends null for none, and
`workflow.edges?.map` is undefined then. -/
def routeEdges (rendered : List RenderedEdge) : Option (List Edge) :=
  if rendered = [] then none
  else some (rendered.map fun edge =>
    ⟨edge.id,edge.source_node_id,edge.target_node_id,none,none,"#60a5fa"⟩)

def onNodesChange (changes : List NodeChange) (s : FlowState) : FlowState :=
  match s.current with
  | none => s
  | some currentKey =>
    match s.flows currentKey with
    | none => s
    | some flowData => s.alter currentKey fun _ =>
        { flowData with nodes := lib.applyNodeChanges changes flowData.nodes }

/-- The edge with this id has a change of type remove. -/
def removes {Edge : Type} (changes : List (EdgeChange Edge)) (id : String) : Bool :=
  changes.any fun
    | .remove removed => removed = id
    | .add _ _ | .replace _ _ | .select _ _ => false

/-- Without a list of edges applyEdgeChanges throws, and nothing is set. -/
def onEdgesChange (changes : List (EdgeChange Edge)) (s : FlowState) : FlowState :=
  match s.current with
  | none => s
  | some currentKey =>
    match s.flows currentKey with
    | none => s
    | some flowData =>
      match flowData.edges with
      | none => s
      | some edges =>
        let newEdges := lib.applyEdgeChanges changes edges
        let removedEdges := edges.filter fun e => removes changes e.id
        let newHandleAnimations := removedEdges.foldl
          (fun animations edge => clear newEdges .target edge (clear newEdges .source edge animations))
          flowData.handleAnimations
        s.alter currentKey fun _ =>
          { flowData with edges := some newEdges, handleAnimations := newHandleAnimations }

def onConnect (params : Connection) (s : FlowState) : FlowState :=
  if params.source = "" ∨ params.target = "" then s
  else
    match s.current with
    | none => s
    | some currentKey =>
      let s := setHandleAnimation params.target .target true (setHandleAnimation params.source .source true s)
      match s.flows currentKey with
      | none => s
      | some flowData =>
        let newEdge : Edge := {
          id := "e" ++ params.source ++ "-" ++ params.target
          source := params.source
          target := params.target
          sourceHandle := params.sourceHandle
          targetHandle := params.targetHandle
          edgeColor := edgeColorOf flowData.nodes params.source }
        s.alter currentKey fun _ =>
          { flowData with edges := some (lib.addEdge newEdge (flowData.edges.getD [])) }

inductive Op (NodeChange : Type) where
  | initializeFlow (key : String)
  | clearFlow (key : Option String)
  | setNodes (nodes : List Node)
  | setEdges (rendered : List RenderedEdge)
  | onNodesChange (changes : List NodeChange)
  | onEdgesChange (changes : List (EdgeChange Edge))
  | onConnect (params : Connection)

def step : Op NodeChange → FlowState → FlowState
  | .initializeFlow key => initializeFlow key
  | .clearFlow key => clearFlow key
  | .setNodes nodes => setNodes nodes
  | .setEdges rendered => setEdges (routeEdges rendered)
  | .onNodesChange changes => onNodesChange lib changes
  | .onEdgesChange changes => onEdgesChange lib changes
  | .onConnect params => onConnect lib params

def store : System FlowState (Op NodeChange) := ⟨.initial,fun op s => some (step lib op s)⟩

end Store

/-- A handle is lit exactly if an edge ends there. -/
def Animated (edges : List Edge) (animations : HandleAnimations) : Prop :=
  ∀ handleType nodeId, animations.lit handleType nodeId = true ↔ ∃ e ∈ edges, e.at_ handleType = nodeId

/-- The current flow exists, its edges are a list, and its table is that of its edges. -/
def Consistent (s : FlowState) : Prop :=
  ∀ key, s.currentKey = some key → ∃ flowData edges, s.flows key = some flowData ∧
    flowData.edges = some edges ∧ Animated edges flowData.handleAnimations

/-- Where the new edges end an old one ended; where no new edge ends any more, an edge that ended
there has been removed by a change of that type. -/
def Traced (changes : List (EdgeChange Edge)) (edges newEdges : List Edge) : Prop :=
  ∀ handleType, (∀ e ∈ newEdges, ∃ old ∈ edges, old.at_ handleType = e.at_ handleType) ∧
    ∀ old ∈ edges, (∃ e ∈ newEdges, e.at_ handleType = old.at_ handleType) ∨
      ∃ gone ∈ edges, gone.at_ handleType = old.at_ handleType ∧ removes changes gone.id = true

section Animations

variable {animations : HandleAnimations} {h h' : HandleType} {n n' : String} {value : Bool} {edge : Edge}
  {edges newEdges removed : List Edge} {changes : List (EdgeChange Edge)}

@[simp] theorem lit_put : (animations.put n h value).lit h' n' =
    if n' = n ∧ h' = h then value else animations.lit h' n' := by
  unfold HandleAnimations.put HandleAnimations.lit
  by_cases same : n' = n
  · subst same
    by_cases handle : h' = h
    · subst handle
      simp
    · cases entry : animations n' <;> simp [handle]
  · simp [same]

theorem lit_mark : (mark h edge animations).lit h' n = true ↔
    animations.lit h' n = true ∨ h' = h ∧ edge.at_ h = n ∧ n ≠ "" := by
  rw [mark]
  split
  next named =>
    rw [lit_put]
    split
    next there =>
      obtain ⟨rfl,rfl⟩ := there
      simp [named]
    next away =>
      refine ⟨.inl,fun either => either.resolve_right ?_⟩
      rintro ⟨rfl,rfl,_⟩
      exact away ⟨rfl,rfl⟩
  next unnamed =>
    refine ⟨.inl,fun either => either.resolve_right ?_⟩
    rintro ⟨_,rfl,named⟩
    exact unnamed named

/-- What the loop of computeHandleAnimations lights. -/
theorem lit_marks : (edges.foldl (fun animations edge => mark .target edge (mark .source edge animations))
    animations).lit h n = true ↔ animations.lit h n = true ∨ ∃ e ∈ edges, e.at_ h = n ∧ n ≠ "" := by
  induction edges generalizing animations with
  | nil => simp
  | cons edge rest ih =>
    rw [List.foldl_cons,ih,lit_mark,lit_mark]
    cases h <;> simp [or_assoc]

theorem computeHandleAnimations_animated (named : ∀ e ∈ edges, ∀ h, e.at_ h ≠ "") :
    Animated edges (computeHandleAnimations (some edges)) := by
  intro h n
  rw [computeHandleAnimations,Option.getD_some,lit_marks]
  constructor
  · rintro (none_ | ⟨e,member,ends,_⟩)
    · contradiction
    · exact ⟨e,member,ends⟩
  · rintro ⟨e,member,rfl⟩
    exact .inr ⟨e,member,rfl,named e member h⟩

theorem lit_clear : (clear newEdges h edge animations).lit h' n = true ↔
    animations.lit h' n = true ∧
      ¬(h' = h ∧ edge.at_ h = n ∧ n ≠ "" ∧ ¬∃ e ∈ newEdges, e.at_ h = n) := by
  rw [clear]
  split
  next gone =>
    obtain ⟨named,_,none_⟩ := gone
    rw [lit_put]
    split
    next there =>
      obtain ⟨rfl,rfl⟩ := there
      have left : ¬∃ e ∈ newEdges, e.at_ h' = edge.at_ h' := by simpa using none_
      exact ⟨fun impossible => by contradiction,fun both => absurd ⟨rfl,rfl,named,left⟩ both.2⟩
    next away =>
      refine ⟨fun on => ⟨on,?_⟩,And.left⟩
      rintro ⟨rfl,rfl,_⟩
      exact away ⟨rfl,rfl⟩
  next kept =>
    refine ⟨fun on => ⟨on,?_⟩,And.left⟩
    rintro ⟨rfl,rfl,named,none_⟩
    refine kept ⟨named,?_,?_⟩
    · cases entry : animations (edge.at_ h') with
      | none => simp [HandleAnimations.lit,entry] at on
      | some _ => rfl
    · simpa using none_

/-- What the loop over the removed edges leaves lit. -/
theorem lit_clears : (removed.foldl
    (fun animations edge => clear newEdges .target edge (clear newEdges .source edge animations))
    animations).lit h n = true ↔ animations.lit h n = true ∧
      ¬∃ e ∈ removed, e.at_ h = n ∧ n ≠ "" ∧ ¬∃ e ∈ newEdges, e.at_ h = n := by
  induction removed generalizing animations with
  | nil => simp
  | cons edge rest ih =>
    rw [List.foldl_cons,ih,lit_clear,lit_clear]
    cases h <;> simp [and_assoc]

/-- The table after a batch of changes is that of the new edges exactly if these can be traced. -/
theorem animated_iff (animated : Animated edges animations) (named : ∀ e ∈ edges, ∀ h, e.at_ h ≠ "") :
    Animated newEdges ((edges.filter fun e => removes changes e.id).foldl
      (fun animations edge => clear newEdges .target edge (clear newEdges .source edge animations))
      animations) ↔ Traced changes edges newEdges := by
  have lit : ∀ h n, animations.lit h n = true ↔ ∃ e ∈ edges, e.at_ h = n := animated
  simp only [Animated,lit_clears,lit]
  constructor
  · intro table h
    constructor
    · intro e member
      exact ((table h (e.at_ h)).mpr ⟨e,member,rfl⟩).1
    · intro old member
      by_cases still : ∃ e ∈ newEdges, e.at_ h = old.at_ h
      · exact .inl still
      · right
        by_contra unnamed
        refine still ((table h (old.at_ h)).mp ⟨⟨old,member,rfl⟩,?_⟩)
        rintro ⟨gone,removed,ends,_⟩
        obtain ⟨within,removed⟩ := List.mem_filter.mp removed
        exact unnamed ⟨gone,within,ends,removed⟩
  · intro traced h n
    obtain ⟨origin,named_⟩ := traced h
    constructor
    · rintro ⟨⟨old,member,rfl⟩,lost⟩
      by_contra none_
      obtain ⟨gone,within,ends,removed⟩ := (named_ old member).resolve_left none_
      exact lost ⟨gone,List.mem_filter.mpr ⟨within,removed⟩,ends,named old member h,none_⟩
    · rintro ⟨e,member,rfl⟩
      exact ⟨origin e member,fun ⟨_,_,_,_,none_⟩ => none_ ⟨e,member,rfl⟩⟩

end Animations

/-- The edges of the flow are a list, with named ends, and the table is theirs. -/
def Good (flowData : FlowData) : Prop :=
  ∃ edges, flowData.edges = some edges ∧ Animated edges flowData.handleAnimations ∧
    ∀ e ∈ edges, ∀ h, e.at_ h ≠ ""

/-- Every flow is good, not only the current one: a flow can become current again. -/
structure Sound (s : FlowState) : Prop where
  flows : ∀ key flowData, s.flows key = some flowData → Good flowData
  current : ∀ key, s.currentKey = some key → (s.flows key).isSome = true

section Steps

variable {NodeChange : Type} {lib : Xyflow Node Edge NodeChange} {s : FlowState} {key : String} {op : Op NodeChange}

theorem current_some (current : s.current = some key) : s.currentKey = some key := by
  obtain ⟨found,_⟩ := Option.filter_eq_some_iff.mp current
  exact found

theorem Sound.consistent (sound : Sound s) : Consistent s := by
  intro key current
  obtain ⟨flowData,found⟩ := Option.isSome_iff_exists.mp (sound.current key current)
  obtain ⟨edges,list,animated,_⟩ := sound.flows key flowData found
  exact ⟨flowData,edges,found,list,animated⟩

/-- The current flow is there, and it is good. -/
theorem Sound.found (sound : Sound s) (current : s.current = some key) :
    ∃ flowData, s.flows key = some flowData ∧ Good flowData := by
  obtain ⟨flowData,found⟩ := Option.isSome_iff_exists.mp (sound.current key (current_some current))
  exact ⟨flowData,found,sound.flows key flowData found⟩

theorem Sound.update (sound : Sound s) {flowData : FlowData} (good : Good flowData) (currentKey : Option String)
    (there : ∀ other, currentKey = some other → other = key ∨ s.currentKey = some other) :
    Sound ⟨Function.update s.flows key (some flowData),currentKey⟩ := by
  constructor
  · intro other found get
    dsimp only at get
    by_cases same : other = key
    · subst same
      rw [Function.update_self] at get
      cases get
      exact good
    · rw [Function.update_of_ne same] at get
      exact sound.flows other found get
  · intro other current
    dsimp only
    by_cases same : other = key
    · subst same
      rw [Function.update_self]
      rfl
    · rw [Function.update_of_ne same]
      exact sound.current other ((there other current).resolve_left same)

/-- An operation on the current flow that leaves it good. -/
theorem Sound.alter (sound : Sound s) {f : FlowData → FlowData} {flowData : FlowData}
    (found : s.flows key = some flowData) (good : Good (f flowData)) : Sound (s.alter key f) := by
  rw [FlowState.alter,found]
  exact sound.update good s.currentKey fun _ current => .inr current

@[simp] theorem FlowState.current_alter (f : FlowData → FlowData) : (s.alter key f).current = s.current := rfl

@[simp] theorem FlowState.alter_alter (f g : FlowData → FlowData) :
    (s.alter key f).alter key g = s.alter key fun flowData => g (f flowData) := by
  simp [FlowState.alter]

theorem FlowState.alter_found {f : FlowData → FlowData} {flowData : FlowData}
    (found : s.flows key = some flowData) : (s.alter key f).flows key = some (f flowData) := by
  simp [FlowState.alter,found]

theorem setHandleAnimation_current (current : s.current = some key) (nodeId : String) (handleType : HandleType)
    (value : Bool) : setHandleAnimation nodeId handleType value s = s.alter key fun flowData =>
      { flowData with handleAnimations := flowData.handleAnimations.put nodeId handleType value } := by
  rw [setHandleAnimation,current]

theorem setEdges_current (current : s.current = some key) (edges : Option (List Edge)) :
    setEdges edges s = s.alter key fun flowData =>
      let processedEdges := edges.map fun edges =>
        edges.map fun e => { e with edgeColor := edgeColorOf flowData.nodes e.source }
      { flowData with edges := processedEdges, handleAnimations := computeHandleAnimations processedEdges } := by
  rw [setEdges,current]

theorem onEdgesChange_current {flowData : FlowData} {edges : List Edge} (current : s.current = some key)
    (found : s.flows key = some flowData) (list : flowData.edges = some edges) (changes : List (EdgeChange Edge)) :
    onEdgesChange lib changes s = s.alter key fun _ => { flowData with
      edges := some (lib.applyEdgeChanges changes edges)
      handleAnimations := (edges.filter fun e => removes changes e.id).foldl
        (fun animations edge => clear (lib.applyEdgeChanges changes edges) .target edge
          (clear (lib.applyEdgeChanges changes edges) .source edge animations)) flowData.handleAnimations } := by
  rw [onEdgesChange,current]
  dsimp only
  rw [found]
  dsimp only
  rw [list]

theorem Sound.initializeFlow (sound : Sound s) (key : String) : Sound (initializeFlow key s) := by
  refine sound.update ?_ (some key) fun other current => .inl (Option.some.inj current).symm
  cases found : s.flows key with
  | some flowData => exact sound.flows key flowData found
  | none => exact ⟨[],rfl,fun h n => by simp [defaultFlowData,HandleAnimations.lit],by simp⟩

theorem Sound.clearFlow (sound : Sound s) (key : Option String) : Sound (clearFlow key s) := by
  unfold Canvas.clearFlow
  split
  next => exact sound
  next keyToUse _ =>
    constructor
    · intro other flowData get
      dsimp only at get
      by_cases same : other = keyToUse
      · rw [same,Function.update_self] at get
        contradiction
      · rw [Function.update_of_ne same] at get
        exact sound.flows other flowData get
    · intro other current
      dsimp only at current ⊢
      split at current
      next => contradiction
      next others =>
        have different : other ≠ keyToUse := by
          rintro rfl
          exact others current
        rw [Function.update_of_ne different]
        exact sound.current other current

theorem Sound.setNodes (sound : Sound s) (nodes : List Node) : Sound (setNodes nodes s) := by
  unfold Canvas.setNodes
  split
  next => exact sound
  next key current =>
    obtain ⟨flowData,found,good⟩ := sound.found current
    exact sound.alter found good

theorem Sound.onNodesChange (sound : Sound s) (changes : List NodeChange) : Sound (onNodesChange lib changes s) := by
  unfold Canvas.onNodesChange
  split
  next => exact sound
  next key current =>
    split
    next => exact sound
    next flowData found => exact sound.alter found (sound.flows key flowData found)

/-- A rendered workflow with edges has a list for them, with ids of rows as ends. -/
theorem Sound.setEdges (sound : Sound s) {rendered : List RenderedEdge} (some_ : rendered ≠ []) :
    Sound (setEdges (routeEdges rendered) s) := by
  cases current : s.current with
  | none =>
    rw [Canvas.setEdges,current]
    exact sound
  | some key =>
    rw [setEdges_current current]
    obtain ⟨flowData,found,_⟩ := sound.found current
    refine sound.alter found ?_
    rw [routeEdges,if_neg some_]
    have named : ∀ e ∈ (rendered.map fun edge => (⟨edge.id,edge.source_node_id,edge.target_node_id,none,none,
        "#60a5fa"⟩ : Edge)).map fun e => { e with edgeColor := edgeColorOf flowData.nodes e.source },
        ∀ h, e.at_ h ≠ "" := by
      intro e member h
      simp only [List.mem_map] at member
      obtain ⟨_,⟨edge,_,rfl⟩,rfl⟩ := member
      cases h with
      | source => exact edge.named.1
      | target => exact edge.named.2
    exact ⟨_,rfl,computeHandleAnimations_animated named,named⟩

theorem Sound.onEdgesChange (sound : Sound s) {changes : List (EdgeChange Edge)}
    (traced : ∀ key flowData edges, s.current = some key → s.flows key = some flowData →
      flowData.edges = some edges → Traced changes edges (lib.applyEdgeChanges changes edges)) :
    Sound (onEdgesChange lib changes s) := by
  unfold Canvas.onEdgesChange
  split
  next => exact sound
  next key current =>
    split
    next => exact sound
    next flowData found =>
      split
      next => exact sound
      next edges list =>
        obtain ⟨_,same,animated,named⟩ := sound.flows key flowData found
        cases list.symm.trans same
        have ok := traced key flowData edges current found list
        refine sound.alter found ⟨_,rfl,(animated_iff animated named).mpr ok,?_⟩
        intro e member h
        obtain ⟨old,there,ends⟩ := (ok h).1 e member
        rw [← ends]
        exact named old there h

/-- The handles of a new edge are lit; if there is an edge between them already, they were. -/
theorem Animated.connect {edges : List Edge} {animations : HandleAnimations} (animated : Animated edges animations)
    (adds : lib.Adds) {edge : Edge} (named : ∀ h, edge.at_ h ≠ "") : Animated (lib.addEdge edge edges)
      ((animations.put edge.source .source true).put edge.target .target true) := by
  have lit : ∀ h n, ((animations.put edge.source .source true).put edge.target .target true).lit h n = true ↔
      animations.lit h n = true ∨ edge.at_ h = n := by
    intro h n
    rw [lit_put,lit_put]
    by_cases same : edge.at_ h = n
    · subst same
      cases h <;> simp [Edge.at_]
    · have other : n ≠ edge.at_ h := Ne.symm same
      cases h <;> simp_all [Edge.at_]
  intro h n
  rw [lit,animated h n]
  rcases adds edge edges (named .source) (named .target) with appended | ⟨same,old,member,source,target⟩
  · rw [appended]
    simp [or_and_right,exists_or]
  · rw [same]
    refine ⟨fun either => either.elim id ?_,.inl⟩
    rintro rfl
    cases h with
    | source => exact ⟨old,member,source⟩
    | target => exact ⟨old,member,target⟩

theorem named_addEdge {edges : List Edge} (adds : lib.Adds) {edge : Edge} (named : ∀ h, edge.at_ h ≠ "")
    (ends : ∀ e ∈ edges, ∀ h, e.at_ h ≠ "") : ∀ e ∈ lib.addEdge edge edges, ∀ h, e.at_ h ≠ "" := by
  rcases adds edge edges (named .source) (named .target) with appended | ⟨same,_⟩
  · rw [appended]
    intro e member
    rcases List.mem_append.mp member with old | new
    · exact ends e old
    · rw [List.mem_singleton.mp new]
      exact named
  · rw [same]
    exact ends

/-- The two entries and the edge are set one after another; in between the table is not that of the
edges. -/
theorem Sound.onConnect (sound : Sound s) (adds : lib.Adds) (params : Connection) :
    Sound (onConnect lib params s) := by
  unfold Canvas.onConnect
  split
  next => exact sound
  next named =>
    rw [not_or] at named
    split
    next => exact sound
    next key current =>
      obtain ⟨flowData,found,edges,list,animated,ends⟩ := sound.found current
      have kept : (setHandleAnimation params.source .source true s).current = some key := by
        rw [setHandleAnimation_current current]
        exact current
      dsimp only
      rw [setHandleAnimation_current kept,setHandleAnimation_current current,FlowState.alter_alter,
        FlowState.alter_found found]
      dsimp only
      rw [FlowState.alter_alter,list,Option.getD_some]
      generalize colour : edgeColorOf flowData.nodes params.source = edgeColor
      have both : ∀ h, Edge.at_ ⟨"e" ++ params.source ++ "-" ++ params.target,params.source,params.target,
          params.sourceHandle,params.targetHandle,edgeColor⟩ h ≠ "" := by
        intro h
        cases h with
        | source => exact named.1
        | target => exact named.2
      exact sound.alter found ⟨_,rfl,animated.connect adds both,named_addEdge adds both ends⟩

end Steps

/-- What the store relies on: the workflow that is rendered has an edge, and the changes of a batch
are such that the removed edges account for every end that is lost. -/
def Steady {NodeChange : Type} (lib : Xyflow Node Edge NodeChange) : Guard FlowState (Op NodeChange)
  | s, .setEdges rendered => s.current.isSome = true → rendered ≠ []
  | s, .onEdgesChange changes => ∀ key flowData edges, s.current = some key →
      s.flows key = some flowData → flowData.edges = some edges →
      Traced changes edges (lib.applyEdgeChanges changes edges)
  | _, .initializeFlow _ | _, .clearFlow _ | _, .setNodes _ | _, .onNodesChange _ | _, .onConnect _ => True

/-- The changes that xyflow reports by itself; an edge is added or replaced by the caller only. -/
def Reported {Edge : Type} (changes : List (EdgeChange Edge)) : Prop :=
  ∀ change ∈ changes, ∃ id, change = .remove id ∨ ∃ selected, change = .select id selected

/-- A batch of such changes takes the removed edges out and changes nothing that `view` shows of the
others. -/
def Xyflow.Removes {Node Edge NodeChange View : Type} (lib : Xyflow Node Edge NodeChange) (id : Edge → String)
    (view : Edge → View) : Prop :=
  ∀ changes edges, Reported changes → (lib.applyEdgeChanges changes edges).map view =
    (edges.filter fun e => !removes changes (id e)).map view

section Runs

variable {NodeChange : Type} {lib : Xyflow Node Edge NodeChange} {s : FlowState} {op : Op NodeChange}

theorem Sound.initial : Sound .initial where
  flows _ _ found := by contradiction
  current _ current := by contradiction

theorem setEdges_none (current : s.current = none) (edges : Option (List Edge)) : setEdges edges s = s := by
  rw [setEdges,current]

theorem Sound.step (sound : Sound s) (adds : lib.Adds) (steady : Steady lib s op) :
    Sound (Canvas.step lib op s) := by
  cases op with
  | initializeFlow key => exact sound.initializeFlow key
  | clearFlow key => exact sound.clearFlow key
  | setNodes nodes => exact sound.setNodes nodes
  | setEdges rendered =>
    cases current : s.current with
    | none =>
      have same : Canvas.step lib (.setEdges rendered) s = s := setEdges_none current _
      rw [same]
      exact sound
    | some key => exact sound.setEdges (steady (current ▸ rfl))
  | onNodesChange changes => exact sound.onNodesChange changes
  | onEdgesChange changes => exact sound.onEdgesChange steady
  | onConnect params => exact sound.onConnect adds params

/-- A step that the store does not allow for spoils it at once. -/
theorem spoiled (sound : Sound s) (unsteady : ¬Steady lib s op) : ¬Consistent (Canvas.step lib op s) := by
  intro consistent
  apply unsteady
  cases op with
  | setEdges rendered =>
    intro set_
    obtain ⟨key,current⟩ := Option.isSome_iff_exists.mp set_
    rintro rfl
    obtain ⟨old,there,_⟩ := sound.found current
    rw [Canvas.step,setEdges_current current] at consistent
    obtain ⟨flowData,edges,found,list,_⟩ := consistent key (current_some current)
    rw [FlowState.alter_found there] at found
    cases found
    contradiction
  | onEdgesChange changes =>
    intro key flowData edges current there list
    obtain ⟨_,same,animated,named⟩ := sound.flows key flowData there
    cases list.symm.trans same
    rw [Canvas.step,onEdgesChange_current current there list] at consistent
    obtain ⟨after,newEdges,found,newList,table⟩ := consistent key (current_some current)
    rw [FlowState.alter_found there] at found
    cases found
    cases newList
    exact (animated_iff animated named).mp table
  | initializeFlow _ | clearFlow _ | setNodes _ | onNodesChange _ | onConnect _ => trivial

/-- Of the changes of xyflow, removals and selections are accounted for. -/
theorem Xyflow.Removes.traced (applies : ∀ h, lib.Removes Edge.id (·.at_ h)) {changes : List (EdgeChange Edge)}
    (edges : List Edge) (reported : Reported changes) :
    Traced changes edges (lib.applyEdgeChanges changes edges) := by
  intro h
  have ends : ∀ n, (∃ e ∈ lib.applyEdgeChanges changes edges, e.at_ h = n) ↔
      ∃ e ∈ edges.filter fun e => !removes changes e.id, e.at_ h = n := by
    intro n
    rw [← List.mem_map,applies h changes edges reported,List.mem_map]
  constructor
  · intro e member
    obtain ⟨old,kept,same⟩ := (ends (e.at_ h)).mp ⟨e,member,rfl⟩
    exact ⟨old,(List.mem_filter.mp kept).1,same⟩
  · intro old member
    cases gone : removes changes old.id with
    | true => exact .inr ⟨old,member,rfl,gone⟩
    | false => exact .inl ((ends (old.at_ h)).mpr ⟨old,List.mem_filter.mpr ⟨member,by simp [gone]⟩,rfl⟩)

theorem reach_sound (adds : lib.Adds) (reach : Reach (store lib) (Steady lib) s) : Sound s := by
  refine reach.invariant Sound Sound.initial ?_
  intro s op t _ sound steady step
  cases step
  exact sound.step adds steady

/-- In runs of such steps the table is always that of the edges, and after any other step it is not. -/
theorem table_kept (adds : lib.Adds) (reach : Reach (store lib) (Steady lib) s) :
    Consistent s ∧ ∀ op, ¬Steady lib s op → ¬Consistent (step lib op s) :=
  have sound := reach_sound adds reach
  ⟨sound.consistent,fun _ => spoiled sound⟩

end Runs

section Library

section Changes

variable {Edge : Type} {changes : List (EdgeChange Edge)} {idOf : Edge → String}

/-- What a change says of the edge with this id: it goes, or another comes in its place. -/
def EdgeChange.outcome (id : String) : EdgeChange Edge → Option (Option Edge)
  | .remove removed => if removed = id then some none else none
  | .replace replaced item => if replaced = id then some (some item) else none
  | .add _ _ | .select _ _ => none

def EdgeChange.insert (edges : List Edge) : EdgeChange Edge → List Edge
  | .add item (some index) => edges.take index ++ item :: edges.drop index
  | .add item none => edges ++ [item]
  | .remove _ | .replace _ _ | .select _ _ => edges

/-- Of the changes to an edge the last removal or replacement counts, and what is added comes after
these. -/
def applyEdgeChanges (idOf : Edge → String) (changes : List (EdgeChange Edge)) (edges : List Edge) : List Edge :=
  changes.foldl EdgeChange.insert
    (edges.filterMap fun e => (changes.filterMap (·.outcome (idOf e))).getLast?.getD (some e))

theorem foldl_insert (edges : List Edge) (reported : Reported changes) :
    changes.foldl EdgeChange.insert edges = edges := by
  induction changes with
  | nil => rfl
  | cons change rest ih =>
    have same : EdgeChange.insert edges change = edges := by
      obtain ⟨_,rfl | ⟨_,rfl⟩⟩ := reported change List.mem_cons_self <;> rfl
    rw [List.foldl_cons,same]
    exact ih fun change member => reported change (List.mem_cons_of_mem _ member)

/-- Without replacements the last outcome of an edge, if there is one, is that it goes. -/
theorem last_outcome (e : Edge) (id : String) (reported : Reported changes) :
    (changes.filterMap (·.outcome id)).getLast?.getD (some e) =
      if removes changes id = true then none else some e := by
  cases last : (changes.filterMap (·.outcome id)).getLast? with
  | none =>
    have no_outcome := List.filterMap_eq_nil_iff.mp (List.getLast?_eq_none_iff.mp last)
    have stays : removes changes id = false := by
      refine List.any_eq_false.mpr fun change member => ?_
      obtain ⟨_,rfl | ⟨_,rfl⟩⟩ := reported change member
      · have other := no_outcome _ member
        simpa [EdgeChange.outcome] using other
      · simp
    rw [stays]
    rfl
  | some outcome =>
    obtain ⟨change,member,meaning⟩ := List.mem_filterMap.mp (List.mem_of_getLast? last)
    obtain ⟨_,rfl | ⟨_,rfl⟩⟩ := reported change member
    · rw [EdgeChange.outcome] at meaning
      split at meaning
      next this =>
        cases meaning
        have goes : removes changes id = true := List.any_eq_true.mpr ⟨_,member,by simp [this]⟩
        rw [goes]
        rfl
      next => contradiction
    · contradiction

theorem applyEdgeChanges_reported (edges : List Edge) (reported : Reported changes) :
    applyEdgeChanges idOf changes edges = edges.filter fun e => !removes changes (idOf e) := by
  unfold applyEdgeChanges
  rw [foldl_insert _ reported,← List.filterMap_eq_filter]
  refine List.filterMap_congr fun e _ => ?_
  rw [last_outcome e (idOf e) reported]
  cases gone : removes changes (idOf e) <;> simp [Option.guard,gone]

end Changes

/-- The functions of xyflow on the edges of the store. -/
def xyflow : Xyflow Node Edge String where
  applyNodeChanges changes nodes := nodes.filter (·.id ∉ changes)
  applyEdgeChanges := applyEdgeChanges Edge.id
  addEdge edge edges :=
    if edge.source = "" ∨ edge.target = "" ∨ edges.any (fun old => old.source = edge.source ∧
        old.target = edge.target ∧ old.sourceHandle = edge.sourceHandle ∧
        old.targetHandle = edge.targetHandle) = true then edges
    else edges ++ [edge]

theorem xyflow_adds : xyflow.Adds := by
  intro edge edges source target
  by_cases exists_ : edges.any (fun old => old.source = edge.source ∧ old.target = edge.target ∧
      old.sourceHandle = edge.sourceHandle ∧ old.targetHandle = edge.targetHandle) = true
  · refine .inr ⟨if_pos (.inr (.inr exists_)),?_⟩
    obtain ⟨old,member,same⟩ := List.any_eq_true.mp exists_
    obtain ⟨source,target,_⟩ := of_decide_eq_true same
    exact ⟨old,member,source,target⟩
  · exact .inl (if_neg fun either => either.elim source fun either => either.elim target exists_)

theorem xyflow_removes (h : HandleType) : xyflow.Removes Edge.id (·.at_ h) :=
  fun _ edges reported => congrArg (List.map (·.at_ h)) (applyEdgeChanges_reported edges reported)

/-- Two edges, one of them drawn by hand, and the rendered one removed again. -/
theorem drawn_and_removed : Consistent (step xyflow (.onEdgesChange [.select "1" true,.remove "1"])
    (step xyflow (.onConnect ⟨"11","12",none,none⟩) (step xyflow (.setEdges [⟨"1","10","11",by decide⟩])
      (step xyflow (.initializeFlow "workflow-1") .initial)))) := by
  refine (table_kept xyflow_adds (.tail (.tail (.tail (.tail .refl (a := .initializeFlow "workflow-1") ?_ rfl)
    (a := .setEdges [⟨"1","10","11",by decide⟩]) ?_ rfl) (a := .onConnect ⟨"11","12",none,none⟩) ?_ rfl)
    (a := .onEdgesChange [.select "1" true,.remove "1"]) ?_ rfl)).1
  · trivial
  · exact fun _ => List.cons_ne_nil _ _
  · trivial
  · intro _ _ edges _ _ _
    exact Xyflow.Removes.traced xyflow_removes edges (by simp [Reported])

/-- A workflow without edges leaves the flow without a list of edges. -/
theorem no_list : ¬∀ s, Reach (store xyflow) (fun _ _ => True) s → Consistent s := by
  intro always
  have opened : Reach (store xyflow) (fun _ _ => True) (step xyflow (.initializeFlow "workflow-1") .initial) :=
    .tail .refl (a := .initializeFlow "workflow-1") trivial rfl
  have sound : Sound (step xyflow (.initializeFlow "workflow-1") .initial) :=
    Sound.initial.initializeFlow "workflow-1"
  have broken : ¬Consistent (step xyflow (.setEdges []) (step xyflow (.initializeFlow "workflow-1") .initial)) :=
    spoiled sound fun steady => steady rfl rfl
  exact broken (always _ (.tail opened trivial rfl))

end Library

end TinyAutomator.Canvas
