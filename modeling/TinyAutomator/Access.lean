import Mathlib.Algebra.Group.Nat.Defs
import TinyAutomator.Run.Infra

/-! Who may read a workflow run. GetWorkflowRun hands the run id to the ownership check
of workflows; StreamWorkflowRunProgress checks the workflow of the URL and then loads
whatever run the URL names. -/
namespace TinyAutomator.Access

open Run (NodeStatus RunStatus)

section Atoi

def unsigned (digits : List Char) : Option Nat :=
  if digits ≠ [] ∧ digits.all Char.isDigit then some (Nat.ofDigitChars 10 digits 0) else none

/-- strconv.Atoi for the 64-bit int. -/
def atoi (text : String) : Option Int :=
  match text.toList with
  | '-' :: digits => (unsigned digits).bind fun n => if n ≤ 2 ^ 63 then some (-n) else none
  | '+' :: digits => (unsigned digits).bind fun n => if n < 2 ^ 63 then some n else none
  | digits => (unsigned digits).bind fun n => if n < 2 ^ 63 then some n else none

example : ["17","-4","+5","","1_0","9223372036854775808"].map atoi =
    [some 17,some (-4),some 5,none,none,none] := by decide

theorem unsigned_toDigits (n : Nat) : unsigned (Nat.toDigits 10 n) = some n := by
  have digits : (Nat.toDigits 10 n).all Char.isDigit = true := by
    rw [List.all_eq_true]
    exact fun c member => Nat.isDigit_of_mem_toDigits (by decide) (by decide) member
  rw [unsigned,if_pos ⟨Nat.toDigits_ne_nil,digits⟩,Nat.ofDigitChars_ten_toDigits]

theorem atoi_natural {n : Nat} (fits : n < 2 ^ 63) : atoi (toString n) = some (n : Int) := by
  have list : (toString n).toList = Nat.toDigits 10 n := Nat.toList_repr
  have parsed := unsigned_toDigits n
  have digit : ∀ c ∈ Nat.toDigits 10 n, c.isDigit = true := fun c member =>
    Nat.isDigit_of_mem_toDigits (by decide) (by decide) member
  rw [atoi,list]
  split
  next rest shape => exact absurd (digit '-' (by simp [shape])) (by decide)
  next rest shape => exact absurd (digit '+' (by simp [shape])) (by decide)
  next => simpa [parsed] using fits

theorem atoi_negative {n : Nat} (fits : n ≤ 2 ^ 63) : atoi ("-" ++ toString n) = some (-n : Int) := by
  have list : ("-" ++ toString n).toList = '-' :: Nat.toDigits 10 n := by
    rw [String.toList_append]
    exact congrArg ('-' :: ·) Nat.toList_repr
  rw [atoi,list]
  simpa [unsigned_toDigits] using fits

theorem atoi_int32 (r : Int32) : atoi (toString r) = some r.toInt := by
  have low := r.le_toInt
  have high := r.toInt_lt
  have text : toString r = toString r.toInt := rfl
  rw [text]
  cases value : r.toInt with
  | ofNat n => exact atoi_natural (by rw [value] at high; simp at high; omega)
  | negSucc n => exact atoi_negative (by rw [value] at low; omega)

theorem atoi_toString (r : Int32) : (atoi (toString r)).map Int.toInt32 = some r := by
  rw [atoi_int32]
  simp

end Atoi

abbrev RunID := Int32
abbrev WorkflowID := Int32

/-- A workflow_node_run row of a run. -/
structure NodeRunRow where
  id : Int32
  workflowNodeID : Int32
  status : NodeStatus
  startedAt : Option Int
  finishedAt : Option Int
  metadata : Option String
  errorMessage : Option String
  deriving DecidableEq

/-- A workflow_run row with the node run rows that refer to it. -/
structure RunRow where
  workflowID : WorkflowID
  status : RunStatus
  finishedAt : Option Int
  createdAt : Int
  nodeRuns : List NodeRunRow
  distinct : (nodeRuns.map (·.id)).Nodup
  deriving DecidableEq

/-- The payload on the channel of its run; the channel name is the id in decimal. -/
structure NodeStatusUpdate where
  runID : RunID
  nodeID : Int32
  status : NodeStatus
  timestamp : Int
  details : List (String × Json)
  deriving DecidableEq

/-- The rows an answer may depend on, and the updates that are published while the
client listens. Run ids are SERIAL, and a run refers to a workflow that exists. -/
structure State where
  owner : WorkflowID → Option UserID
  runs : RunID → Option RunRow
  published : List NodeStatusUpdate
  serial : ∀ r run, runs r = some run → 0 < r
  belongs : ∀ r run, runs r = some run → (owner run.workflowID).isSome

structure WorkflowNodeRunCore where
  id : Int32
  workflowRunID : RunID
  workflowNodeID : Int32
  status : NodeStatus
  retryCount : Int32
  startedAt : Int
  finishedAt : Int
  metadata : String
  errorMessage : String
  deriving DecidableEq

structure WorkflowRunWithNodesDTO where
  id : RunID
  workflowID : WorkflowID
  status : RunStatus
  finishedAt : Int
  createdAt : Int
  nodes : List WorkflowNodeRunCore
  deriving DecidableEq

/-- The node runs pass through a map, so their order is not fixed. -/
structure NodeOrder where
  arrange : List WorkflowNodeRunCore → List WorkflowNodeRunCore
  perm : ∀ nodes, (arrange nodes).Perm nodes

def NodeOrder.stored : NodeOrder := ⟨id,fun _ => .refl _⟩

inductive AccessError where
  | userDoesNotHaveAccessToWorkflow
  | failedToGetWorkflow
  deriving DecidableEq

inductive SSEvent where
  | connectionEstablished (message runId : String)
  | workflowRunCompleted (message runId : String)
  | nodeUpdate (runId : String) (nodeID : Int32) (status : NodeStatus)
  | update (payload : NodeStatusUpdate)
  deriving DecidableEq

structure JSONError where
  code : Nat
  error : String
  deriving DecidableEq

/-- A stream may break off with a JSON error after its first event. -/
inductive Response where
  | error (error : JSONError)
  | run (run : WorkflowRunWithNodesDTO)
  | stream (events : List SSEvent) (error : Option JSONError)
  deriving DecidableEq

def verifyWorkflowAccess (s : State) (workflowID : WorkflowID) (userID : UserID) :
    Except AccessError Unit :=
  match s.owner workflowID with
  | none => .error .failedToGetWorkflow
  | some owner => if owner ≠ userID then .error .userDoesNotHaveAccessToWorkflow else .ok ()

/-- The repository does not fill in the retry count. -/
def NodeRunRow.core (row : NodeRunRow) (workflowRunID : RunID) : WorkflowNodeRunCore where
  id := row.id
  workflowRunID := workflowRunID
  workflowNodeID := row.workflowNodeID
  status := row.status
  retryCount := 0
  startedAt := row.startedAt.getD 0
  finishedAt := row.finishedAt.getD 0
  metadata := row.metadata.getD ""
  errorMessage := row.errorMessage.getD ""

/-- The query is an inner join: a run without node runs is not found. -/
def getWorkflowRunStatus (order : NodeOrder) (s : State) (runID : RunID) :
    Option WorkflowRunWithNodesDTO :=
  match s.runs runID with
  | none => none
  | some run =>
    if run.nodeRuns = [] then none
    else some {
      id := runID
      workflowID := run.workflowID
      status := run.status
      finishedAt := run.finishedAt.getD 0
      createdAt := run.createdAt
      nodes := order.arrange (run.nodeRuns.map (·.core runID)) }

def reportRun (order : NodeOrder) (s : State) (runID : RunID) : Response :=
  match getWorkflowRunStatus order s runID with
  | none => .error ⟨500,"failed to get workflow run"⟩
  | some workflowRun => .run workflowRun

def getWorkflowRun (order : NodeOrder) (s : State) (user : Option UserID) (idStr : String) :
    Response :=
  match atoi idStr with
  | none => .error ⟨400,"invalid id"⟩
  | some workflowRunID =>
    match user with
    | none => .error ⟨500,"user not found"⟩
    | some userID =>
      match verifyWorkflowAccess s workflowRunID.toInt32 userID with
      | .error .userDoesNotHaveAccessToWorkflow => .error ⟨403,"unauthorized to view workflow run"⟩
      | .error .failedToGetWorkflow => .error ⟨500,"failed to verify workflow access"⟩
      | .ok () => reportRun order s workflowRunID.toInt32

/-- The events of a client that stays connected, heartbeats left out. -/
def reportProgress (order : NodeOrder) (s : State) (runID : RunID) (idStr : String) : Response :=
  let connected := SSEvent.connectionEstablished
    ("Successfully connected to progress stream for run " ++ idStr) idStr
  match getWorkflowRunStatus order s runID with
  | none => .stream [connected] (some ⟨500,"failed to get workflow run status"⟩)
  | some run =>
    if run.status ≠ .running then
      .stream [connected,.workflowRunCompleted "Workflow run completed" idStr] none
    else
      .stream (connected ::
        run.nodes.map (fun node => .nodeUpdate idStr node.workflowNodeID node.status) ++
        (s.published.filter fun update => toString update.runID = idStr).map .update) none

def streamWorkflowRunProgress (order : NodeOrder) (s : State) (user : Option UserID)
    (workflowIDStr idStr : String) : Response :=
  match atoi workflowIDStr with
  | none => .error ⟨400,"invalid workflow id"⟩
  | some workflowID =>
    match atoi idStr with
    | none => .error ⟨400,"invalid workflow id"⟩
    | some runID =>
      match user with
      | none => .error ⟨500,"user not found"⟩
      | some userID =>
        match verifyWorkflowAccess s workflowID.toInt32 userID with
        | .error .userDoesNotHaveAccessToWorkflow =>
          .error ⟨403,"unauthorized to stream workflow run progress"⟩
        | .error .failedToGetWorkflow => .error ⟨500,"failed to verify workflow access"⟩
        | .ok () => reportProgress order s runID.toInt32 idStr

inductive Request where
  | getWorkflowRun (runID : String)
  | streamWorkflowRunProgress (workflowID runID : String)
  deriving DecidableEq

def Request.answer (order : NodeOrder) (s : State) (user : UserID) : Request → Response
  | .getWorkflowRun runID => Access.getWorkflowRun order s (some user) runID
  | .streamWorkflowRunProgress workflowID runID =>
    Access.streamWorkflowRunProgress order s (some user) workflowID runID

/-- The id that the ownership check gets and the id of the run that is loaded. -/
def Request.ids : Request → Option (WorkflowID × RunID)
  | .getWorkflowRun runID => (atoi runID).map fun n => (n.toInt32,n.toInt32)
  | .streamWorkflowRunProgress workflowID runID =>
    (atoi workflowID).bind fun w => (atoi runID).map fun n => (w.toInt32,n.toInt32)

def Request.report (order : NodeOrder) (s : State) (runID : RunID) : Request → Response
  | .getWorkflowRun _ => reportRun order s runID
  | .streamWorkflowRunProgress _ idStr => reportProgress order s runID idStr

def Request.refusal : Request → String
  | .getWorkflowRun _ => "unauthorized to view workflow run"
  | .streamWorkflowRunProgress .. => "unauthorized to stream workflow run progress"

/-- The run belongs to a workflow of the user. -/
def State.owns (s : State) (user : UserID) (r : RunID) : Bool :=
  (s.runs r).any fun run => s.owner run.workflowID = some user

/-- The run that a text of an event names. -/
def Names (text : String) (r : RunID) : Prop := (atoi text).map Int.toInt32 = some r

/-- The event carries the status of the run or of one of its nodes. -/
def SSEvent.Tells (r : RunID) : SSEvent → Prop
  | .connectionEstablished .. => False
  | .workflowRunCompleted _ runId => Names runId r
  | .nodeUpdate runId .. => Names runId r
  | .update payload => payload.runID = r

def Response.Tells (r : RunID) : Response → Prop
  | .error _ => False
  | .run dto => dto.id = r
  | .stream events _ => ∃ event ∈ events, event.Tells r

/-- Two states that differ only in runs of workflows the user does not own. -/
structure Agree (user : UserID) (s t : State) : Prop where
  owner : t.owner = s.owner
  runs : ∀ r, s.owns user r = true ∨ t.owns user r = true → t.runs r = s.runs r
  published : t.published.filter (fun update => t.owns user update.runID) =
    s.published.filter (fun update => s.owns user update.runID)

/-- Access control for one request: nothing about other people's runs, no refusal of the
user's own, and no dependence on anything else. -/
structure Guarded (order : NodeOrder) (s : State) (user : UserID) (request : Request) : Prop where
  confined : ∀ r, (request.answer order s user).Tells r → s.owns user r = true
  admitted : ∀ w r, request.ids = some (w,r) → s.owns user r = true →
    ∀ error, request.answer order s user = .error error → error.code ≠ 403
  blind : ∀ t, Agree user s t → request.answer order t user = request.answer order s user

/-- The check and the load point at the same owner: who may use the checked workflow owns
the run as well, and who owns the run may use the workflow. A run that does not exist is
somebody else's as soon as there is somebody else. -/
def Aligned (s : State) (user : UserID) (request : Request) : Prop :=
  ∀ w r, request.ids = some (w,r) →
    (s.owner w = some user → 0 < r →
      s.owns user r = true ∨ ∀ v owner, s.owner v = some owner → owner = user) ∧
    (∀ owner, s.owner w = some owner → owner ≠ user → s.owns user r = false)

section Answer

variable {order : NodeOrder} {s t : State} {user owner : UserID} {request : Request}
  {w : WorkflowID} {r x : RunID}

theorem answer_malformed (malformed : request.ids = none) :
    ∃ text, ∀ s, request.answer order s user = .error ⟨400,text⟩ := by
  cases request with
  | getWorkflowRun runID =>
    have unparsed : atoi runID = none := Option.map_eq_none_iff.mp malformed
    exact ⟨"invalid id",fun s => by simp [Request.answer,getWorkflowRun,unparsed]⟩
  | streamWorkflowRunProgress workflowID runID =>
    refine ⟨"invalid workflow id",fun s => ?_⟩
    cases first : atoi workflowID with
    | none => simp [Request.answer,streamWorkflowRunProgress,first]
    | some n =>
      have unparsed : atoi runID = none := by simpa [Request.ids,first] using malformed
      simp [Request.answer,streamWorkflowRunProgress,first,unparsed]

/-- What the ownership check makes of a request whose ids parse. -/
theorem answer_checked (ids : request.ids = some (w,r)) :
    request.answer order s user =
      match verifyWorkflowAccess s w user with
      | .error .userDoesNotHaveAccessToWorkflow => .error ⟨403,request.refusal⟩
      | .error .failedToGetWorkflow => .error ⟨500,"failed to verify workflow access"⟩
      | .ok () => request.report order s r := by
  cases request with
  | getWorkflowRun runID =>
    obtain ⟨n,parsed,same⟩ := Option.map_eq_some_iff.mp ids
    obtain ⟨rfl,rfl⟩ := Prod.mk.inj same
    simp only [Request.answer,getWorkflowRun,parsed,Request.report,Request.refusal]
  | streamWorkflowRunProgress workflowID runID =>
    obtain ⟨m,first,ids⟩ := Option.bind_eq_some_iff.mp ids
    obtain ⟨n,parsed,same⟩ := Option.map_eq_some_iff.mp ids
    obtain ⟨rfl,rfl⟩ := Prod.mk.inj same
    simp only [Request.answer,streamWorkflowRunProgress,first,parsed,Request.report,
      Request.refusal]

theorem answer_missing (ids : request.ids = some (w,r)) (missing : s.owner w = none) :
    request.answer order s user = .error ⟨500,"failed to verify workflow access"⟩ := by
  rw [answer_checked ids,verifyWorkflowAccess,missing]

theorem answer_refused (ids : request.ids = some (w,r)) (owned : s.owner w = some owner)
    (other : owner ≠ user) : request.answer order s user = .error ⟨403,request.refusal⟩ := by
  rw [answer_checked ids,verifyWorkflowAccess,owned]
  simp [other]

theorem answer_granted (ids : request.ids = some (w,r)) (owned : s.owner w = some user) :
    request.answer order s user = request.report order s r := by
  rw [answer_checked ids,verifyWorkflowAccess,owned]
  simp

/-- The run id in the URL names the run that is loaded. -/
theorem ids_names {workflowID runID : String}
    (ids : (Request.streamWorkflowRunProgress workflowID runID).ids = some (w,r)) : Names runID r := by
  obtain ⟨m,_,ids⟩ := Option.bind_eq_some_iff.mp ids
  obtain ⟨n,parsed,same⟩ := Option.map_eq_some_iff.mp ids
  obtain ⟨_,rfl⟩ := Prod.mk.inj same
  simp [Names,parsed]

theorem Names.unique {text : String} (first : Names text r) (second : Names text x) : x = r :=
  Option.some.inj (second.symm.trans first)

theorem status_some {dto : WorkflowRunWithNodesDTO} (loaded : getWorkflowRunStatus order s r = some dto) :
    dto.id = r ∧ ∃ run, s.runs r = some run := by
  unfold getWorkflowRunStatus at loaded
  split at loaded
  next => contradiction
  next run stored =>
    split at loaded
    next => contradiction
    next => cases loaded; exact ⟨rfl,run,stored⟩

/-- A report tells about the loaded run only, and only when it exists. -/
theorem report_tells (ids : request.ids = some (w,r)) (tells : (request.report order s r).Tells x) :
    x = r ∧ ∃ run, s.runs r = some run := by
  cases request with
  | getWorkflowRun runID =>
    simp only [Request.report,reportRun] at tells
    split at tells
    next => exact absurd tells id
    next dto loaded =>
      obtain ⟨same,found⟩ := status_some loaded
      exact ⟨Eq.trans (Eq.symm tells) same,found⟩
  | streamWorkflowRunProgress workflowID runID =>
    have names := ids_names ids
    simp only [Request.report,reportProgress] at tells
    split at tells
    next => simp [Response.Tells,SSEvent.Tells] at tells
    next dto loaded =>
      refine ⟨?_,(status_some loaded).2⟩
      split at tells
      next =>
        have told : Names runID x := by simpa [Response.Tells,SSEvent.Tells] using tells
        exact names.unique told
      next =>
        obtain ⟨event,member,told⟩ := tells
        rw [List.cons_append,List.mem_cons,List.mem_append] at member
        rcases member with rfl | nodes | forwarded
        · exact absurd told id
        · obtain ⟨node,_,rfl⟩ := List.mem_map.mp nodes
          exact names.unique told
        · obtain ⟨update,channel,rfl⟩ := List.mem_map.mp forwarded
          obtain rfl : update.runID = x := told
          have text := of_decide_eq_true (List.mem_filter.mp channel).2
          exact names.unique (text ▸ atoi_toString update.runID)

theorem report_admits : ∀ error, request.report order s r = .error error → error.code ≠ 403 := by
  intro error refused
  cases request with
  | getWorkflowRun runID =>
    simp only [Request.report,reportRun] at refused
    split at refused
    next => cases refused; simp
    next => contradiction
  | streamWorkflowRunProgress workflowID runID =>
    simp only [Request.report,reportProgress] at refused
    split at refused
    next => contradiction
    next => split at refused <;> contradiction

/-- What a report reads: the row of the run and the updates on its channel. -/
theorem report_congr (rows : t.runs r = s.runs r)
    (published : ∀ text, Names text r → t.published.filter (fun update => toString update.runID = text) =
      s.published.filter fun update => toString update.runID = text)
    (ids : request.ids = some (w,r)) : request.report order t r = request.report order s r := by
  have loaded : getWorkflowRunStatus order t r = getWorkflowRunStatus order s r := by
    simp only [getWorkflowRunStatus,rows]
  cases request with
  | getWorkflowRun runID => simp only [Request.report,reportRun,loaded]
  | streamWorkflowRunProgress workflowID runID =>
    simp only [Request.report,reportProgress,loaded,published runID (ids_names ids)]

theorem report_absent (gone : t.runs r = none) (absent : s.runs r = none) :
    request.report order t r = request.report order s r := by
  cases request with
  | getWorkflowRun runID => simp only [Request.report,reportRun,getWorkflowRunStatus,gone,absent]
  | streamWorkflowRunProgress workflowID runID =>
    simp only [Request.report,reportProgress,getWorkflowRunStatus,gone,absent]

/-- A report distinguishes a run with node runs from none. -/
theorem report_differs {run : RunRow} (absent : t.runs r = none) (present : s.runs r = some run)
    (nodes : run.nodeRuns ≠ []) : request.report order t r ≠ request.report order s r := by
  have lost : getWorkflowRunStatus order t r = none := by simp only [getWorkflowRunStatus,absent]
  obtain ⟨dto,found⟩ : ∃ dto, getWorkflowRunStatus order s r = some dto := by
    simp [getWorkflowRunStatus,present,nodes]
  cases request with
  | getWorkflowRun runID => simp [Request.report,reportRun,lost,found]
  | streamWorkflowRunProgress workflowID runID =>
    simp only [Request.report,reportProgress,lost,found]
    split <;> simp

theorem owns_row : s.owns user r = true ↔ ∃ run, s.runs r = some run ∧ s.owner run.workflowID = some user := by
  simp [State.owns,Option.any_eq_true]

theorem Agree.owns (agree : Agree user s t) (r : RunID) : t.owns user r = s.owns user r := by
  by_cases either : s.owns user r = true ∨ t.owns user r = true
  · rw [State.owns,State.owns,agree.runs r either,agree.owner]
  · rw [not_or,Bool.not_eq_true,Bool.not_eq_true] at either
    rw [either.1,either.2]

/-- An agreeing state publishes the same on the channel of an owned run. -/
theorem Agree.channel (agree : Agree user s t) (owned : s.owns user r = true) {text : String}
    (names : Names text r) : t.published.filter (fun update => toString update.runID = text) =
      s.published.filter fun update => toString update.runID = text := by
  have narrow : ∀ x : State, x.owns user r = true →
      x.published.filter (fun update => toString update.runID = text) =
        (x.published.filter fun update => x.owns user update.runID).filter
          fun update => toString update.runID = text := by
    intro x owns
    rw [List.filter_filter]
    refine List.filter_congr fun update _ => ?_
    by_cases same : toString update.runID = text
    · have own : update.runID = r := names.unique (same ▸ atoi_toString update.runID)
      simp [own,owns]
    · simp [same]
  rw [narrow t (agree.owns r ▸ owned),narrow s owned,agree.published]

/-- The state with another row, or none, for a run. -/
def State.replace (s : State) (r : RunID) (row : Option RunRow) (positive : 0 < r)
    (known : ∀ run, row = some run → (s.owner run.workflowID).isSome) : State where
  owner := s.owner
  runs := fun x => if x = r then row else s.runs x
  published := s.published
  serial := by
    intro x run stored
    split at stored
    next same => exact same ▸ positive
    next => exact s.serial x run stored
  belongs := by
    intro x run stored
    split at stored
    next => exact known run stored
    next => exact s.belongs x run stored

theorem replace_agrees {row : Option RunRow} (positive : 0 < r)
    (known : ∀ run, row = some run → (s.owner run.workflowID).isSome)
    (before : s.owns user r = false) (after : ∀ run, row = some run → s.owner run.workflowID ≠ some user) :
    Agree user s (s.replace r row positive known) := by
  have hidden : (s.replace r row positive known).owns user r = false := by
    rw [← Bool.not_eq_true,owns_row]
    rintro ⟨run,stored,owned⟩
    simp only [State.replace,if_true] at stored
    exact after run stored owned
  have elsewhere : ∀ x, x ≠ r → (s.replace r row positive known).runs x = s.runs x := by
    intro x other
    simp only [State.replace,if_neg other]
  have same : ∀ x, (s.replace r row positive known).owns user x = s.owns user x := by
    intro x
    by_cases at_ : x = r
    · rw [at_,before,hidden]
    · simp only [State.owns,elsewhere x at_]
      rfl
  refine ⟨rfl,fun x owned => elsewhere x ?_,?_⟩
  · rintro rfl
    rcases owned with owned | owned
    · exact absurd owned (by simp [before])
    · exact absurd owned (by simp [hidden])
  · simp only [same]
    rfl

/-- A run of the workflow with one node run. -/
def RunRow.single (workflowID : WorkflowID) : RunRow where
  workflowID := workflowID
  status := .running
  finishedAt := none
  createdAt := 0
  nodeRuns := [⟨1,1,.pending,none,none,none,none⟩]
  distinct := by simp

/-- A request that reads a run behind the ownership check is not blind to it unless the
run is the user's or there is nobody else. -/
theorem blind_owns (ids : request.ids = some (w,r)) (granted : s.owner w = some user) (positive : 0 < r)
    (blind : ∀ t, Agree user s t → request.answer order t user = request.answer order s user) :
    s.owns user r = true ∨ ∀ v owner, s.owner v = some owner → owner = user := by
  by_contra neither
  obtain ⟨hidden,others⟩ := not_or.mp neither
  rw [Bool.not_eq_true] at hidden
  obtain ⟨v,owner,owned,other⟩ : ∃ v owner, s.owner v = some owner ∧ owner ≠ user := by
    simpa using others
  have known : ∀ run, some (RunRow.single v) = some run → (s.owner run.workflowID).isSome := by
    rintro _ ⟨⟩
    exact Option.isSome_iff_exists.mpr ⟨owner,owned⟩
  have foreign : ∀ run, some (RunRow.single v) = some run → s.owner run.workflowID ≠ some user := by
    rintro _ ⟨⟩ mine
    exact other (Option.some.inj (owned.symm.trans mine))
  let absent := s.replace r none positive (by simp)
  let present := s.replace r (some (.single v)) positive known
  have without := blind absent (replace_agrees positive _ hidden (by simp))
  have within := blind present (replace_agrees positive known hidden foreign)
  have gone : request.answer order absent user = request.report order absent r :=
    answer_granted ids granted
  have stored : request.answer order present user = request.report order present r :=
    answer_granted ids granted
  have lost : absent.runs r = none := by simp [absent,State.replace]
  have found : present.runs r = some (.single v) := by simp [present,State.replace]
  have differs : request.report order absent r ≠ request.report order present r :=
    report_differs lost found (by simp [RunRow.single])
  apply differs
  rw [← gone,← stored,without,within]

/-- In every state that agrees, the run behind a granted check is the user's or missing. -/
theorem owned_or_absent (reads : 0 < r → s.owns user r = true ∨
    ∀ v owner, s.owner v = some owner → owner = user) (agree : Agree user s t) :
    s.owns user r = true ∨ t.runs r = none := by
  cases stored : t.runs r with
  | none => exact .inr rfl
  | some run =>
    left
    rcases reads (t.serial r run stored) with owned | alone
    · exact owned
    · obtain ⟨owner,known⟩ := Option.isSome_iff_exists.mp (t.belongs r run stored)
      have mine := alone _ _ (agree.owner ▸ known)
      rw [← agree.owns r,owns_row]
      exact ⟨run,stored,mine ▸ known⟩

theorem guarded_granted (ids : request.ids = some (w,r)) (granted : s.owner w = some user)
    (reads : 0 < r → s.owns user r = true ∨ ∀ v owner, s.owner v = some owner → owner = user) :
    Guarded order s user request := by
  have here : s.owns user r = true ∨ s.runs r = none := owned_or_absent reads ⟨rfl,fun _ _ => rfl,rfl⟩
  refine ⟨fun x tells => ?_,fun _ _ _ _ error refused => ?_,fun t agree => ?_⟩
  · rw [answer_granted ids granted] at tells
    obtain ⟨rfl,run,stored⟩ := report_tells ids tells
    rcases here with owned | absent
    · exact owned
    · rw [stored] at absent
      contradiction
  · rw [answer_granted ids granted] at refused
    exact report_admits error refused
  · have there : t.owner w = some user := agree.owner ▸ granted
    rw [answer_granted ids granted,answer_granted ids there]
    by_cases owned : s.owns user r = true
    · exact report_congr (agree.runs r (.inl owned)) (fun _ names => agree.channel owned names) ids
    · have gone := here.resolve_left owned
      have gone' := (owned_or_absent reads agree).resolve_left owned
      exact report_absent gone' gone

theorem guarded_refused (ids : request.ids = some (w,r)) (owned : s.owner w = some owner)
    (other : owner ≠ user) (hidden : s.owns user r = false) : Guarded order s user request := by
  have here : request.answer order s user = _ := answer_refused ids owned other
  refine ⟨fun x tells => ?_,fun v x same mine => ?_,fun t agree => ?_⟩
  · rw [here] at tells
    exact absurd tells False.elim
  · obtain ⟨_,rfl⟩ := Prod.mk.inj (Option.some.inj (ids.symm.trans same))
    exact absurd mine (by simp [hidden])
  · rw [here,answer_refused ids (agree.owner ▸ owned) other]

theorem guarded_missing (ids : request.ids = some (w,r)) (missing : s.owner w = none) :
    Guarded order s user request := by
  have here : request.answer order s user = _ := answer_missing ids missing
  refine ⟨fun x tells => ?_,fun _ _ _ _ error refused => ?_,fun t agree => ?_⟩
  · rw [here] at tells
    exact absurd tells False.elim
  · rw [here] at refused
    cases refused
    simp
  · rw [here,answer_missing ids (agree.owner ▸ missing)]

theorem guarded_malformed (malformed : request.ids = none) : Guarded order s user request := by
  obtain ⟨text,always⟩ : ∃ text, ∀ s, request.answer order s user = .error ⟨400,text⟩ :=
    answer_malformed malformed
  refine ⟨fun x tells => ?_,fun w r some_ => ?_,fun t _ => ?_⟩
  · rw [always s] at tells
    exact absurd tells False.elim
  · rw [malformed] at some_
    contradiction
  · rw [always t,always s]

/-- Access control holds for exactly the aligned requests. -/
theorem guarded_iff (order : NodeOrder) (s : State) (user : UserID) (request : Request) :
    Guarded order s user request ↔ Aligned s user request := by
  constructor
  · intro guarded w r ids
    refine ⟨fun granted positive => blind_owns ids granted positive guarded.blind,?_⟩
    intro owner owned other
    rw [← Bool.not_eq_true]
    intro mine
    exact guarded.admitted w r ids mine _ (answer_refused ids owned other) rfl
  · intro aligned
    cases ids : request.ids with
    | none => exact guarded_malformed ids
    | some pair =>
      obtain ⟨reads,refuses⟩ := aligned pair.1 pair.2 ids
      cases checked : s.owner pair.1 with
      | none => exact guarded_missing ids checked
      | some owner =>
        by_cases mine : owner = user
        · subst mine
          exact guarded_granted ids checked (reads checked)
        · exact guarded_refused ids checked mine (refuses owner checked mine)

/-- Alice owns workflow 1; run 1 belongs to Bob's workflow 2. -/
def bystander : State where
  owner := fun w => if w = 1 then some "alice" else if w = 2 then some "bob" else none
  runs := fun r => if r = 1 then some (.single 2) else none
  published := []
  serial := by
    intro r run stored
    split at stored
    next same => rw [same]; decide
    next => contradiction
  belongs := by
    intro r run stored
    split at stored
    next => cases stored; decide
    next => contradiction

/-- Alice reads Bob's run through either handler, and Bob is refused his own. -/
theorem bystander_unguarded :
    ¬Guarded .stored bystander "alice" (.getWorkflowRun "1") ∧
    ¬Guarded .stored bystander "bob" (.getWorkflowRun "1") ∧
    ¬Guarded .stored bystander "alice" (.streamWorkflowRunProgress "1" "1") := by
  have foreign : ¬bystander.owns "alice" 1 = true := by decide
  have streamed : Names "1" 1 := by unfold Names; decide
  refine ⟨fun guarded => ?_,fun guarded => ?_,fun guarded => ?_⟩
  · exact foreign (guarded.confined 1 rfl)
  · exact guarded.admitted 1 1 (by decide) (by decide) _ rfl rfl
  · exact foreign (guarded.confined 1 ⟨.nodeUpdate "1" 1 .pending,by decide,streamed⟩)

end Answer

end TinyAutomator.Access
