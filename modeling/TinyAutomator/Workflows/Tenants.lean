import TinyAutomator.Access
import TinyAutomator.Workflows.Rows
import TinyAutomator.Workflows.Created

/-! The workflow API as its users share it. A handler checks the owner of a workflow in one
statement and writes in later ones; in between, requests of anybody are served. -/
namespace TinyAutomator.Workflows

open Transition

section Requests

structure CreateWorkflowRequest where
  name : String
  description : String
  status : String
  nodes : List WorkflowNodeDTO
  edges : List WorkflowEdgeDTO

structure UpdateWorkflowRequest where
  name : String
  description : String
  nodes : List WorkflowNodeDTO
  edges : List WorkflowEdgeDTO

/-- The `required` bindings; an empty list of nodes or edges passes. -/
def CreateWorkflowRequest.bound (r : CreateWorkflowRequest) : Bool :=
  r.name ≠ "" && r.description ≠ "" && r.status ≠ ""

def UpdateWorkflowRequest.bound (r : UpdateWorkflowRequest) : Bool := r.name ≠ "" && r.description ≠ ""

structure AccountWebhookEvent where
  id : UserID
  type : String

/-- The requests that write; a body that does not decode is none. The callback brings the
user that its state parameter names. -/
inductive ApiRequest where
  | createWorkflow (body : Option CreateWorkflowRequest)
  | updateWorkflow (workflowID : String) (body : Option UpdateWorkflowRequest)
  | archiveWorkflow (workflowID : String)
  | handleCallBack (subject : UserID)
  | handleAccountDeleted (event : Option AccountWebhookEvent)

def ApiRequest.workflowID : ApiRequest → Option String
  | .updateWorkflow workflowID _ | .archiveWorkflow workflowID => some workflowID
  | .createWorkflow _ | .handleCallBack _ | .handleAccountDeleted _ => none

inductive Answer where
  | invalidID
  | unauthorized
  | unverified
  | invalidBody
  | failed
  | succeeded
  deriving DecidableEq

inductive Stage where
  | received
  | verified (workflowID : WorkflowID)
  | planned (update : UpdateRequest) (plan : Plan)
  | archiving (workflows : List WorkflowID)
  | answered (answer : Answer)
  deriving DecidableEq

/-- A request under way; `userID` is the user that authUser has set. -/
structure Handling where
  userID : UserID
  request : ApiRequest
  stage : Stage

structure Api where
  store : Store
  handling : List Handling

inductive ApiLabel where
  | receive (userID : UserID) (request : ApiRequest)
  | proceed (handling : Nat) (env : Env)

end Requests

section Handlers

/-- `int32` of what strconv.Atoi reads. -/
def idParam (text : String) : Option Int32 := (Access.atoi text).map Int.toInt32

/-- The repository's GetWorkflow; ids are SERIAL, so no row has a negative one. -/
def getWorkflow (env : Env) (id : Int32) (s : Store) : Option (WorkflowID × Workflow) :=
  if env.answers .workflow ∧ 0 ≤ id then (s.workflows id.toNatClampNeg).map (id.toNatClampNeg,·) else none

def verifyWorkflowAccess (env : Env) (id : Int32) (userID : UserID) (s : Store) :
    Except Answer WorkflowID :=
  match getWorkflow env id s with
  | none => .error .unverified
  | some (w,wf) => if wf.userID ≠ userID then .error .unauthorized else .ok w

/-- The part that UpdateWorkflow and ArchiveWorkflow have in common. -/
def verify (env : Env) (userID : UserID) (text : String) (s : Store) : Stage :=
  match idParam text with
  | none => .answered .invalidID
  | some id =>
    match verifyWorkflowAccess env id userID s with
    | .error answer => .answered answer
    | .ok w => .verified w

def answer {α : Type} (reply : Reply α) : Store × Stage :=
  match reply with
  | (t,.ok _) => (t,.answered .succeeded)
  | (t,.error _) => (t,.answered .failed)

namespace WorkflowController

def createWorkflow (env : Env) (userID : UserID) (body : Option CreateWorkflowRequest) (s : Store) :
    Store × Stage :=
  match body.filter CreateWorkflowRequest.bound with
  | none => (s,.answered .invalidBody)
  | some r => answer (Workflows.createWorkflow env userID r.name r.description r.status r.nodes r.edges s)

/-- UpdateWorkflow after the check; the body is bound only now. -/
def updateWorkflow (env : Env) (userID : UserID) (w : WorkflowID) (body : Option UpdateWorkflowRequest)
    (s : Store) : Store × Stage :=
  match body.filter UpdateWorkflowRequest.bound with
  | none => (s,.answered .invalidBody)
  | some r =>
    let update := ⟨userID,w,r.name,r.description,r.nodes,r.edges⟩
    match planUpdate env update s with
    | (t,.error _) => (t,.answered .failed)
    | (t,.ok plan) => (t,.planned update plan)

end WorkflowController

/-- The signature of the webhook is not checked. -/
def handleAccountDeleted (env : Env) (event : Option AccountWebhookEvent) (s : Store) : Stage :=
  match event with
  | none => .answered .invalidBody
  | some event =>
    if event.type ≠ "user.deleted" then .answered .succeeded
    else if event.id = "" then .answered .unauthorized
    else if env.answers .workflow then .archiving (getUserWorkflows event.id s)
    else .answered .failed

def Store.integrate (s : Store) (userID : UserID) (linked : Bool) : Store :=
  { s with integrations := fun u => if u = userID then linked else s.integrations u }

/-- What DeleteUserData does once it has read the workflows of the user. -/
def archiveNext (env : Env) (userID : UserID) : List WorkflowID → Store → Store × Stage
  | w :: rest, s =>
    if env.answers (.status w) then (s.archive w env.now,.archiving rest) else (s,.answered .failed)
  | [], s =>
    if env.answers .integrations then (s.integrate userID false,.answered .succeeded)
    else (s,.answered .failed)

/-- A request takes its next step. -/
def Handling.proceed (env : Env) (h : Handling) (s : Store) : Option (Store × Stage) :=
  match h.stage, h.request with
  | .received, .createWorkflow body => some (WorkflowController.createWorkflow env h.userID body s)
  | .received, .updateWorkflow workflowID _ => some (s,verify env h.userID workflowID s)
  | .received, .archiveWorkflow workflowID => some (s,verify env h.userID workflowID s)
  | .received, .handleCallBack subject =>
    some (if env.answers .integrations then (s.integrate subject true,.answered .succeeded)
      else (s,.answered .failed))
  | .received, .handleAccountDeleted event => some (s,handleAccountDeleted env event s)
  | .verified w, .updateWorkflow _ body => some (WorkflowController.updateWorkflow env h.userID w body s)
  | .verified w, .archiveWorkflow _ => some (answer (archiveWorkflow env w s))
  | .planned update plan, .updateWorkflow _ _ => some (answer (writeUpdate env update plan s))
  | .archiving workflows, .handleAccountDeleted (some event) => some (archiveNext env event.id workflows s)
  | _, _ => none

def apiStep : ApiLabel → Api → Option Api
  | .receive userID request, s => some { s with handling := s.handling ++ [⟨userID,request,.received⟩] }
  | .proceed i env, s =>
    match s.handling[i]? with
    | none => none
    | some h => (h.proceed env s.store).map fun result =>
      ⟨result.1,s.handling.set i { h with stage := result.2 }⟩

def api (integrations : UserID → Bool) : System Api ApiLabel := ⟨⟨.fresh integrations,[]⟩,apiStep⟩

end Handlers

section Queries

structure WorkflowCore where
  id : WorkflowID
  name : String
  description : String
  status : WorkflowStatus
  createdAt : Int
  updatedAt : Int
  deriving DecidableEq

def Workflow.summary (wf : Workflow) (w : WorkflowID) : WorkflowCore :=
  ⟨w,wf.name,wf.description,wf.status,wf.createdAt,wf.updatedAt⟩

inductive Query where
  | getWorkflow (workflowID : String)
  | getUserWorkflows
  | getWorkflowRender (workflowID : String)

inductive Content where
  | workflow (workflow : WorkflowCore)
  | workflows (workflows : List WorkflowCore)
  | graph (graph : WorkflowGraphDTO)
  deriving DecidableEq

/-- What a user gets to see; none is an error of any kind. -/
def Query.read (env : Env) (userID : UserID) (s : Store) : Query → Option Content
  | .getWorkflow text =>
    match (idParam text).bind (Workflows.getWorkflow env · s) with
    | none => none
    | some (w,wf) => if userID ≠ wf.userID then none else some (.workflow (wf.summary w))
  | .getUserWorkflows =>
    if env.answers .workflow then
      some (.workflows ((Workflows.getUserWorkflows userID s).filterMap fun w =>
        (s.workflows w).map (·.summary w)))
    else none
  | .getWorkflowRender text =>
    match verify env userID text s with
    | .verified w => ((renderWorkflowGraph env w s).toOption).map .graph
    | _ => none

end Queries

section Confined

variable {env : Env} {s t u : Store} {v owner userID : UserID} {w x : WorkflowID} {wf : Workflow}
  {r : UpdateRequest} {left : Nat} {nodeType : String} {config : Config}

def Store.Owns (s : Store) (userID : UserID) (w : WorkflowID) : Prop :=
  ∃ wf, s.workflows w = some wf ∧ wf.userID = userID

/-- What a user's own requests may change: rows of workflows of that user, which stay that
user's, new workflows of that user, and that user's token. -/
structure Confined (v : UserID) (s t : Store) : Prop where
  rows : ∀ w, t.workflows w = s.workflows w ∨
    t.Owns v w ∧ (s.Owns v w ∨ s.workflows w = none ∧ w < t.nextWorkflow)
  counter : s.nextWorkflow ≤ t.nextWorkflow
  integrations : ∀ owner, owner ≠ v → t.integrations owner = s.integrations owner

theorem Confined.refl (v : UserID) (s : Store) : Confined v s s :=
  ⟨fun _ => .inl rfl,Nat.le_refl _,fun _ _ => rfl⟩

/-- Owners stay, whoever is at work. -/
theorem Confined.owns (confined : Confined v s t) (owns : s.Owns owner w) : t.Owns owner w := by
  obtain ⟨wf,stored,own⟩ := owns
  rcases confined.rows w with same | ⟨after,before | ⟨free,_⟩⟩
  · exact ⟨wf,same.trans stored,own⟩
  · obtain ⟨wf',stored',own'⟩ := before
    obtain rfl := Option.some.inj (stored.symm.trans stored')
    obtain rfl : v = owner := own'.symm.trans own
    exact after
  · rw [stored] at free
    contradiction

theorem Confined.trans (first : Confined v s t) (second : Confined v t u) : Confined v s u where
  rows := by
    intro w
    rcases second.rows w with same | ⟨after,before⟩
    · rcases first.rows w with same' | ⟨middle,origin⟩
      · exact .inl (same.trans same')
      · obtain ⟨wf,stored,own⟩ := middle
        exact .inr ⟨⟨wf,same.trans stored,own⟩,
          origin.imp_right fun new => ⟨new.1,Nat.lt_of_lt_of_le new.2 second.counter⟩⟩
    · refine .inr ⟨after,?_⟩
      rcases first.rows w with same' | ⟨_,origin⟩
      · rcases before with ⟨wf,stored,own⟩ | ⟨free,bounded⟩
        · exact .inl ⟨wf,same'.symm.trans stored,own⟩
        · exact .inr ⟨same'.symm.trans free,bounded⟩
      · exact origin.imp_right fun new => ⟨new.1,Nat.lt_of_lt_of_le new.2 second.counter⟩
  counter := Nat.le_trans first.counter second.counter
  integrations := fun owner other => (second.integrations owner other).trans (first.integrations owner other)

theorem Confined.of_row (owns : s.Owns v w) (after : t.Owns v w)
    (others : ∀ x, x ≠ w → t.workflows x = s.workflows x) (counter : t.nextWorkflow = s.nextWorkflow)
    (integrations : t.integrations = s.integrations) : Confined v s t where
  rows := by
    intro x
    by_cases same : x = w
    · exact same ▸ .inr ⟨after,.inl owns⟩
    · exact .inl (others x same)
  counter := Nat.le_of_eq counter.symm
  integrations := fun _ _ => congrFun integrations _

theorem Confined.amend {change : Workflow → Workflow} (owns : s.Owns v w)
    (kept : ∀ wf, (change wf).userID = wf.userID) : Confined v s (s.amend w change) := by
  obtain ⟨wf,stored,own⟩ := owns
  refine .of_row ⟨wf,stored,own⟩ ⟨change wf,?_,(kept wf).trans own⟩ ?_ rfl rfl
  · rw [Store.amend_self,stored]
    rfl
  · exact fun x other => Store.amend_other s change other

theorem Quiet.confined (quiet : Quiet w s t) (owns : s.Owns v w) : Confined v s t := by
  obtain ⟨wf,stored,own⟩ := owns
  have core := quiet.core w
  rw [stored] at core
  obtain ⟨wf',after,same⟩ := Option.map_eq_some_iff.mp core
  have owner : wf'.core.userID = wf.core.userID := congrArg Workflow.userID same
  exact .of_row ⟨wf,stored,own⟩ ⟨wf',after,owner.trans own⟩ quiet.other quiet.nextWorkflow quiet.integrations

theorem Confined.integrate (s : Store) (v : UserID) (linked : Bool) : Confined v s (s.integrate v linked) :=
  ⟨fun _ => .inl rfl,Nat.le_refl _,fun _ other => if_neg other⟩

theorem writeUpdate_confined (owns : s.Owns v r.workflowID) (plan : Plan) :
    Confined v s (writeUpdate env r plan s).1 := by
  rcases writeUpdate_cases env r plan s with ⟨err,failed⟩ | ⟨t,result,patches,written⟩
  · rw [failed]
    exact .refl v s
  · rw [written]
    obtain ⟨wf,stored,own⟩ := owns
    obtain ⟨x,wf',_,after,_,_,_,_,owner,_⟩ := patches.rows stored
    obtain ⟨counter,integrations⟩ := patches.rest
    exact .of_row ⟨wf,stored,own⟩ ⟨wf',after,owner.trans own⟩ (fun _ other => patches.other other) counter integrations

theorem archiveTriggers_confined {nodes : List WorkflowNode} (owns : s.Owns v w) :
    Confined v s (archiveTriggers env w nodes s) := by
  induction nodes generalizing s with
  | nil => exact .refl v s
  | cons n rest ih =>
    unfold archiveTriggers
    split
    next =>
      have deleted : Confined v s (s.amend w fun wf => { wf with schedules := [] }) :=
        .amend owns fun _ => rfl
      exact deleted.trans (ih (deleted.owns owns))
    next => exact ih owns

theorem archiveWorkflow_confined (owns : s.Owns v w) : Confined v s (archiveWorkflow env w s).1 := by
  have archived : Confined v s (s.archive w env.now) := .amend owns fun _ => rfl
  unfold archiveWorkflow
  split
  next => exact .refl v s
  next =>
    split
    next => exact .refl v s
    next =>
      split
      next => exact .refl v s
      next =>
        dsimp only
        split
        next => exact archived
        next => exact archived.trans (archiveTriggers_confined (archived.owns owns))

/-- A trigger that is executed writes nothing but rows and its own counter. -/
theorem handler_execute_rest {handler : TriggerHandler} (executed : handler.execute env left config s = .ok t) :
    t.nextWorkflow = s.nextWorkflow ∧ t.integrations = s.integrations := by
  have schedule : ∀ {w c now t}, s.createSchedule w c now = .ok t →
      t.nextWorkflow = s.nextWorkflow ∧ t.integrations = s.integrations := by
    intro w c now t created
    unfold Store.createSchedule at created
    split at created
    next => contradiction
    next => cases created; exact ⟨rfl,rfl⟩
  have calendar : ∀ {w c syncToken now t}, s.createCalendar w c syncToken now = .ok t →
      t.nextWorkflow = s.nextWorkflow ∧ t.integrations = s.integrations := by
    intro w c syncToken now t created
    unfold Store.createCalendar at created
    split at created
    next => contradiction
    next => cases created; exact ⟨rfl,rfl⟩
  cases handler with
  | schedule =>
    obtain ⟨c,_,executed⟩ := Fold.bind_ok.mp executed
    split at executed
    next =>
      split at executed
      next => exact schedule (wrap_ok.mp executed)
      next => contradiction
    next => contradiction
  | calendarEvent =>
    obtain ⟨c,_,executed⟩ := Fold.bind_ok.mp executed
    dsimp only at executed
    split at executed
    next =>
      split at executed
      next =>
        obtain ⟨syncToken,_,executed⟩ := Fold.bind_ok.mp executed
        split at executed
        next => exact calendar (wrap_ok.mp executed)
        next => contradiction
      next => contradiction
    next => contradiction

theorem registry_execute_confined (owns : s.Owns v w)
    (executed : TriggerRegistry.execute env left nodeType (Config.withIDs config userID w) s = .ok t) :
    Confined v s t := by
  obtain ⟨wf,handler,change,_,stored,insert,put,_⟩ := registry_execute_ok executed
  have rest : t.nextWorkflow = s.nextWorkflow ∧ t.integrations = s.integrations := by
    unfold TriggerRegistry.execute at executed
    split at executed
    next => contradiction
    next =>
      split at executed
      next => contradiction
      next => exact handler_execute_rest (wrap_ok.mp executed)
  have kept : (change wf).userID = wf.userID := by cases insert <;> rfl
  obtain ⟨wf',stored',own⟩ := owns
  obtain rfl := Option.some.inj (stored.symm.trans stored')
  refine .of_row ⟨wf,stored,own⟩ ⟨change wf,?_,kept.trans own⟩ ?_ rest.1 rest.2
  · rw [put,Store.put_self]
  · exact fun x other => by rw [put,Store.put_other s _ other]

theorem executeTriggers_confined {nodes : List WorkflowNode} (owns : s.Owns v w) :
    Confined v s (executeTriggers env userID w nodes s).1 := by
  induction nodes generalizing s with
  | nil => exact .refl v s
  | cons n rest ih =>
    unfold executeTriggers
    split
    next =>
      split
      next => exact .refl v s
      next t executed =>
        have first := registry_execute_confined owns executed
        exact first.trans (ih (first.owns owns))
    next => exact ih owns

theorem insertWorkflow_confined {name description status : String} {nodes : List WorkflowNodeDTO}
    {edges : List WorkflowEdgeDTO} {now : Int} {g : WorkflowGraph}
    (created : insertWorkflow v name description status nodes edges now s = .ok (t,g)) :
    Confined v s t ∧ t.Owns v s.nextWorkflow := by
  obtain ⟨free,others,_⟩ := insertWorkflow_ok created
  unfold insertWorkflow at created
  split at created
  next => contradiction
  next =>
    split at created
    next => contradiction
    next =>
      split at created
      next => contradiction
      next => contradiction
      next =>
        obtain ⟨⟨x,_⟩,_,created⟩ := Fold.bind_ok.mp created
        obtain ⟨y,_,created⟩ := Fold.bind_ok.mp created
        cases created
        refine ⟨⟨fun w => ?_,Nat.le_succ _,fun _ _ => rfl⟩,_,Store.put_self s _ _,rfl⟩
        by_cases same : w = s.nextWorkflow
        · subst same
          exact .inr ⟨⟨_,Store.put_self s _ _,rfl⟩,.inr ⟨free,Nat.lt_succ_self _⟩⟩
        · exact .inl (others w same)

theorem createWorkflow_confined (env : Env) (v : UserID) (name description status : String)
    (nodes : List WorkflowNodeDTO) (edges : List WorkflowEdgeDTO) (s : Store) :
    Confined v s (createWorkflow env v name description status nodes edges s).1 := by
  rcases createWorkflow_store env v name description status nodes edges s with same | ⟨t,g,triggers,rows,same⟩
  · rw [same]
    exact .refl v s
  · obtain ⟨confined,owns⟩ := insertWorkflow_confined rows
    rw [same]
    exact confined.trans (executeTriggers_confined owns)

end Confined

section Steps

variable {env : Env} {h : Handling} {s t : Store} {userID owner : UserID} {w : WorkflowID}
  {text : String} {stage : Stage}

/-- The user whose rows a request may write. -/
def Handling.actsFor (h : Handling) : UserID :=
  match h.request with
  | .handleCallBack subject => subject
  | .handleAccountDeleted (some event) => event.id
  | .createWorkflow _ | .updateWorkflow _ _ | .archiveWorkflow _ | .handleAccountDeleted none => h.userID

/-- The workflow that the path of a request names. -/
def ApiRequest.Addresses (request : ApiRequest) (w : WorkflowID) : Prop :=
  ∃ text id, request.workflowID = some text ∧ idParam text = some id ∧ id.toNatClampNeg = w

/-- What holds of the store when a request has come to some stage. -/
def Handling.Knows (h : Handling) (s : Store) : Prop :=
  match h.stage with
  | .verified w => h.request.Addresses w ∧ s.Owns h.userID w
  | .planned update _ => h.request.Addresses update.workflowID ∧ s.Owns h.userID update.workflowID
  | .archiving workflows => ∀ w ∈ workflows, s.Owns h.actsFor w
  | .answered .succeeded => h.request.workflowID.isSome →
      ∃ w, h.request.Addresses w ∧ s.Owns h.userID w
  | .answered .unauthorized => h.request.workflowID.isSome →
      ∃ w owner, h.request.Addresses w ∧ owner ≠ h.userID ∧ s.Owns owner w
  | .received | .answered .invalidID | .answered .unverified | .answered .invalidBody
  | .answered .failed => True

/-- Owners stay, so what a request knows it knows for good. -/
theorem Handling.Knows.confined {v : UserID} (knows : h.Knows s) (confined : Confined v s t) : h.Knows t := by
  unfold Handling.Knows at knows ⊢
  split at knows
  next => exact ⟨knows.1,confined.owns knows.2⟩
  next => exact ⟨knows.1,confined.owns knows.2⟩
  next => exact fun w member => confined.owns (knows w member)
  next =>
    intro named
    obtain ⟨w,addressed,owns⟩ := knows named
    exact ⟨w,addressed,confined.owns owns⟩
  next =>
    intro named
    obtain ⟨w,owner,addressed,other,owns⟩ := knows named
    exact ⟨w,owner,addressed,other,confined.owns owns⟩
  all_goals trivial

theorem getWorkflow_some {id : Int32} {wf : Workflow} (found : getWorkflow env id s = some (w,wf)) :
    id.toNatClampNeg = w ∧ s.workflows w = some wf := by
  unfold getWorkflow at found
  split at found
  next =>
    obtain ⟨_,stored,same⟩ := Option.map_eq_some_iff.mp found
    cases same
    exact ⟨rfl,stored⟩
  next => contradiction

theorem verify_knows {request : ApiRequest} (named : request.workflowID = some text) :
    (Handling.mk userID request (verify env userID text s)).Knows s := by
  unfold verify
  split
  next => exact trivial
  next id parsed =>
    unfold verifyWorkflowAccess
    cases found : getWorkflow env id s with
    | none => exact trivial
    | some row =>
      obtain ⟨w,wf⟩ := row
      obtain ⟨same,stored⟩ := getWorkflow_some found
      have addressed : request.Addresses w := ⟨text,id,named,parsed,same⟩
      by_cases own : wf.userID = userID
      · simp only [own,ne_eq,not_true_eq_false,if_false]
        exact ⟨addressed,wf,stored,own⟩
      · simp only [ne_eq,own,not_false_eq_true,if_true]
        exact fun _ => ⟨w,wf.userID,addressed,own,wf,stored,rfl⟩

theorem answer_knows {α : Type} {reply : Reply α} {request : ApiRequest}
    (owns : request.workflowID.isSome → ∃ w, request.Addresses w ∧ reply.1.Owns userID w) :
    (Handling.mk userID request (answer reply).2).Knows (answer reply).1 := by
  obtain ⟨t,result⟩ := reply
  cases result with
  | error => exact trivial
  | ok => exact owns

theorem answer_store {α : Type} (reply : Reply α) : (answer reply).1 = reply.1 := by
  obtain ⟨t,result⟩ := reply
  cases result <;> rfl

theorem getUserWorkflows_owns (member : w ∈ getUserWorkflows userID s) : s.Owns userID w := by
  obtain ⟨_,owned⟩ := List.mem_filter.mp member
  obtain ⟨wf,stored,own⟩ := (Option.any_eq_true _ _).mp owned
  exact ⟨wf,stored,of_decide_eq_true own⟩

theorem archiveNext_knows {event : AccountWebhookEvent} {workflows : List WorkflowID}
    (owns : ∀ w ∈ workflows, s.Owns event.id w) :
    Confined event.id s (archiveNext env event.id workflows s).1 ∧
    (Handling.mk userID (.handleAccountDeleted (some event)) (archiveNext env event.id workflows s).2).Knows
      (archiveNext env event.id workflows s).1 := by
  cases workflows with
  | nil =>
    by_cases answers : env.answers .integrations = true
    · simp only [archiveNext,if_pos answers]
      exact ⟨.integrate s event.id false,fun named => absurd named (by simp [ApiRequest.workflowID])⟩
    · simp only [archiveNext,if_neg answers]
      exact ⟨.refl _ s,trivial⟩
  | cons w rest =>
    by_cases answers : env.answers (.status w) = true
    · simp only [archiveNext,if_pos answers]
      have archived : Confined event.id s (s.archive w env.now) :=
        .amend (owns w List.mem_cons_self) fun _ => rfl
      exact ⟨archived,fun x member => archived.owns (owns x (List.mem_cons_of_mem _ member))⟩
    · simp only [archiveNext,if_neg answers]
      exact ⟨.refl _ s,trivial⟩

/-- A step of a request writes rows of the user it acts for, and nothing else. -/
theorem proceed_confined (knows : h.Knows s) (next : h.proceed env s = some (t,stage)) :
    Confined h.actsFor s t ∧ { h with stage }.Knows t := by
  obtain ⟨userID,request,stage⟩ := h
  cases stage with
  | received =>
    cases request with
    | createWorkflow body =>
      simp only [Handling.proceed,WorkflowController.createWorkflow] at next
      split at next
      next => cases next; exact ⟨.refl _ _,trivial⟩
      next r _ =>
        have confined := createWorkflow_confined env userID r.name r.description r.status r.nodes r.edges s
        rw [← answer_store] at confined
        have knows := @answer_knows userID _ (createWorkflow env userID r.name r.description r.status
          r.nodes r.edges s) (.createWorkflow body) (by simp [ApiRequest.workflowID])
        rw [Option.some.inj next] at confined knows
        exact ⟨confined,knows⟩
    | updateWorkflow text body =>
      cases next
      exact ⟨.refl _ _,verify_knows rfl⟩
    | archiveWorkflow text =>
      cases next
      exact ⟨.refl _ _,verify_knows rfl⟩
    | handleCallBack subject =>
      simp only [Handling.proceed] at next
      split at next
      next =>
        cases next
        exact ⟨.integrate s subject true,fun named => absurd named (by simp [ApiRequest.workflowID])⟩
      next => cases next; exact ⟨.refl _ _,trivial⟩
    | handleAccountDeleted event =>
      cases next
      refine ⟨.refl _ _,?_⟩
      unfold handleAccountDeleted
      split
      next => exact trivial
      next event =>
        split
        next => exact fun named => absurd named (by simp [ApiRequest.workflowID])
        next =>
          split
          next => exact fun named => absurd named (by simp [ApiRequest.workflowID])
          next =>
            split
            next => exact fun w member => getUserWorkflows_owns member
            next => exact trivial
  | verified w =>
    obtain ⟨addressed,owns⟩ := knows
    cases request with
    | updateWorkflow text body =>
      simp only [Handling.proceed,WorkflowController.updateWorkflow] at next
      split at next
      next => cases next; exact ⟨.refl _ _,trivial⟩
      next r _ =>
        have quiet := planUpdate_quiet env ⟨userID,w,r.name,r.description,r.nodes,r.edges⟩ s
        have confined : Confined userID s _ := quiet.confined owns
        split at next
        next u err planned =>
          rw [planned] at confined
          cases next
          exact ⟨confined,trivial⟩
        next u plan planned =>
          rw [planned] at confined
          cases next
          exact ⟨confined,addressed,confined.owns owns⟩
    | archiveWorkflow text =>
      have confined : Confined userID s (archiveWorkflow env w s).1 := archiveWorkflow_confined owns
      have knows := @answer_knows userID _ (archiveWorkflow env w s) (.archiveWorkflow text)
        fun _ => ⟨w,addressed,confined.owns owns⟩
      rw [← answer_store] at confined
      simp only [Handling.proceed] at next
      rw [Option.some.inj next] at confined knows
      exact ⟨confined,knows⟩
    | createWorkflow | handleCallBack | handleAccountDeleted => contradiction
  | planned update plan =>
    obtain ⟨addressed,owns⟩ := knows
    cases request with
    | updateWorkflow text body =>
      have confined : Confined userID s (writeUpdate env update plan s).1 := writeUpdate_confined owns plan
      have knows := @answer_knows userID _ (writeUpdate env update plan s) (.updateWorkflow text body)
        fun _ => ⟨update.workflowID,addressed,confined.owns owns⟩
      rw [← answer_store] at confined
      simp only [Handling.proceed] at next
      rw [Option.some.inj next] at confined knows
      exact ⟨confined,knows⟩
    | createWorkflow | archiveWorkflow | handleCallBack | handleAccountDeleted => contradiction
  | archiving workflows =>
    cases request with
    | handleAccountDeleted event =>
      cases event with
      | none => contradiction
      | some event =>
        obtain ⟨confined,known⟩ := @archiveNext_knows env s userID event workflows knows
        simp only [Handling.proceed] at next
        rw [Option.some.inj next] at confined known
        exact ⟨confined,known⟩
    | createWorkflow | updateWorkflow | archiveWorkflow | handleCallBack => contradiction
  | answered => cases request <;> contradiction

end Steps

section Runs

variable {integrations : UserID → Bool} {s t : Api} {u : UserID} {label : ApiLabel}

theorem proceed_some {i : Nat} {env : Env} (step : apiStep (.proceed i env) s = some t) :
    ∃ h store stage, s.handling[i]? = some h ∧ h.proceed env s.store = some (store,stage) ∧
      t = ⟨store,s.handling.set i { h with stage }⟩ := by
  simp only [apiStep] at step
  split at step
  next => contradiction
  next h at_ =>
    obtain ⟨⟨store,stage⟩,next,rfl⟩ := Option.map_eq_some_iff.mp step
    exact ⟨h,store,stage,at_,next,rfl⟩

/-- Every request knows what its stage says, and no row has an id that is still to be given out. -/
structure Api.Sound (s : Api) : Prop where
  handling : ∀ h ∈ s.handling, h.Knows s.store
  bounded : ∀ w, s.store.nextWorkflow ≤ w → s.store.workflows w = none

theorem Confined.bounded {s t : Store} {v : UserID} (confined : Confined v s t)
    (bounded : ∀ w, s.nextWorkflow ≤ w → s.workflows w = none) :
    ∀ w, t.nextWorkflow ≤ w → t.workflows w = none := by
  intro w above
  have free := bounded w (Nat.le_trans confined.counter above)
  rcases confined.rows w with same | ⟨_,⟨wf,stored,_⟩ | ⟨_,below⟩⟩
  · exact same.trans free
  · rw [free] at stored
    contradiction
  · exact absurd below (Nat.not_lt_of_le above)

theorem Api.Sound.step (sound : s.Sound) (step : apiStep label s = some t) : t.Sound := by
  cases label with
  | receive userID request =>
    cases step
    exact ⟨Pool.forall_append sound.handling trivial,sound.bounded⟩
  | proceed i env =>
    obtain ⟨h,store,stage,at_,next,rfl⟩ := proceed_some step
    obtain ⟨confined,knows⟩ := proceed_confined (sound.handling h (List.mem_of_getElem? at_)) next
    exact ⟨Pool.forall_set (fun x member => (sound.handling x member).confined confined) knows,
      confined.bounded sound.bounded⟩

theorem reach_sound (reach : Reach (api integrations) (fun _ _ => True) s) : s.Sound := by
  refine reach.invariant Api.Sound ?_ ?_
  · exact ⟨by simp [api],fun _ _ => rfl⟩
  · intro s label t _ sound _ step
    exact sound.step step

/-- No request acts for the user. -/
def Foreign (u : UserID) : Guard Api ApiLabel
  | _, .receive _ _ => True
  | s, .proceed i _ => ∀ h ∈ s.handling[i]?, h.actsFor ≠ u

/-- The user's workflows and token are the same. -/
structure Untouched (u : UserID) (s t : Store) : Prop where
  rows : ∀ w, (t.workflows w).filter (·.userID = u) = (s.workflows w).filter (·.userID = u)
  counter : s.nextWorkflow ≤ t.nextWorkflow
  integrations : t.integrations u = s.integrations u

theorem Confined.untouched {v : UserID} {s t : Store} (confined : Confined v s t) (other : v ≠ u) :
    Untouched u s t where
  rows := by
    intro w
    have hidden : ∀ {x : Store}, x.Owns v w → (x.workflows w).filter (·.userID = u) = none := by
      rintro x ⟨wf,stored,own⟩
      simp [stored,own,other]
    rcases confined.rows w with same | ⟨after,before | ⟨free,_⟩⟩
    · rw [same]
    · rw [hidden after,hidden before]
    · rw [hidden after,free]
      rfl
  counter := confined.counter
  integrations := confined.integrations u (Ne.symm other)

theorem foreign_untouched (reach : Reach (api integrations) (fun _ _ => True) s)
    (path : Path (api integrations) (Foreign u) s t) : Untouched u s.store t.store := by
  have whole : Reach (api integrations) (fun _ _ => True) t ∧ Untouched u s.store t.store := by
    refine path.invariant (fun t => Reach (api integrations) (fun _ _ => True) t ∧
      Untouched u s.store t.store) ⟨reach,fun _ => rfl,Nat.le_refl _,rfl⟩ ?_
    rintro s' label t' ⟨reached,sofar⟩ foreign step
    refine ⟨.tail reached trivial step,?_⟩
    cases label with
    | receive userID request => cases step; exact sofar
    | proceed i env =>
      obtain ⟨h,store,stage,at_,next,rfl⟩ := proceed_some step
      obtain ⟨confined,_⟩ :=
        proceed_confined ((reach_sound reached).handling h (List.mem_of_getElem? at_)) next
      have more := confined.untouched (foreign h at_)
      exact ⟨fun w => (more.rows w).trans (sofar.rows w),Nat.le_trans sofar.counter more.counter,
        more.integrations.trans sofar.integrations⟩
  exact whole.2

end Runs

section Reads

variable {env : Env} {s t : Store} {u : UserID} {w : WorkflowID} {text : String}

theorem Untouched.stored (untouched : Untouched u s t) {wf : Workflow} (own : wf.userID = u) :
    t.workflows w = some wf ↔ s.workflows w = some wf := by
  have visible : ∀ x : Store, x.workflows w = some wf ↔ (x.workflows w).filter (·.userID = u) = some wf := by
    intro x
    simp [Option.filter_eq_some_iff,own]
  rw [visible t,visible s,untouched.rows w]

theorem Untouched.owns (untouched : Untouched u s t) : t.Owns u w ↔ s.Owns u w := by
  constructor
  · rintro ⟨wf,stored,own⟩
    exact ⟨wf,(untouched.stored own).mp stored,own⟩
  · rintro ⟨wf,stored,own⟩
    exact ⟨wf,(untouched.stored own).mpr stored,own⟩

theorem Untouched.getUserWorkflows (untouched : Untouched u s t)
    (bounded : ∀ w, s.nextWorkflow ≤ w → s.workflows w = none) :
    Workflows.getUserWorkflows u t = Workflows.getUserWorkflows u s := by
  obtain ⟨more,later⟩ := Nat.exists_eq_add_of_le untouched.counter
  have same : ∀ w, ((t.workflows w).any fun wf => decide (wf.userID = u)) =
      (s.workflows w).any fun wf => decide (wf.userID = u) := by
    intro w
    rw [Bool.eq_iff_iff,Option.any_eq_true,Option.any_eq_true]
    simpa [Store.Owns] using untouched.owns (w := w)
  have beyond : ((List.range more).map (s.nextWorkflow + ·)).filter
      (fun w => (s.workflows w).any fun wf => decide (wf.userID = u)) = [] := by
    rw [List.filter_eq_nil_iff]
    intro w member
    obtain ⟨k,_,rfl⟩ := List.mem_map.mp member
    simp [bounded (s.nextWorkflow + k) (Nat.le_add_right _ _)]
  unfold Workflows.getUserWorkflows
  simp only [same]
  rw [later,List.range_add,List.filter_append,beyond,List.append_nil]

theorem verify_verified : verify env u text s = .verified w ↔ env.answers .workflow = true ∧
    ∃ id, idParam text = some id ∧ 0 ≤ id ∧ id.toNatClampNeg = w ∧ s.Owns u w := by
  unfold verify
  cases parsed : idParam text with
  | none => simp
  | some id =>
    by_cases answers : env.answers .workflow = true ∧ 0 ≤ id
    · cases stored : s.workflows id.toNatClampNeg with
      | none =>
        simp only [verifyWorkflowAccess,getWorkflow,if_pos answers,stored,Option.map_none,reduceCtorEq,false_iff]
        rintro ⟨_,_,⟨⟩,_,rfl,wf,present,_⟩
        rw [stored] at present
        contradiction
      | some wf =>
        simp only [verifyWorkflowAccess,getWorkflow,if_pos answers,stored,Option.map_some]
        by_cases own : wf.userID = u
        · simp only [own,ne_eq,not_true_eq_false,if_false,Stage.verified.injEq]
          refine ⟨fun same => ⟨answers.1,id,rfl,answers.2,same,same ▸ ⟨wf,stored,own⟩⟩,?_⟩
          rintro ⟨_,_,⟨⟩,_,same,_⟩
          exact same
        · simp only [ne_eq,own,not_false_eq_true,if_true,reduceCtorEq,false_iff]
          rintro ⟨_,_,⟨⟩,_,rfl,wf',present,own'⟩
          obtain rfl := Option.some.inj (stored.symm.trans present)
          exact own own'
    · simp only [verifyWorkflowAccess,getWorkflow,if_neg answers,reduceCtorEq,false_iff]
      rintro ⟨answered,_,⟨⟩,natural,_⟩
      exact answers ⟨answered,natural⟩

/-- GetWorkflow shows what VerifyWorkflowAccess grants. -/
theorem read_getWorkflow : (Query.getWorkflow text).read env u s =
    match verify env u text s with
    | .verified w => (s.workflows w).map fun wf => .workflow (wf.summary w)
    | _ => none := by
  simp only [Query.read,verify]
  cases parsed : idParam text with
  | none => rfl
  | some id =>
    simp only [Option.bind_some]
    cases found : getWorkflow env id s with
    | none => simp [verifyWorkflowAccess,found]
    | some row =>
      obtain ⟨w,wf⟩ := row
      obtain ⟨_,stored⟩ := getWorkflow_some found
      by_cases own : wf.userID = u
      · simp [verifyWorkflowAccess,found,stored,own]
      · simp [verifyWorkflowAccess,found,own,Ne.symm own]

/-- What is behind an access check is read alike. -/
theorem Untouched.granted {α : Type} (untouched : Untouched u s t) (f : WorkflowID → Store → Option α)
    (local_ : ∀ w, t.workflows w = s.workflows w → f w t = f w s) :
    (match verify env u text t with | .verified w => f w t | _ => none) =
      match verify env u text s with | .verified w => f w s | _ => none := by
  by_cases granted : ∃ w, verify env u text s = .verified w
  · obtain ⟨w,here⟩ := granted
    have there := here
    obtain ⟨_,_,_,_,_,wf,stored,own⟩ := verify_verified.mp there
    rw [verify_verified,← untouched.owns,← verify_verified] at there
    rw [here,there]
    exact local_ w (((untouched.stored own).mpr stored).trans stored.symm)
  · have refused : ¬∃ w, verify env u text t = .verified w := by
      simpa only [verify_verified,untouched.owns] using granted
    split
    next w there => exact absurd ⟨w,there⟩ refused
    next =>
      split
      next w here => exact absurd ⟨w,here⟩ granted
      next => rfl

theorem Untouched.read (untouched : Untouched u s t)
    (bounded : ∀ w, s.nextWorkflow ≤ w → s.workflows w = none) (query : Query) :
    query.read env u t = query.read env u s := by
  cases query with
  | getWorkflow text =>
    rw [read_getWorkflow,read_getWorkflow]
    exact untouched.granted (fun w x => (x.workflows w).map fun wf => Content.workflow (wf.summary w))
      fun w same => by rw [same]
  | getUserWorkflows =>
    simp only [Query.read,untouched.getUserWorkflows bounded]
    split
    next =>
      congr 2
      refine List.filterMap_congr fun w member => ?_
      obtain ⟨wf,stored,own⟩ := getUserWorkflows_owns member
      rw [stored,(untouched.stored own).mpr stored]
    next => rfl
  | getWorkflowRender text =>
    refine untouched.granted (fun w x => ((renderWorkflowGraph env w x).toOption).map Content.graph) fun w same => ?_
    simp only [renderWorkflowGraph,same]

variable {integrations : UserID → Bool} {x y : Api}

instance (u : UserID) (s : Api) : (label : ApiLabel) → Decidable (Foreign u s label)
  | .receive _ _ => isTrue trivial
  | .proceed i _ => inferInstanceAs (Decidable (∀ h ∈ s.handling[i]?, h.actsFor ≠ u))

/-- The creation of a mail with a schedule. -/
def remind : ApiRequest := .createWorkflow (some ⟨"reminder","a mail","active",
  [trigger (.uuid "t") "daily",mail (.uuid "m")],[⟨"",.uuid "t",.uuid "m"⟩]⟩)

/-- Alice is about to archive her workflow, and Bob tries the same. -/
def contested : List ApiLabel := [.receive "alice" remind,.proceed 0 .dated,
  .receive "alice" (.archiveWorkflow "1"),.receive "bob" (.archiveWorkflow "1"),.proceed 1 .dated]

/-- In every run, a workflow is updated or archived only for its owner, and only somebody else
is refused access. -/
theorem answers_authorized (reach : Reach (api integrations) (fun _ _ => True) x) {h : Handling}
    (member : h ∈ x.handling) (named : h.request.workflowID.isSome) :
    (h.stage = .answered .succeeded → ∃ w, h.request.Addresses w ∧ x.store.Owns h.userID w) ∧
    (h.stage = .answered .unauthorized →
      ∃ w owner, h.request.Addresses w ∧ owner ≠ h.userID ∧ x.store.Owns owner w) := by
  have knows := (reach_sound reach).handling h member
  refine ⟨fun stage => ?_,fun stage => ?_⟩
  · simp only [Handling.Knows,stage] at knows
    exact knows named
  · simp only [Handling.Knows,stage] at knows
    exact knows named

/-- Alice archives her workflow and Bob is refused. -/
theorem contested_authorized : ∃ s, Reach (api fun _ => true) (fun _ _ => True) s ∧
    ∃ h ∈ s.handling, h.stage = .answered .unauthorized ∧ h.userID = "bob" ∧
      ((h.stage = .answered .succeeded → ∃ w, h.request.Addresses w ∧ s.store.Owns h.userID w) ∧
      (h.stage = .answered .unauthorized →
        ∃ w owner, h.request.Addresses w ∧ owner ≠ h.userID ∧ s.store.Owns owner w)) := by
  have run : ∃ s, Reach (api fun _ => true) (fun _ _ => True) s ∧ (s.handling[2]?.any fun h => decide
      (h.stage = .answered .unauthorized ∧ h.userID = "bob" ∧ h.request.workflowID.isSome)) = true :=
    follow_exists (contested ++ [.proceed 1 .dated,.proceed 2 .dated]) (by decide +kernel)
  obtain ⟨s,reach,shape⟩ := run
  obtain ⟨h,at_,holds⟩ := (Option.any_eq_true _ _).mp shape
  obtain ⟨refused,bob,named⟩ := of_decide_eq_true holds
  have member := List.mem_of_getElem? at_
  exact ⟨s,reach,h,member,refused,bob,answers_authorized reach member named⟩

/-- Tenants are isolated: as long as no request acts for a user, whatever else is served in
whatever order, the user's workflows and token stay as they are, and all that the user
can read with them. -/
theorem tenants_isolated (reach : Reach (api integrations) (fun _ _ => True) x)
    (path : Path (api integrations) (Foreign u) x y) :
    (∀ w wf, wf.userID = u → (y.store.workflows w = some wf ↔ x.store.workflows w = some wf)) ∧
    y.store.integrations u = x.store.integrations u ∧
    ∀ (env : Env) (query : Query), query.read env u y.store = query.read env u x.store := by
  have untouched := foreign_untouched reach path
  refine ⟨fun w wf own => untouched.stored own,untouched.integrations,fun env query => ?_⟩
  exact untouched.read (reach_sound reach).bounded query

/-- While Alice's request waits, Bob is refused, creates a workflow and has his account deleted. -/
theorem contested_isolated : ∃ x y, Reach (api fun _ => true) (fun _ _ => True) x ∧
    Path (api fun _ => true) (Foreign "alice") x y ∧
    y.handling.map (·.stage) = [.answered .succeeded,.verified 1,.answered .unauthorized,
      .answered .succeeded,.answered .succeeded] ∧
    ((∀ w wf, wf.userID = "alice" → (y.store.workflows w = some wf ↔ x.store.workflows w = some wf)) ∧
    y.store.integrations "alice" = x.store.integrations "alice" ∧
    ∀ (env : Env) (query : Query), query.read env "alice" y.store = query.read env "alice" x.store) := by
  let later : List ApiLabel := [.proceed 2 .dated,.receive "bob" remind,.proceed 3 .dated,
    .receive "mallory" (.handleAccountDeleted (some ⟨"bob","user.deleted"⟩)),.proceed 4 .dated,
    .proceed 4 .dated,.proceed 4 .dated]
  obtain ⟨x,y,reach,path,shape⟩ : ∃ x y, Reach (api fun _ => true) (fun _ _ => True) x ∧
      Path (api fun _ => true) (Foreign "alice") x y ∧
      y.handling.map (·.stage) = [.answered .succeeded,.verified 1,.answered .unauthorized,
        .answered .succeeded,.answered .succeeded] :=
    follow_phases_exist contested later (by decide +kernel)
  exact ⟨x,y,reach,path,shape,tenants_isolated reach path⟩

end Reads

end TinyAutomator.Workflows
