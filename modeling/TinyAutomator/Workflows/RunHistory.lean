import TinyAutomator.Workflows.Polls
import TinyAutomator.Workflows.Tenants

/-! Who runs are started for and who gets to see them. RunWorkflow checks the owner and
orchestrates later; a poller has read the owner with the row that it claimed. -/
namespace TinyAutomator.Workflows

open Transition

section History

/-- The step that inserts a run: that of a request for RunWorkflow, or of a goroutine of the
scheduler. -/
inductive Cause where
  | request (i : Nat)
  | job (i : Nat)
  deriving DecidableEq

/-- A workflow_run row with the nodes of its node runs. `userID` is what OrchestrateWorkflow was
called with and goes into every task; it and `cause` are no columns. -/
structure RunRow extends Run.WorkflowRun where
  id : Nat
  workflowID : WorkflowID
  createdAt : Int
  nodes : List NodeID
  userID : UserID
  cause : Cause
  deriving DecidableEq

/-- A run with the name of its workflow. -/
structure UserRun where
  workflowName : String
  run : RunRow
  deriving DecidableEq

/-- The row as it was inserted. -/
def RunRow.opened (run : RunRow) : RunRow := { run with status := .running, finishedAt := none }

def UserRun.opened (row : UserRun) : UserRun := { row with run := row.run.opened }

inductive RunAnswer where
  | refused (answer : Answer)
  | failed
  | started (runID : Nat)
  deriving DecidableEq

inductive RunStage where
  | received
  | verified (workflowID : WorkflowID)
  | answered (answer : RunAnswer)
  deriving DecidableEq

structure RunRequest where
  userID : UserID
  workflowID : String
  stage : RunStage
  deriving DecidableEq

/-- What a goroutine of the scheduler hands to OrchestrateWorkflow. -/
structure RunJob where
  workflowID : WorkflowID
  userID : UserID
  deriving DecidableEq

structure History where
  api : Api
  jobs : List RunJob
  requests : List RunRequest
  runs : List RunRow
  nextRun : Nat

/-- The schedules and calendars that the scheduler writes are left free, and so are the runs that
workers complete. `enqueues` tells whether a created run is reported and its root nodes get into the
queue. -/
inductive HistoryLabel where
  | api (label : ApiLabel)
  | writeRows (workflowID : WorkflowID) (schedules : List ScheduleRow) (calendars : List CalendarRow)
  | claim (workflowID : WorkflowID)
  | orchestrate (job : Nat) (env : Env) (now : Int)
  | receive (userID : UserID) (workflowID : String)
  | proceed (request : Nat) (env : Env) (now : Int) (enqueues : Bool)
  | complete (runID : Nat) (status : Run.RunStatus) (now : Int)

variable (s : History)

def History.store : Store := s.api.store

def History.onStore (store : Store) : History := { s with api := { s.api with store } }

/-- OrchestrateWorkflow: the run that CreateWorkflowRun has committed, if it comes so far. -/
def History.orchestrate (env : Env) (userID : UserID) (w : WorkflowID) (now : Int) (cause : Cause) :
    Option RunRow :=
  match orchestrateWorkflow env w s.store, getWorkflowGraph env w s.store with
  | .ok (), .ok wg => some {
      status := .running
      finishedAt := none
      id := s.nextRun
      workflowID := w
      createdAt := now
      nodes := wg.nodes.map (·.id)
      userID
      cause }
  | _, _ => none

def History.create (run : Option RunRow) : History :=
  { s with runs := s.runs ++ run.toList, nextRun := s.nextRun + 1 }

/-- RunWorkflow up to and with the ownership check. -/
def verifyRun (env : Env) (userID : UserID) (workflowID : String) (store : Store) : RunStage :=
  match verify env userID workflowID store with
  | .verified w => .verified w
  | .answered answer => .answered (.refused answer)
  | .received | .planned _ _ | .archiving _ => .answered .failed

def History.turn (i : Nat) (r : RunRequest) (stage : RunStage) : History :=
  { s with requests := s.requests.set i { r with stage } }

/-- The next step of RunWorkflow. -/
def History.runWorkflow (env : Env) (now : Int) (enqueues : Bool) (i : Nat) (r : RunRequest) : Option History :=
  match r.stage with
  | .received => some (s.turn i r (verifyRun env r.userID r.workflowID s.store))
  | .verified w =>
    match s.orchestrate env r.userID w now (.request i) with
    | none => some ((s.create none).turn i r (.answered .failed))
    | some run => some ((s.create (some run)).turn i r (.answered (if enqueues then .started run.id else .failed)))
  | .answered _ => none

/-- The UPDATE of CompleteWorkflowRun. -/
def completeWorkflowRun (runID : Nat) (status : Run.RunStatus) (now : Int) (run : RunRow) : RunRow :=
  if run.id = runID then { run with status, finishedAt := some now } else run

def historyStep : HistoryLabel → History → Option History
  | .api label, s => (apiStep label s.api).map fun api => { s with api }
  | .writeRows w schedules calendars, s =>
    some (s.onStore (s.store.amend w fun wf => { wf with schedules, calendars }))
  | .claim w, s => (s.store.workflows w).map fun wf => { s with jobs := s.jobs ++ [⟨w,wf.userID⟩] }
  | .orchestrate i env now, s =>
    s.jobs[i]?.map fun job => s.create (s.orchestrate env job.userID job.workflowID now (.job i))
  | .receive userID workflowID, s => some { s with requests := s.requests ++ [⟨userID,workflowID,.received⟩] }
  | .proceed i env now enqueues, s => s.requests[i]?.bind (s.runWorkflow env now enqueues i)
  | .complete runID status now, s => some { s with runs := s.runs.map (completeWorkflowRun runID status now) }

def history (integrations : UserID → Bool) : System History HistoryLabel :=
  ⟨⟨⟨.fresh integrations,[]⟩,[],[],[],1⟩,historyStep⟩

end History

section Queries

/-- `ORDER BY created_at DESC LIMIT 25`; rows of the same time come in any order. -/
def Newest (rows answer : List RunRow) : Prop :=
  answer.Pairwise (fun a b => b.createdAt ≤ a.createdAt) ∧ answer.length = min 25 rows.length ∧
    ∃ rest, rows.Perm (answer ++ rest) ∧ ∀ r ∈ rest, ∀ a ∈ answer, r.createdAt ≤ a.createdAt

variable (s : History) (env : Env) (userID : UserID)

/-- The rows of GetUserWorkflowRuns: a join with the workflows of the user. -/
def History.userWorkflowRuns : List UserRun :=
  s.runs.filterMap fun run =>
    ((s.store.workflows run.workflowID).filter (·.userID = userID)).map fun wf => ⟨wf.name,run⟩

/-- The rows of GetWorkflowRuns, if the user is granted access. -/
def History.workflowRuns (workflowID : String) : Option (List RunRow) :=
  match verify env userID workflowID s.store with
  | .verified w => if env.answers .runs then some (s.runs.filter (·.workflowID = w)) else none
  | _ => none

/-- GetWorkflowNodeRuns checks the access to the workflow that has the id of the run. -/
def History.workflowNodeRuns (runID : String) : Option (List NodeID) :=
  match verify env userID runID s.store with
  | .verified r => if env.answers .runs then some ((s.runs.filter (·.id = r)).flatMap (·.nodes)) else none
  | _ => none

/-- The step writes for the user or starts a run for the user. -/
def ActsFor (u : UserID) (s : History) : HistoryLabel → Prop
  | .api (.proceed i _) => ∃ h ∈ s.api.handling[i]?, h.actsFor = u
  | .writeRows w _ _ => s.store.Owns u w
  | .orchestrate i _ _ => ∃ job ∈ s.jobs[i]?, job.userID = u
  | .proceed i _ _ _ => ∃ r ∈ s.requests[i]?, r.userID = u
  | .api (.receive _ _) | .claim _ | .receive _ _ | .complete _ _ _ => False

/-- The step completes a run of a workflow of the user. -/
def Completes (u : UserID) (s : History) : HistoryLabel → Prop
  | .complete runID _ _ => ∃ run ∈ s.runs, run.id = runID ∧ s.store.Owns u run.workflowID
  | .api _ | .writeRows _ _ _ | .claim _ | .orchestrate _ _ _ | .receive _ _ | .proceed _ _ _ _ => False

/-- The workflow that the path of the request names. -/
def RunRequest.Addresses (r : RunRequest) (w : WorkflowID) : Prop :=
  ∃ id, idParam r.workflowID = some id ∧ id.toNatClampNeg = w

/-- The runs that a request has started. -/
def History.startedBy (i : Nat) : List RunRow := s.runs.filter (·.cause = .request i)

/-- What a request for a run has found out, and what it has started. -/
def RunRequest.Knows (r : RunRequest) (s : History) (i : Nat) : Prop :=
  match r.stage with
  | .received | .answered (.refused _) => s.startedBy i = []
  | .verified w => s.startedBy i = [] ∧ r.Addresses w ∧ s.store.Owns r.userID w
  | .answered .failed => (s.startedBy i).length ≤ 1
  | .answered (.started runID) =>
    ∃ run, s.startedBy i = [run] ∧ run.id = runID ∧ run.userID = r.userID ∧ r.Addresses run.workflowID

/-- Runs and jobs are for the owners of their workflows. -/
structure History.Sound (s : History) : Prop where
  api : s.api.Sound
  runs : ∀ run ∈ s.runs, s.store.Owns run.userID run.workflowID
  jobs : ∀ job ∈ s.jobs, s.store.Owns job.userID job.workflowID
  requests : ∀ (i : Nat) (r : RunRequest), s.requests[i]? = some r → r.Knows s i
  unasked : ∀ i : Nat, s.requests[i]? = none → s.startedBy i = []
  below : ∀ run ∈ s.runs, run.id < s.nextRun
  distinct : (s.runs.map (·.id)).Nodup

end Queries

section Steps

variable {s t : History} {label : HistoryLabel} {u : UserID} {env : Env} {w : WorkflowID} {now : Int}

theorem amend_confined {store : Store} {change : Workflow → Workflow} (kept : ∀ wf, (change wf).userID = wf.userID) :
    ∃ v, Confined v store (store.amend w change) ∧ ∀ u, ¬store.Owns u w → Untouched u store (store.amend w change) := by
  cases stored : store.workflows w with
  | none =>
    have same : ∀ x, (store.amend w change).workflows x = store.workflows x := by
      intro x
      by_cases own : x = w
      · rw [own,Store.amend_self,stored]
        rfl
      · exact Store.amend_other store change own
    exact ⟨"",⟨fun x => .inl (same x),Nat.le_refl _,fun _ _ => rfl⟩,
      fun u _ => ⟨fun x => by rw [same x],Nat.le_refl _,rfl⟩⟩
  | some wf =>
    have confined : Confined wf.userID store (store.amend w change) := .amend ⟨wf,stored,rfl⟩ kept
    exact ⟨wf.userID,confined,fun _ foreign => confined.untouched fun own => foreign ⟨wf,stored,own⟩⟩

theorem Store.Owns.unique {store : Store} {v : UserID} (owns : store.Owns u w) (owns' : store.Owns v w) : u = v := by
  obtain ⟨wf,stored,own⟩ := owns
  obtain ⟨wf',stored',own'⟩ := owns'
  obtain rfl := Option.some.inj (stored.symm.trans stored')
  exact own.symm.trans own'

theorem History.orchestrate_some {cause : Cause} {run : RunRow} (created : s.orchestrate env u w now cause = some run) :
    run.id = s.nextRun ∧ run.workflowID = w ∧ run.userID = u ∧ run.cause = cause := by
  unfold History.orchestrate at created
  split at created
  next =>
    cases created
    exact ⟨rfl,rfl,rfl,rfl⟩
  next => contradiction

/-- Only the status of a row and the time of its end are ever written again. -/
theorem RunRow.opened_eq {run run' : RunRow} (same : run'.opened = run.opened) :
    run'.id = run.id ∧ run'.workflowID = run.workflowID ∧ run'.userID = run.userID ∧ run'.cause = run.cause := by
  have fields {α : Type} (g : RunRow → α) := congrArg g same
  exact ⟨fields (·.id),fields (·.workflowID),fields (·.userID),fields (·.cause)⟩

theorem completeWorkflowRun_opened (runID : Nat) (status : Run.RunStatus) (now : Int) (run : RunRow) :
    (completeWorkflowRun runID status now run).opened = run.opened := by
  unfold completeWorkflowRun
  split <;> rfl

/-- What a query finds that looks at no column that is written again. -/
theorem filter_runs {runs new : List RunRow} {f : RunRow → RunRow} {p : RunRow → Bool}
    (same : ∀ run, p (f run) = p run) (none_ : ∀ run ∈ new, p run = false) :
    (runs.map f ++ new).filter p = (runs.filter p).map f := by
  have composed : p ∘ f = p := funext same
  have nothing : new.filter p = [] := List.filter_eq_nil_iff.mpr fun run member => by simp [none_ run member]
  rw [List.filter_append,List.filter_map,composed,nothing,List.append_nil]

section Started

variable {f : RunRow → RunRow} {r : RunRequest} {i : Nat} {cause : Cause}

theorem startedBy_map (same : ∀ run, (f run).opened = run.opened) (runs : t.runs = s.runs.map f) (i : Nat) :
    t.startedBy i = (s.startedBy i).map f := by
  unfold History.startedBy
  rw [runs,← List.append_nil (s.runs.map f)]
  exact filter_runs (fun run => by rw [(RunRow.opened_eq (same run)).2.2.2]) (by simp)

theorem startedBy_create (env : Env) (u : UserID) (w : WorkflowID) (now : Int) (cause : Cause) (i : Nat) :
    (s.create (s.orchestrate env u w now cause)).startedBy i =
    s.startedBy i ++ if cause = .request i then (s.orchestrate env u w now cause).toList else [] := by
  unfold History.startedBy History.create
  rw [List.filter_append]
  congr 1
  cases created : s.orchestrate env u w now cause with
  | none => simp
  | some run =>
    have own := (History.orchestrate_some created).2.2.2
    by_cases this : cause = .request i <;> simp [own,this]

theorem verifyRun_knows (idle : s.startedBy i = []) :
    ({ r with stage := verifyRun env r.userID r.workflowID s.store } : RunRequest).Knows s i := by
  unfold RunRequest.Knows verifyRun
  cases verified : verify env r.userID r.workflowID s.store with
  | verified w =>
    obtain ⟨_,id,parsed,_,same,owns⟩ := verify_verified.mp verified
    exact ⟨idle,⟨id,parsed,same⟩,owns⟩
  | answered => exact idle
  | received | planned | archiving =>
    dsimp only
    rw [idle]
    exact Nat.zero_le 1

theorem RunRequest.Knows.map (knows : r.Knows s i) (owners : ∀ owner w, s.store.Owns owner w → t.store.Owns owner w)
    (same : ∀ run, (f run).opened = run.opened) (started : t.startedBy i = (s.startedBy i).map f) : r.Knows t i := by
  unfold RunRequest.Knows at knows ⊢
  split at knows
  next => rw [started,knows,List.map_nil]
  next => rw [started,knows,List.map_nil]
  next => exact ⟨by rw [started,knows.1,List.map_nil],knows.2.1,owners _ _ knows.2.2⟩
  next => rwa [started,List.length_map]
  next =>
    obtain ⟨run,only,number,user,addressed⟩ := knows
    obtain ⟨number',workflow,user',_⟩ := RunRow.opened_eq (same run)
    refine ⟨f run,by rw [started,only,List.map_singleton],number'.trans number,user'.trans user,?_⟩
    rw [workflow]
    exact addressed

theorem History.Sound.keep (sound : s.Sound) (api : t.api.Sound)
    (owners : ∀ owner w, s.store.Owns owner w → t.store.Owns owner w) (same : ∀ run, (f run).opened = run.opened)
    (runs : t.runs = s.runs.map f) (next : t.nextRun = s.nextRun)
    (jobs : ∀ job ∈ t.jobs, job ∈ s.jobs ∨ t.store.Owns job.userID job.workflowID)
    (requests : ∀ (i : Nat) (r : RunRequest), t.requests[i]? = some r → s.requests[i]? = some r ∨ r.Knows t i)
    (unasked : ∀ i : Nat, t.requests[i]? = none → s.requests[i]? = none) : t.Sound where
  api := api
  runs := by
    intro run member
    rw [runs] at member
    obtain ⟨old,within,rfl⟩ := List.mem_map.mp member
    obtain ⟨_,workflow,user,_⟩ := RunRow.opened_eq (same old)
    rw [workflow,user]
    exact owners _ _ (sound.runs old within)
  jobs := fun job member => (jobs job member).elim (fun old => owners _ _ (sound.jobs job old)) id
  requests := fun i r at_ => (requests i r at_).elim
    (fun old => (sound.requests i r old).map owners same (startedBy_map same runs i)) id
  unasked := fun i beyond => by
    rw [startedBy_map same runs i,sound.unasked i (unasked i beyond),List.map_nil]
  below := by
    intro run member
    rw [runs] at member
    obtain ⟨old,within,rfl⟩ := List.mem_map.mp member
    rw [next,(RunRow.opened_eq (same old)).1]
    exact sound.below old within
  distinct := by
    have ids : t.runs.map (·.id) = s.runs.map (·.id) := by
      rw [runs,List.map_map]
      exact List.map_congr_left fun run _ => (RunRow.opened_eq (same run)).1
    exact ids ▸ sound.distinct

theorem History.Sound.create (sound : s.Sound) (owns : s.store.Owns u w) {requests : List RunRequest}
    (knows : ∀ (i : Nat) (r : RunRequest), requests[i]? = some r →
      r.Knows { s.create (s.orchestrate env u w now cause) with requests } i)
    (unasked : ∀ i : Nat, requests[i]? = none →
      History.startedBy { s.create (s.orchestrate env u w now cause) with requests } i = []) :
    History.Sound { s.create (s.orchestrate env u w now cause) with requests } := by
  have cases : ∀ run ∈ (s.create (s.orchestrate env u w now cause)).runs, run ∈ s.runs ∨
      run.id = s.nextRun ∧ run.workflowID = w ∧ run.userID = u := by
    intro run member
    rcases List.mem_append.mp member with old | new
    · exact .inl old
    · obtain ⟨number,workflow,user,_⟩ := History.orchestrate_some (Option.mem_toList.mp new)
      exact .inr ⟨number,workflow,user⟩
  refine ⟨sound.api,fun run member => ?_,sound.jobs,knows,unasked,fun run member => ?_,?_⟩
  · rcases cases run member with old | ⟨_,workflow,user⟩
    · exact sound.runs run old
    · rw [workflow,user]
      exact owns
  · rcases cases run member with old | ⟨number,_⟩
    · exact Nat.lt_succ_of_lt (sound.below run old)
    · exact number ▸ Nat.lt_succ_self _
  · unfold History.create
    rw [List.map_append]
    cases created : s.orchestrate env u w now cause with
    | none => simpa using sound.distinct
    | some run =>
      refine List.nodup_append_comm.mp (List.nodup_cons.mpr ⟨?_,sound.distinct⟩)
      intro taken
      obtain ⟨old,member,same⟩ := List.mem_map.mp taken
      have below := sound.below old member
      have number := (History.orchestrate_some created).1
      have same : old.id = run.id := same
      omega

/-- The next step of RunWorkflow starts at most one run, for the user of the request. -/
theorem runWorkflow_cases {enqueues : Bool} (next : s.runWorkflow env now enqueues i r = some t) :
    (r.stage = .received ∧ t = s.turn i r (verifyRun env r.userID r.workflowID s.store)) ∨
    ∃ w stage, r.stage = .verified w ∧
      t = (s.create (s.orchestrate env r.userID w now (.request i))).turn i r (.answered stage) ∧
      (stage = .failed ∨ ∃ run, s.orchestrate env r.userID w now (.request i) = some run ∧ stage = .started run.id) := by
  unfold History.runWorkflow at next
  split at next
  next received => exact .inl ⟨received,(Option.some.inj next).symm⟩
  next w verified =>
    split at next
    next none =>
      refine .inr ⟨w,.failed,verified,?_,.inl rfl⟩
      rw [none]
      exact (Option.some.inj next).symm
    next run created =>
      refine .inr ⟨w,if enqueues then .started run.id else .failed,verified,?_,?_⟩
      · rw [created]
        exact (Option.some.inj next).symm
      · cases enqueues with
        | true => exact .inr ⟨run,created,rfl⟩
        | false => exact .inl rfl
  next => contradiction

theorem turn_requests {stage : RunStage} {j : Nat} {x : RunRequest}
    (at_ : (s.turn i r stage).requests[j]? = some x) : j = i ∧ x = { r with stage } ∨ j ≠ i ∧ s.requests[j]? = some x := by
  unfold History.turn at at_
  by_cases own : j = i
  · rw [own,List.getElem?_set_self'] at at_
    obtain ⟨_,_,rfl⟩ := Option.map_eq_some_iff.mp at_
    exact .inl ⟨own,rfl⟩
  · rw [List.getElem?_set_ne (Ne.symm own)] at at_
    exact .inr ⟨own,at_⟩

theorem turn_unasked {stage : RunStage} {j : Nat} (beyond : (s.turn i r stage).requests[j]? = none) :
    s.requests[j]? = none := by
  unfold History.turn at beyond
  rw [List.getElem?_eq_none_iff,List.length_set] at beyond
  exact List.getElem?_eq_none_iff.mpr beyond

/-- RunWorkflow starts a run only for the owner of the workflow, and answers with that run. -/
theorem runWorkflow_sound {enqueues : Bool} (sound : s.Sound) (at_ : s.requests[i]? = some r)
    (next : s.runWorkflow env now enqueues i r = some t) : t.Sound := by
  have knows := sound.requests i r at_
  unfold RunRequest.Knows at knows
  rcases runWorkflow_cases next with ⟨received,rfl⟩ | ⟨w,answer,verified,rfl,reported⟩
  · rw [received] at knows
    refine sound.keep sound.api (fun _ _ owns => owns) (fun _ => rfl) (List.map_id _).symm rfl
      (fun _ member => .inl member) (fun j x here => ?_) fun j => turn_unasked
    rcases turn_requests here with ⟨rfl,rfl⟩ | ⟨_,old⟩
    · exact .inr (verifyRun_knows knows)
    · exact .inl old
  · rw [verified] at knows
    obtain ⟨idle,addressed,owns⟩ := knows
    have own := @startedBy_create s env r.userID w now (.request i) i
    rw [idle,if_pos rfl,List.nil_append] at own
    refine sound.create owns (fun j x here => ?_) fun j beyond => ?_
    · rcases turn_requests here with ⟨rfl,rfl⟩ | ⟨other,old⟩
      · rcases reported with rfl | ⟨run,created,rfl⟩
        · have atMost : (s.orchestrate env r.userID w now (.request j)).toList.length ≤ 1 := by
            cases s.orchestrate env r.userID w now (.request j) <;> simp
          exact (congrArg List.length own).trans_le atMost
        · obtain ⟨_,workflow,user,_⟩ := History.orchestrate_some created
          exact ⟨run,own.trans (congrArg Option.toList created),rfl,user,workflow ▸ addressed⟩
      · have others := @startedBy_create s env r.userID w now (.request i) j
        rw [if_neg fun same => other (Cause.request.inj same).symm,List.append_nil] at others
        refine (sound.requests j x old).map (fun _ _ owns => owns) (fun _ => rfl) ?_
        exact others.trans (List.map_id _).symm
    · have unasked : s.requests[j]? = none := turn_unasked beyond
      have others := @startedBy_create s env r.userID w now (.request i) j
      rw [if_neg ?_,List.append_nil,sound.unasked j unasked] at others
      · exact others
      · intro same
        rw [Cause.request.inj same,unasked] at at_
        contradiction

end Started

/-- A step of the history: rows of one user, runs that a worker completes, and runs for whom it acts. -/
structure History.Moves (label : HistoryLabel) (s t : History) : Prop where
  confined : ∃ v, Confined v s.store t.store
  untouched : ∀ u, ¬ActsFor u s label → Untouched u s.store t.store
  runs : ∃ f new, t.runs = s.runs.map f ++ new ∧ (∀ run, RunRow.opened (f run) = run.opened) ∧
    (∀ u, ¬Completes u s label → ∀ run ∈ s.runs, s.store.Owns u run.workflowID → f run = run) ∧
    ∀ run ∈ new, ∃ owner, s.store.Owns owner run.workflowID ∧ ActsFor owner s label

theorem Untouched.refl (u : UserID) (s : Store) : Untouched u s s := ⟨fun _ => rfl,Nat.le_refl _,rfl⟩

theorem History.Moves.extend {new : List RunRow} (confined : ∃ v, Confined v s.store t.store)
    (untouched : ∀ u, ¬ActsFor u s label → Untouched u s.store t.store) (runs : t.runs = s.runs ++ new)
    (acts : ∀ run ∈ new, ∃ owner, s.store.Owns owner run.workflowID ∧ ActsFor owner s label) :
    History.Moves label s t where
  confined := confined
  untouched := untouched
  runs := ⟨id,new,by rw [runs,List.map_id],fun _ => rfl,fun _ _ _ _ _ => rfl,acts⟩

theorem History.Moves.idle (store : t.store = s.store) (runs : t.runs = s.runs) : History.Moves label s t :=
  .extend (store ▸ ⟨"",.refl _ _⟩) (fun u _ => store ▸ .refl u _) (by rw [runs,List.append_nil]) (by simp)

theorem History.Moves.create {cause : Cause} (acts : ActsFor u s label) (owns : s.store.Owns u w)
    (store : t.store = s.store) (runs : t.runs = s.runs ++ (s.orchestrate env u w now cause).toList) :
    History.Moves label s t := by
  refine .extend (store ▸ ⟨"",.refl _ _⟩) (fun u _ => store ▸ .refl u _) runs fun run member => ⟨u,?_,acts⟩
  rw [(History.orchestrate_some (Option.mem_toList.mp member)).2.1]
  exact owns

theorem historyStep_moves (sound : s.Sound) (step : historyStep label s = some t) : History.Moves label s t := by
  cases label with
  | api label =>
    obtain ⟨api,stepped,rfl⟩ := Option.map_eq_some_iff.mp step
    cases label with
    | receive userID request =>
      cases stepped
      exact .idle rfl rfl
    | proceed i env =>
      obtain ⟨h,store,stage,at_,next,rfl⟩ := proceed_some stepped
      obtain ⟨confined,_⟩ := proceed_confined (sound.api.handling h (List.mem_of_getElem? at_)) next
      refine .extend ⟨_,confined⟩ (fun u foreign => confined.untouched fun own => foreign ⟨h,at_,own⟩)
        (List.append_nil _).symm (by simp)
  | writeRows w schedules calendars =>
    cases step
    obtain ⟨v,confined,untouched⟩ := @amend_confined w s.store
      (fun wf => { wf with schedules, calendars }) fun _ => rfl
    exact .extend ⟨v,confined⟩ untouched (List.append_nil _).symm (by simp)
  | claim w =>
    obtain ⟨wf,_,rfl⟩ := Option.map_eq_some_iff.mp step
    exact .idle rfl rfl
  | orchestrate i env now =>
    obtain ⟨job,at_,rfl⟩ := Option.map_eq_some_iff.mp step
    exact .create ⟨job,at_,rfl⟩ (sound.jobs job (List.mem_of_getElem? at_)) rfl rfl
  | receive userID workflowID =>
    cases step
    exact .idle rfl rfl
  | proceed i env now enqueues =>
    obtain ⟨r,at_,next⟩ := Option.bind_eq_some_iff.mp step
    have knows := sound.requests i r at_
    rcases runWorkflow_cases next with ⟨_,rfl⟩ | ⟨w,answer,verified,rfl,_⟩
    · exact .idle rfl rfl
    · unfold RunRequest.Knows at knows
      rw [verified] at knows
      exact .create ⟨r,at_,rfl⟩ knows.2.2 rfl rfl
  | complete runID status now =>
    cases step
    refine ⟨⟨"",.refl _ _⟩,fun u _ => .refl u _,completeWorkflowRun runID status now,[],(List.append_nil _).symm,
      completeWorkflowRun_opened runID status now,fun u foreign run member owns => ?_,by simp⟩
    exact if_neg fun same => foreign ⟨run,member,same,owns⟩

theorem historyStep_sound (sound : s.Sound) (step : historyStep label s = some t) : t.Sound := by
  have moves := historyStep_moves sound step
  obtain ⟨v,confined⟩ := moves.confined
  cases label with
  | api label =>
    obtain ⟨api,stepped,rfl⟩ := Option.map_eq_some_iff.mp step
    exact sound.keep (sound.api.step stepped) (fun _ _ => confined.owns) (fun _ => rfl) (List.map_id _).symm rfl
      (fun _ member => .inl member) (fun _ _ at_ => .inl at_) fun _ beyond => beyond
  | writeRows w schedules calendars =>
    cases step
    exact sound.keep ⟨fun h member => (sound.api.handling h member).confined confined,
      confined.bounded sound.api.bounded⟩ (fun _ _ => confined.owns) (fun _ => rfl) (List.map_id _).symm rfl
      (fun _ member => .inl member) (fun _ _ at_ => .inl at_) fun _ beyond => beyond
  | claim w =>
    obtain ⟨wf,stored,rfl⟩ := Option.map_eq_some_iff.mp step
    refine sound.keep sound.api (fun _ _ owns => owns) (fun _ => rfl) (List.map_id _).symm rfl
      (fun job member => ?_) (fun _ _ at_ => .inl at_) fun _ beyond => beyond
    refine (List.mem_append.mp member).imp_right fun new => ?_
    rw [List.mem_singleton.mp new]
    exact ⟨wf,stored,rfl⟩
  | orchestrate i env now =>
    obtain ⟨job,at_,rfl⟩ := Option.map_eq_some_iff.mp step
    have others := @startedBy_create s env job.userID job.workflowID now (.job i)
    simp only [reduceCtorEq,if_false,List.append_nil] at others
    refine sound.create (sound.jobs job (List.mem_of_getElem? at_)) (fun j r here => ?_) fun j beyond => ?_
    · refine (sound.requests j r here).map (fun _ _ owns => owns) (fun _ => rfl) ?_
      exact (others j).trans (List.map_id _).symm
    · exact (others j).trans (sound.unasked j beyond)
  | receive userID workflowID =>
    cases step
    refine sound.keep sound.api (fun _ _ owns => owns) (fun _ => rfl) (List.map_id _).symm rfl
      (fun _ member => .inl member) (fun i r at_ => ?_) fun i beyond => ?_
    · cases old : s.requests[i]? with
      | some x =>
        rw [List.getElem?_append_left (List.getElem?_eq_some_iff.mp old).1] at at_
        exact .inl (old.symm.trans at_)
      | none =>
        right
        have idle := sound.unasked i old
        rw [List.getElem?_append_right (List.getElem?_eq_none_iff.mp old)] at at_
        rw [List.mem_singleton.mp (List.mem_of_getElem? at_)]
        exact idle
    · rw [List.getElem?_eq_none_iff,List.length_append] at beyond
      exact List.getElem?_eq_none_iff.mpr (Nat.le_of_add_right_le beyond)
  | proceed i env now enqueues =>
    obtain ⟨r,at_,next⟩ := Option.bind_eq_some_iff.mp step
    exact runWorkflow_sound sound at_ next
  | complete runID status now =>
    cases step
    exact sound.keep sound.api (fun _ _ owns => owns) (completeWorkflowRun_opened runID status now) rfl rfl
      (fun _ member => .inl member) (fun _ _ at_ => .inl at_) fun _ beyond => beyond

end Steps

section Runs

variable {integrations : UserID → Bool} {s t : History} {u : UserID} {env : Env}

theorem reach_history_sound (reach : Reach (history integrations) (fun _ _ => True) s) : s.Sound := by
  refine reach.invariant History.Sound ?_ ?_
  · refine ⟨⟨?_,fun _ _ => rfl⟩,?_,?_,?_,fun _ _ => rfl,?_,List.nodup_nil⟩ <;> simp [history]
  · intro s label t _ sound _ step
    exact historyStep_sound sound step

/-- No step acts for the user. -/
def Elsewhere (u : UserID) : Guard History HistoryLabel := fun s label => ¬ActsFor u s label

/-- Nor is a run of the user's workflows completed. -/
def Uncompleted (u : UserID) : Guard History HistoryLabel := fun s label => Elsewhere u s label ∧ ¬Completes u s label

/-- Where no step acts for the user, rows are completed at most, and not even that if `strict`; new
rows are those of others. -/
theorem elsewhere_moves {strict : Prop} (reach : Reach (history integrations) (fun _ _ => True) s)
    (path : Path (history integrations) (fun s label => Elsewhere u s label ∧ (strict → ¬Completes u s label)) s t) :
    Untouched u s.store t.store ∧ ∃ f new, t.runs = s.runs.map f ++ new ∧ (∀ run, RunRow.opened (f run) = run.opened) ∧
      (strict → ∀ run ∈ s.runs, s.store.Owns u run.workflowID → f run = run) ∧
      ∀ run ∈ new, ¬s.store.Owns u run.workflowID := by
  have whole : Reach (history integrations) (fun _ _ => True) t ∧ Untouched u s.store t.store ∧
      ∃ f new, t.runs = s.runs.map f ++ new ∧ (∀ run, RunRow.opened (f run) = run.opened) ∧
        (strict → ∀ run ∈ s.runs, s.store.Owns u run.workflowID → f run = run) ∧
        ∀ run ∈ new, ¬s.store.Owns u run.workflowID := by
    refine path.invariant (fun t => Reach (history integrations) (fun _ _ => True) t ∧ Untouched u s.store t.store ∧
      ∃ f new, t.runs = s.runs.map f ++ new ∧ (∀ run, RunRow.opened (f run) = run.opened) ∧
        (strict → ∀ run ∈ s.runs, s.store.Owns u run.workflowID → f run = run) ∧
        ∀ run ∈ new, ¬s.store.Owns u run.workflowID)
      ⟨reach,.refl u _,id,[],by simp,fun _ => rfl,fun _ _ _ _ => rfl,by simp⟩ ?_
    rintro s' label t' ⟨reached,sofar,f,new,runs,same,settled,others⟩ ⟨foreign,uncompleted⟩ step
    obtain ⟨_,untouched,g,more,runs',same',settled',acted⟩ := historyStep_moves (reach_history_sound reached) step
    have next := untouched u foreign
    refine ⟨.tail reached trivial step,⟨fun w => (next.rows w).trans (sofar.rows w),
      Nat.le_trans sofar.counter next.counter,next.integrations.trans sofar.integrations⟩,
      g ∘ f,new.map g ++ more,?_,fun run => (same' (f run)).trans (same run),fun is run member owns => ?_,?_⟩
    · rw [runs',runs,List.map_append,List.map_map,List.append_assoc]
    · have kept := settled is run member owns
      have there : run ∈ s'.runs := runs ▸ List.mem_append_left new (List.mem_map.mpr ⟨run,member,kept⟩)
      rw [Function.comp,kept]
      exact settled' u (uncompleted is) run there (sofar.owns.mpr owns)
    · intro run member owns
      rcases List.mem_append.mp member with old | fresh
      · obtain ⟨before,within,rfl⟩ := List.mem_map.mp old
        exact others before within ((RunRow.opened_eq (same' before)).2.1 ▸ owns)
      · obtain ⟨owner,owned,acts⟩ := acted run fresh
        exact foreign (owned.unique (sofar.owns.mpr owns) ▸ acts)
  exact whole.2

theorem userWorkflowRuns_owns {row : UserRun} (listed : row ∈ s.userWorkflowRuns u) :
    row.run ∈ s.runs ∧ s.store.Owns u row.run.workflowID := by
  obtain ⟨run,member,joined⟩ := List.mem_filterMap.mp listed
  obtain ⟨wf,found,rfl⟩ := Option.map_eq_some_iff.mp joined
  obtain ⟨stored,own⟩ := Option.filter_eq_some_iff.mp found
  exact ⟨member,wf,stored,of_decide_eq_true own⟩

theorem workflowRuns_iff {text : String} {rows : List RunRow} : s.workflowRuns env u text = some rows ↔
    ∃ w, verify env u text s.store = .verified w ∧ env.answers .runs = true ∧
      rows = s.runs.filter (·.workflowID = w) := by
  unfold History.workflowRuns
  split
  next w verified =>
    rw [verified]
    cases env.answers .runs <;> simp [eq_comm]
  next refused => exact ⟨fun answered => by contradiction,fun ⟨w,verified,_⟩ => absurd verified (refused w)⟩

theorem workflowRuns_owns {text : String} {rows : List RunRow} {run : RunRow}
    (answered : s.workflowRuns env u text = some rows) (member : run ∈ rows) :
    run ∈ s.runs ∧ s.store.Owns u run.workflowID := by
  obtain ⟨w,verified,_,rfl⟩ := workflowRuns_iff.mp answered
  obtain ⟨_,_,_,_,_,owns⟩ := verify_verified.mp verified
  obtain ⟨stored,same⟩ := List.mem_filter.mp member
  rw [of_decide_eq_true same]
  exact ⟨stored,owns⟩

theorem filter_number {runs : List RunRow} {run : RunRow} (distinct : (runs.map (·.id)).Nodup)
    (member : run ∈ runs) : runs.filter (·.id = run.id) = [run] := by
  induction runs with
  | nil => contradiction
  | cons r rest ih =>
    obtain ⟨fresh,distinct⟩ := List.nodup_cons.mp distinct
    rcases List.mem_cons.mp member with rfl | later
    · rw [List.filter_cons_of_pos (by simp),List.filter_eq_nil_iff.mpr]
      intro other member same
      exact fresh (List.mem_map.mpr ⟨other,member,of_decide_eq_true same⟩)
    · rw [List.filter_cons_of_neg,ih distinct later]
      intro same
      exact fresh (List.mem_map.mpr ⟨run,later,(of_decide_eq_true same).symm⟩)

theorem Newest.subset {rows answer : List RunRow} (newest : Newest rows answer) : answer ⊆ rows := by
  obtain ⟨_,_,rest,perm,_⟩ := newest
  exact fun run member => perm.symm.subset (List.mem_append_left rest member)

/-- In every run of the API and the scheduler, whatever the order of their steps: a workflow is
run for its owner and nobody else, RunWorkflow answers with the one run that its own step started, of
the workflow it was asked to run and for the user who asked, and what a user is shown in a list of
runs is the user's own. -/
theorem runs_for_owners (reach : Reach (history integrations) (fun _ _ => True) s) :
    (∀ run ∈ s.runs, s.store.Owns run.userID run.workflowID) ∧
    (∀ (i : Nat) (r : RunRequest), s.requests[i]? = some r → (s.startedBy i).length ≤ 1 ∧
      ∀ id, r.stage = .answered (.started id) → ∃ run, s.startedBy i = [run] ∧ run.id = id ∧
        (∀ other ∈ s.runs, other.id = id → other = run) ∧ run.userID = r.userID ∧ r.Addresses run.workflowID) ∧
    ∀ u rows answer, (rows = (s.userWorkflowRuns u).map (·.run) ∨ ∃ env text, s.workflowRuns env u text = some rows) →
      Newest rows answer → ∀ run ∈ answer, run ∈ s.runs ∧ run.userID = u := by
  have sound := reach_history_sound reach
  refine ⟨sound.runs,fun i r at_ => ⟨?_,fun id started => ?_⟩,fun u rows answer asked newest run member => ?_⟩
  · have knows := sound.requests i r at_
    unfold RunRequest.Knows at knows
    split at knows
    next => simp [knows]
    next => simp [knows]
    next => simp [knows.1]
    next => exact knows
    next =>
      obtain ⟨run,only,_⟩ := knows
      simp [only]
  · have knows := sound.requests i r at_
    unfold RunRequest.Knows at knows
    rw [started] at knows
    obtain ⟨run,only,number,user,addressed⟩ := knows
    have stored : run ∈ s.runs := (List.mem_filter.mp (only ▸ List.mem_singleton_self run : run ∈ s.startedBy i)).1
    refine ⟨run,only,number,fun other member same => ?_,user,addressed⟩
    exact List.inj_on_of_nodup_map sound.distinct member stored (same.trans number.symm)
  · have listed := newest.subset member
    have owned : run ∈ s.runs ∧ s.store.Owns u run.workflowID := by
      rcases asked with rfl | ⟨env,text,answered⟩
      · obtain ⟨row,within,rfl⟩ := List.mem_map.mp listed
        exact userWorkflowRuns_owns within
      · exact workflowRuns_owns answered listed
    exact ⟨owned.1,(sound.runs run owned.1).unique owned.2⟩

/-- Bob has the first workflow and Alice the second. -/
def neighbours : List HistoryLabel := [.api (.receive "bob" remind),.api (.proceed 0 .dated),
  .api (.receive "alice" remind),.api (.proceed 1 .dated)]

/-- Alice runs her workflow, and Bob tries the same; hers is due as well. -/
theorem neighbours_run : ∃ s, Reach (history fun _ => true) (fun _ _ => True) s ∧
    s.requests.map (·.stage) = [.answered (.started 1),.answered (.refused .unauthorized)] ∧
    s.runs.map (fun run => (run.id,run.workflowID,run.userID)) = [(1,2,"alice"),(2,2,"alice")] ∧
    ∃ run, s.startedBy 0 = [run] ∧ run.id = 1 := by
  obtain ⟨s,reach,stages,runs⟩ : ∃ s, Reach (history fun _ => true) (fun _ _ => True) s ∧
      s.requests.map (·.stage) = [.answered (.started 1),.answered (.refused .unauthorized)] ∧
      s.runs.map (fun run => (run.id,run.workflowID,run.userID)) = [(1,2,"alice"),(2,2,"alice")] :=
    follow_exists (neighbours ++ [.receive "alice" "2",.receive "bob" "2",.claim 2,.proceed 0 .dated 5 true,
      .proceed 1 .dated 5 true,.proceed 0 .dated 6 true,.orchestrate 0 .dated 7]) (by decide +kernel)
  refine ⟨s,reach,stages,runs,?_⟩
  match requests : s.requests with
  | [] => simp [requests] at stages
  | r :: rest =>
    rw [requests,List.map_cons] at stages
    obtain ⟨_,reported⟩ := (runs_for_owners reach).2.1 0 r (by rw [requests]; rfl)
    obtain ⟨run,only,number,_⟩ := reported 1 (List.cons.inj stages).1
    exact ⟨run,only,number⟩

theorem lists_elsewhere {strict : Prop} (reach : Reach (history integrations) (fun _ _ => True) s)
    (path : Path (history integrations) (fun s label => Elsewhere u s label ∧ (strict → ¬Completes u s label)) s t) :
    ∃ f, (∀ run, RunRow.opened (f run) = run.opened) ∧
      (strict → ∀ run ∈ s.runs, s.store.Owns u run.workflowID → f run = run) ∧
      t.userWorkflowRuns u = (s.userWorkflowRuns u).map (fun row => { row with run := f row.run }) ∧
      ∀ env text, t.workflowRuns env u text = (s.workflowRuns env u text).map (List.map f) := by
  obtain ⟨untouched,f,new,runs,same,settled,others⟩ := elsewhere_moves reach path
  refine ⟨f,same,settled,?_,fun env text => Option.ext fun rows => ?_⟩
  · have nothing : new.filterMap (fun run =>
        ((t.store.workflows run.workflowID).filter (·.userID = u)).map fun wf => (⟨wf.name,run⟩ : UserRun)) = [] := by
      refine List.filterMap_eq_nil_iff.mpr fun run member => Option.map_eq_none_iff.mpr ?_
      rw [untouched.rows,Option.filter_eq_none_iff]
      intro wf stored own
      exact others run member ⟨wf,stored,of_decide_eq_true own⟩
    unfold History.userWorkflowRuns
    rw [runs,List.filterMap_append,nothing,List.append_nil,List.filterMap_map,List.map_filterMap]
    refine List.filterMap_congr fun run _ => ?_
    rw [Function.comp,(RunRow.opened_eq (same run)).2.1,untouched.rows,Option.map_map]
    rfl
  · have verified (w : WorkflowID) : verify env u text t.store = .verified w ↔ verify env u text s.store = .verified w := by
      rw [verify_verified,verify_verified,untouched.owns]
    have filtered {w : WorkflowID} (owns : s.store.Owns u w) :
        t.runs.filter (·.workflowID = w) = (s.runs.filter (·.workflowID = w)).map f := by
      rw [runs]
      refine filter_runs (fun run => by rw [(RunRow.opened_eq (same run)).2.1]) fun run member => ?_
      exact decide_eq_false fun own => others run member (own ▸ owns)
    rw [Option.map_eq_some_iff]
    constructor
    · intro answered
      obtain ⟨w,granted,answers,rfl⟩ := workflowRuns_iff.mp answered
      have before := (verified w).mp granted
      obtain ⟨_,_,_,_,_,owns⟩ := verify_verified.mp before
      exact ⟨_,workflowRuns_iff.mpr ⟨w,before,answers,rfl⟩,(filtered owns).symm⟩
    · rintro ⟨_,answered,rfl⟩
      obtain ⟨w,granted,answers,rfl⟩ := workflowRuns_iff.mp answered
      obtain ⟨_,_,_,_,_,owns⟩ := verify_verified.mp granted
      exact workflowRuns_iff.mpr ⟨w,(verified w).mpr granted,answers,(filtered owns).symm⟩

/-- As long as no step of the API or the pollers acts for a user, the lists of the user's runs have
the same runs, whatever workers do; and as long as no worker completes one of these runs either, the
lists stay as they are. -/
theorem runs_undisturbed (reach : Reach (history integrations) (fun _ _ => True) s) :
    (∀ t, Path (history integrations) (Elsewhere u) s t →
      (t.userWorkflowRuns u).map UserRun.opened = (s.userWorkflowRuns u).map UserRun.opened ∧
      ∀ env text, (t.workflowRuns env u text).map (List.map RunRow.opened) =
        (s.workflowRuns env u text).map (List.map RunRow.opened)) ∧
    ∀ t, Path (history integrations) (Uncompleted u) s t → t.userWorkflowRuns u = s.userWorkflowRuns u ∧
      ∀ env text, t.workflowRuns env u text = s.workflowRuns env u text := by
  constructor
  · intro t path
    have freely : Path (history integrations)
        (fun s label => Elsewhere u s label ∧ (False → ¬Completes u s label)) s t :=
      path.mono fun _ _ elsewhere => ⟨elsewhere,False.elim⟩
    obtain ⟨f,same,_,mine,listed⟩ := lists_elsewhere reach freely
    have opened : List.map RunRow.opened ∘ List.map f = List.map RunRow.opened := by
      funext rows
      rw [Function.comp,List.map_map]
      exact List.map_congr_left fun run _ => same run
    refine ⟨?_,fun env text => ?_⟩
    · rw [mine,List.map_map]
      refine List.map_congr_left fun row _ => ?_
      rw [Function.comp,UserRun.opened,same row.run]
      rfl
    · rw [listed,Option.map_map,opened]
  · intro t path
    have strictly : Path (history integrations)
        (fun s label => Elsewhere u s label ∧ (True → ¬Completes u s label)) s t :=
      path.mono fun _ _ uncompleted => ⟨uncompleted.1,fun _ => uncompleted.2⟩
    obtain ⟨f,_,settled,mine,listed⟩ := lists_elsewhere reach strictly
    refine ⟨?_,fun env text => ?_⟩
    · rw [mine]
      refine (List.map_congr_left fun row member => ?_).trans (List.map_id _)
      obtain ⟨stored,owns⟩ := userWorkflowRuns_owns member
      rw [settled trivial row.run stored owns]
      rfl
    · rw [listed]
      cases answered : s.workflowRuns env u text with
      | none => rfl
      | some rows =>
        refine congrArg some ((List.map_congr_left fun run member => ?_).trans (List.map_id _))
        obtain ⟨stored,owns⟩ := workflowRuns_owns answered member
        exact settled trivial run stored owns

instance (u : UserID) (store : Store) (w : WorkflowID) : Decidable (store.Owns u w) :=
  decidable_of_iff ((store.workflows w).any (·.userID = u)) (by simp [Store.Owns,Option.any_eq_true])

instance (u : UserID) (s : History) : (label : HistoryLabel) → Decidable (ActsFor u s label)
  | .api (.receive _ _) | .claim _ | .receive _ _ | .complete _ _ _ => isFalse id
  | .api (.proceed i _) => inferInstanceAs (Decidable (∃ h ∈ s.api.handling[i]?, h.actsFor = u))
  | .writeRows w _ _ => inferInstanceAs (Decidable (s.store.Owns u w))
  | .orchestrate i _ _ => inferInstanceAs (Decidable (∃ job ∈ s.jobs[i]?, job.userID = u))
  | .proceed i _ _ _ => inferInstanceAs (Decidable (∃ r ∈ s.requests[i]?, r.userID = u))

instance (u : UserID) (s : History) : (label : HistoryLabel) → Decidable (Completes u s label)
  | .complete runID _ _ => inferInstanceAs (Decidable (∃ run ∈ s.runs, run.id = runID ∧ s.store.Owns u run.workflowID))
  | .api _ | .writeRows _ _ _ | .claim _ | .orchestrate _ _ _ | .receive _ _ | .proceed _ _ _ _ => isFalse id

instance (u : UserID) (s : History) (label : HistoryLabel) : Decidable (Uncompleted u s label) :=
  inferInstanceAs (Decidable (¬ActsFor u s label ∧ ¬Completes u s label))

/-- While Bob's run goes on, Alice runs her workflow, and her run is completed; then Bob's is. -/
theorem neighbours_undisturbed : ∃ s t t', Reach (history fun _ => true) (fun _ _ => True) s ∧
    Path (history fun _ => true) (Uncompleted "bob") s t ∧ Path (history fun _ => true) (Elsewhere "bob") s t' ∧
    t.runs.map (·.status) = [.running,.success] ∧ t'.runs.map (·.status) = [.failed,.success] ∧
    t.userWorkflowRuns "bob" = s.userWorkflowRuns "bob" ∧
    (t'.userWorkflowRuns "bob").map UserRun.opened = (s.userWorkflowRuns "bob").map UserRun.opened := by
  obtain ⟨s,t,reach,path,statuses,ids⟩ : ∃ s t, Reach (history fun _ => true) (fun _ _ => True) s ∧
      Path (history fun _ => true) (Uncompleted "bob") s t ∧ t.runs.map (·.status) = [.running,.success] ∧
        t.runs.map (·.id) = [1,2] :=
    follow_phases_exist (neighbours ++ [.receive "bob" "1",.proceed 0 .dated 4 true,.proceed 0 .dated 4 true,
      .receive "alice" "2"]) [.proceed 1 .dated 5 true,.proceed 1 .dated 6 true,.complete 2 .success 7]
      (by decide +kernel)
  have elsewhere : Path (history fun _ => true) (Elsewhere "bob") s t := path.mono fun _ _ uncompleted => uncompleted.1
  have foreign : Elsewhere "bob" t (.complete 1 .failed 8) := id
  have later := elsewhere.tail foreign rfl
  obtain ⟨same,still⟩ := @runs_undisturbed _ s "bob" reach
  refine ⟨s,t,_,reach,path,later,statuses,?_,(still t path).1,(same _ later).1⟩
  match runs : t.runs with
  | [] => simp [runs] at ids
  | [_] => simp [runs] at ids
  | [first,second] =>
    simp only [runs,List.map_cons,List.map_nil,List.cons.injEq,and_true] at ids statuses
    simp [completeWorkflowRun,ids.1,ids.2,statuses.2]
  | _ :: _ :: _ :: _ => simp [runs] at ids

/-- The node runs of a run are shown to the owner of the workflow that has the number of the
run, whoever the run is for. -/
theorem nodeRuns_by_number (reach : Reach (history integrations) (fun _ _ => True) s) {run : RunRow}
    (member : run ∈ s.runs) {text : String} {id : Int32} (parsed : idParam text = some id) (natural : 0 ≤ id)
    (number : id.toNatClampNeg = run.id) (env : Env) (nodes : List NodeID) :
    s.workflowNodeRuns env u text = some nodes ↔ env.answers .workflow = true ∧ env.answers .runs = true ∧
      s.store.Owns u run.id ∧ nodes = run.nodes := by
  have sound := reach_history_sound reach
  have granted : ∀ r, verify env u text s.store = .verified r ↔
      env.answers .workflow = true ∧ r = run.id ∧ s.store.Owns u r := by
    intro r
    rw [verify_verified]
    constructor
    · rintro ⟨answers,id',parsed',_,rfl,owns⟩
      obtain rfl := Option.some.inj (parsed.symm.trans parsed')
      exact ⟨answers,number,owns⟩
    · rintro ⟨answers,rfl,owns⟩
      exact ⟨answers,id,parsed,natural,number,owns⟩
  have only : (s.runs.filter (·.id = run.id)).flatMap (·.nodes) = run.nodes := by
    rw [filter_number sound.distinct member]
    exact List.append_nil _
  unfold History.workflowNodeRuns
  constructor
  · intro shown
    split at shown
    next r verified =>
      obtain ⟨answers,rfl,owns⟩ := (granted r).mp verified
      rw [only] at shown
      split at shown
      next listed =>
        cases shown
        exact ⟨answers,listed,owns,rfl⟩
      next => contradiction
    next => contradiction
  · rintro ⟨answers,listed,owns,rfl⟩
    simp only [(granted run.id).mpr ⟨answers,rfl,owns⟩,only,if_pos listed]

/-- Bob sees the nodes of Alice's run and Alice does not. -/
theorem neighbours_nodeRuns : ∃ s, Reach (history fun _ => true) (fun _ _ => True) s ∧
    ∃ run ∈ s.runs, run.id = 1 ∧ run.userID = "alice" ∧ s.workflowNodeRuns .dated "bob" "1" = some run.nodes ∧
      s.workflowNodeRuns .dated "alice" "1" = none := by
  have run : ∃ s, Reach (history fun _ => true) (fun _ _ => True) s ∧ (s.runs[0]?.any fun run => decide
      (run.id = 1 ∧ run.userID = "alice" ∧ s.store.Owns "bob" 1 ∧ ¬s.store.Owns "alice" 1)) = true :=
    follow_exists (neighbours ++ [.receive "alice" "2",.proceed 0 .dated 5 true,.proceed 0 .dated 6 true])
      (by decide +kernel)
  obtain ⟨s,reach,shape⟩ := run
  obtain ⟨run,at_,holds⟩ := (Option.any_eq_true _ _).mp shape
  obtain ⟨number,alice,bob,other⟩ := of_decide_eq_true holds
  have member := List.mem_of_getElem? at_
  have shown := fun u => @nodeRuns_by_number _ s u reach run member "1" 1 (by decide +kernel) (by decide)
    number.symm .dated
  refine ⟨s,reach,run,member,number,alice,(shown "bob" run.nodes).mpr ⟨rfl,rfl,number ▸ bob,rfl⟩,?_⟩
  refine Option.eq_none_iff_forall_ne_some.mpr fun nodes answered => ?_
  exact other (number ▸ ((shown "alice" nodes).mp answered).2.2.1)

end Runs

end TinyAutomator.Workflows
