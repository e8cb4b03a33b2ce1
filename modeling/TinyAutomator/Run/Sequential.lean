import TinyAutomator.Run.Termination
import TinyAutomator.Run.Counts
import TinyAutomator.Lib.Topological

/-! What a run computes. The goroutines, messages and retries of a run leave the node runs as if
the nodes had been run one after another, each until it succeeds or its attempts are used up. -/
namespace TinyAutomator.Run

open Transition

/-- What is left of a node run when the times of its attempts are forgotten. -/
structure Verdict where
  status : NodeStatus
  retryCount : Nat
  errorMessage : Option String
  deriving DecidableEq

def NodeRun.verdict (row : NodeRun) : Verdict := ⟨row.status,row.retryCount,row.errorMessage⟩

/-- How the action of a node ends at each attempt, the first being number 1. -/
abbrev Script := NodeID → Nat → Option String

/-- The attempts after the first `k`, until one succeeds or none is left. -/
def attempt (script : Nat → Option String) (k : Nat) : Nat → Verdict
  | 0 => ⟨.failed,k,script k⟩
  | left + 1 =>
    match script (k + 1) with
    | none => ⟨.success,k + 1,none⟩
    | some _ => attempt script (k + 1) left

/-- A node whose turn comes, with the verdicts on the nodes before it. -/
def runNode (g : WorkflowGraph) (script : Script) (n : NodeID) (verdicts : NodeID → Verdict) : Verdict :=
  if isTrigger g n then ⟨.success,0,none⟩
  else if (parents g n).all fun p => (verdicts p).status = .success then attempt (script n) 0 3
  else ⟨.pending,0,none⟩

/-- The nodes are run one after another. -/
def runNodes (g : WorkflowGraph) (script : Script) (order : List NodeID) : NodeID → Verdict :=
  Topological.evaluate (runNode g script) order fun _ => ⟨.pending,0,none⟩

def Pc.Returns (script : Nat → Option String) (err : Option String) : Pc → Prop
  | .inAction r => err = script r
  | _ => True

/-- The action of a node returns what the script says. -/
def Scripted (script : Script) (s : State) : Label → Prop
  | .finish i err => ∀ h ∈ s.handlers[i]?, h.pc.Returns (script h.msg.nodeID) err
  | _ => True

/-- An orderly run whose actions follow the script. -/
def scripted (g : WorkflowGraph) (script : Script) : Guard State Label := fun s label =>
  orderly g s label ∧ Scripted script s label

instance (script : Nat → Option String) (err : Option String) : DecidablePred (Pc.Returns script err) := fun pc =>
  match pc with
  | .inAction r => inferInstanceAs (Decidable (err = script r))
  | .getParents | .getNodeRun | .getNode _ | .markRunning _ | .publishRunning _ | .startAction _
  | .updateStatus _ _ | .publishStatus _ _ | .completeFailed | .getChildren | .publishChildren _
  | .markComplete | .getPending | .acquireLock _ | .addPending _ | .getNodeRuns | .completeRun _
  | .failed | .ack | .nack | .done => isTrue trivial

instance (script : Script) : ∀ s label, Decidable (Scripted script s label)
  | s, .finish i err =>
    inferInstanceAs (Decidable (∀ h ∈ s.handlers[i]?, h.pc.Returns (script h.msg.nodeID) err))
  | _, .orchestrate _ | _, .handle .. | _, .deliver _ | _, .mature _ | _, .expireSet | _, .expireLock
  | _, .redeliver _ | _, .crash _ | _, .crashOrchestrator => isTrue trivial

instance (g : WorkflowGraph) (script : Script) : ∀ s label, Decidable (scripted g script s label) :=
  fun s label => inferInstanceAs (Decidable (orderly g s label ∧ Scripted script s label))

/-- What the script says about the attempts that a node run has behind it. -/
def NodeRun.Follows (script : Nat → Option String) (row : NodeRun) : Prop :=
  match row.status with
  | .pending => row.retryCount = 0 ∧ row.errorMessage = none
  | .running => ∀ k, 0 < k → k < row.retryCount → (script k).isSome
  | .success => row.errorMessage = none ∧ 0 < row.retryCount ∧ script row.retryCount = none ∧
    ∀ k, 0 < k → k < row.retryCount → (script k).isSome
  | .failed => row.errorMessage = script row.retryCount ∧ 0 < row.retryCount ∧
    ∀ k, 0 < k → k ≤ row.retryCount → (script k).isSome

def Pc.Follows (script : Nat → Option String) : Pc → Prop
  | .updateStatus r err => err = script r
  | _ => True

structure Follows (g : WorkflowGraph) (script : Script) (s : State) : Prop where
  triggers : ∀ n, isTrigger g n = true → (s.infra.nodeRuns n).verdict = ⟨.success,0,none⟩
  rows : ∀ n, isTrigger g n = false → (s.infra.nodeRuns n).Follows (script n)
  handlers : ∀ h ∈ s.handlers, h.pc.Follows (script h.msg.nodeID)

variable {g : WorkflowGraph} {s t : State} {x y : Infra} {m : Message} {now : Int} {pc pc' : Pc}
  {i : Nat} {h : Handler} {n : NodeID} {label : Label} {script : Script} {row : NodeRun} {order : List NodeID}

section Attempts

variable {script : Nat → Option String} {k r left : Nat}

theorem attempt_success (before : ∀ j, k < j → j < r → (script j).isSome) (success : script r = none)
    (later : k < r) (bound : r ≤ k + left) : attempt script k left = ⟨.success,r,none⟩ := by
  induction left generalizing k with
  | zero => omega
  | succ left ih =>
    rw [attempt]
    by_cases now : r = k + 1
    · subst now
      rw [success]
    · obtain ⟨err,failed⟩ := Option.isSome_iff_exists.mp (before (k + 1) (by omega) (by omega))
      rw [failed]
      exact ih (fun j above => before j (by omega)) (by omega) (by omega)

theorem attempt_failed (all : ∀ j, k < j → j ≤ k + left → (script j).isSome) :
    attempt script k left = ⟨.failed,k + left,script (k + left)⟩ := by
  induction left generalizing k with
  | zero => rfl
  | succ left ih =>
    obtain ⟨err,failed⟩ := Option.isSome_iff_exists.mp (all (k + 1) (by omega) (by omega))
    rw [attempt,failed]
    have rest := ih (k := k + 1) fun j above below => all j (by omega) (by omega)
    simp only
    rw [rest,show k + 1 + left = k + (left + 1) by omega]

theorem NodeRun.Follows.success (follows : row.Follows script) (success : row.status = .success)
    (bound : row.retryCount ≤ 3) : row.verdict = attempt script 0 3 := by
  rw [NodeRun.Follows,success] at follows
  obtain ⟨clean,some,last,before⟩ := follows
  rw [attempt_success before last some (by omega),NodeRun.verdict,success,clean]

theorem NodeRun.Follows.exhausted (follows : row.Follows script) (failed : row.status = .failed)
    (three : row.retryCount = 3) : row.verdict = attempt script 0 3 := by
  rw [NodeRun.Follows,failed,three] at follows
  obtain ⟨message,_,all⟩ := follows
  rw [attempt_failed all,NodeRun.verdict,failed,three,message]

end Attempts

theorem publishing_follows {script : Nat → Option String} {rest : List NodeID} :
    (publishing rest).Follows script := by
  cases rest <;> trivial

/-- A goroutine writes what the script says, if that is what its action returned. -/
theorem Call.follows (call : Call g x m now pc y pc')
    (agrees : pc.Agrees (x.nodeRuns m.nodeID) m.retryCount) (follows : (x.nodeRuns m.nodeID).Follows (script m.nodeID))
    (own : pc.Follows (script m.nodeID))
    (idle : ∀ r, pc = .markRunning r → (x.nodeRuns m.nodeID).status ≠ .running) :
    (y.nodeRuns m.nodeID).Follows (script m.nodeID) ∧ pc'.Follows (script m.nodeID) := by
  cases call with
  | @markRunning r =>
    obtain ⟨unsuccessful,count,_,_⟩ := agrees
    refine ⟨?_,trivial⟩
    simp only [Infra.markWorkflowNodeAsRunning,Infra.setNodeRun_self]
    intro k some below
    have below : k < r := below
    cases status : (x.nodeRuns m.nodeID).status with
    | success => exact absurd status unsuccessful
    | running => exact absurd status (idle r rfl)
    | pending =>
      rw [NodeRun.Follows,status] at follows
      omega
    | failed =>
      rw [NodeRun.Follows,status] at follows
      exact follows.2.2 k some (by omega)
  | @succeed r =>
    obtain ⟨running,rfl,_,behind⟩ := agrees
    refine ⟨?_,trivial⟩
    rw [NodeRun.Follows,running] at follows
    simp only [Infra.updateWorkflowNodeRunStatus,Infra.setNodeRun_self]
    exact ⟨rfl,by show 0 < (x.nodeRuns m.nodeID).retryCount; omega,own.symm,follows⟩
  | @fail r err =>
    obtain ⟨running,rfl,_,behind⟩ := agrees
    refine ⟨?_,trivial⟩
    rw [NodeRun.Follows,running] at follows
    have said : some err = script m.nodeID (x.nodeRuns m.nodeID).retryCount := own
    simp only [Infra.updateWorkflowNodeRunStatus,Infra.setNodeRun_self]
    refine ⟨said,by show 0 < (x.nodeRuns m.nodeID).retryCount; omega,fun k some below => ?_⟩
    have below : k ≤ (x.nodeRuns m.nodeID).retryCount := below
    by_cases last : k = (x.nodeRuns m.nodeID).retryCount
    · rw [last,← said]; rfl
    · exact follows k some (by omega)
  | getChildren | publishChild => exact ⟨follows,publishing_follows⟩
  | _ => exact ⟨follows,trivial⟩

theorem Follows.call (follows : Follows g script s) (paced : Paced s) (tasked : Tasked g s)
    (here : s.handlers[i]? = some h) (call : Call g s.infra h.msg now h.pc x pc) :
    Follows g script (setHandler s i h x pc) := by
  have member := List.mem_of_getElem? here
  obtain ⟨⟨_,action⟩,_⟩ := tasked.handlers h member
  have idle : ∀ r, h.pc = .markRunning r → (s.infra.nodeRuns h.msg.nodeID).status ≠ .running := by
    intro r marking running
    -- the goroutine that executes the node would be a second one that attempts it
    obtain ⟨k,found,same,executing⟩ := paced.running _ running
    obtain ⟨j,there⟩ := List.mem_iff_getElem?.mp found
    have attempting : Attempts h.msg.nodeID h := ⟨rfl,by rw [marking]; trivial⟩
    have one := paced.alone _ j i k h there here ⟨same,executing.attempting⟩ attempting
    rw [one,here] at there
    cases there
    rw [marking] at executing
    exact executing
  obtain ⟨row,own⟩ := call.follows (paced.agrees h member) (follows.rows _ action) (follows.handlers h member) idle
  constructor
  · intro n is
    have other : n ≠ h.msg.nodeID := by
      rintro rfl
      rw [action] at is
      contradiction
    show (x.nodeRuns n).verdict = _
    rw [(Act.call call).elsewhere other]
    exact follows.triggers n is
  · intro n handled
    show (x.nodeRuns n).Follows _
    by_cases same : n = h.msg.nodeID
    · rw [same]; exact row
    · rw [(Act.call call).elsewhere same]
      exact follows.rows n handled
  · exact Pool.forall_set follows.handlers own

theorem Follows.outside (follows : Follows g script s) (outside : Outside s t) : Follows g script t := by
  constructor
  · rw [outside.same.nodeRuns]; exact follows.triggers
  · rw [outside.same.nodeRuns]; exact follows.rows
  · intro h member
    rcases outside.newer h member with old | ⟨begins,_⟩
    · exact follows.handlers h old
    · rw [begins]; trivial

theorem Follows.step (follows : Follows g script s) (paced : Paced s) (tasked : Tasked g s)
    (allowed : scripted g script s label) (step : (system g).step label s = some t) : Follows g script t := by
  obtain ⟨orderly,script⟩ := allowed
  cases faultless_cases orderly.1.1 step with
  | call here call => exact follows.call paced tasked here call
  | @finish i r err h here inside =>
    refine ⟨follows.triggers,follows.rows,?_⟩
    apply Pool.forall_set follows.handlers
    have returned := script h here
    rw [inside] at returned
    exact returned
  | orchestrate orchestration => exact follows.outside (orchestrate_outside orchestration)
  | deliver queued => exact follows.outside (deliver_outside queued)
  | mature waiting => exact follows.outside (mature_outside waiting)
  | expireSet => exact follows.outside (expire_outside ∅ _)
  | expireLock => exact follows.outside (expire_outside _ false)

theorem reach_follows (g : AcceptedGraph) (sources : SourceTriggers g.graph)
    (reach : Reach (system g.graph) (scripted g.graph script) s) : Follows g.graph script s := by
  refine Reach.invariant (Follows g.graph script) ?_ ?_ reach
  · constructor
    · intro n is
      simp [system,createWorkflowRun,NodeRun.verdict,is]
    · intro n action
      simp [system,createWorkflowRun,NodeRun.Follows,action]
    · intro h member
      simp [system] at member
  · intro s label t reach follows allowed step
    have exclusive : Reach (system g.graph) exclusive s := reach.mono fun _ _ ok => ok.1.1
    have context := reach_context g sources exclusive
    exact follows.step context.paced context.tasked allowed step

theorem runNode_local : Topological.Local (parents g) (runNode g script) := by
  intro n before after same
  have all : ((parents g n).all fun p => (before p).status = .success) =
      (parents g n).all fun p => (after p).status = .success := by
    rw [Bool.eq_iff_iff]
    simp only [List.all_eq_true,decide_eq_true_eq]
    constructor
    · intro succeeded p parent
      rw [← same p parent]
      exact succeeded p parent
    · intro succeeded p parent
      rw [same p parent]
      exact succeeded p parent
  simp only [runNode,all]

/-- When nothing is left, the node runs solve the equations of the sequential run. -/
theorem Quiescent.solves (g : AcceptedGraph) (quiescent : Quiescent s) (context : Context g.graph s)
    (wakeful : Wakeful g.graph s) (accounted : Accounted g.graph s) (follows : Follows g.graph script s)
    (listed : n ∈ ids g.graph) : (s.infra.nodeRuns n).verdict =
      runNode g.graph script n fun p => (s.infra.nodeRuns p).verdict := by
  have silent : ∀ n, ¬s.infra.Announced n := by
    rintro n ⟨m,member,_⟩
    simp [quiescent.queue,quiescent.delayed] at member
  by_cases is : isTrigger g.graph n = true
  · rw [runNode,if_pos is]
    exact follows.triggers n is
  · have action : isTrigger g.graph n = false := by simpa using is
    have row := follows.rows n action
    rw [runNode,if_neg is]
    have parents_iff : ((parents g.graph n).all fun p => (s.infra.nodeRuns p).verdict.status = .success) = true ↔
        ∀ p ∈ parents g.graph n, (s.infra.nodeRuns p).status = .success := by
      simp only [List.all_eq_true,decide_eq_true_eq]
      rfl
    cases status : (s.infra.nodeRuns n).status with
    | running =>
      obtain ⟨h,member,_,executing⟩ := context.paced.running n status
      rw [quiescent.handlers h member] at executing
      exact absurd executing id
    | pending =>
      have blocked : ¬∀ p ∈ parents g.graph n, (s.infra.nodeRuns p).status = .success := by
        intro ready
        rcases wakeful.awake n listed ⟨status,ready⟩ with announced | ⟨h,member,minds⟩ | minds
        · exact silent n announced
        · rw [quiescent.handlers h member] at minds
          exact minds
        · rw [quiescent.returned] at minds
          exact minds
      rw [if_neg (mt parents_iff.mp blocked),NodeRun.verdict,status]
      rw [NodeRun.Follows,status] at row
      rw [row.1,row.2]
    | success =>
      have above := context.sequenced.parents n action (by simp [status])
      rw [if_pos (parents_iff.mpr above)]
      exact row.success status (context.paced.bounded n)
    | failed =>
      have above := context.sequenced.parents n action (by simp [status])
      rw [if_pos (parents_iff.mpr above)]
      apply row.exhausted status
      have bound := context.paced.bounded n
      by_contra left
      rcases accounted.retried n status (by omega) with announced | ⟨h,member,_,retries⟩
      · exact silent n announced
      · rw [quiescent.handlers h member] at retries
        exact retries

/-- An accepted graph can be run one node after another. -/
theorem AcceptedGraph.exists_order (g : AcceptedGraph) :
    ∃ order, order.Perm (ids g.graph) ∧ Topological.Ordered (parents g.graph) order := by
  obtain ⟨depth,below⟩ := g.layered.2
  refine Topological.exists_ordered depth (fun n p parent => ?_) (ids g.graph) g.distinct
  have edge := below _ ((mem_parents g.graph).mp parent)
  simp only at edge
  omega

/-- Whatever the interleaving, when nothing is left the node runs are those of the nodes run one
after another, each action was called as often, and the run has succeeded if all nodes have. -/
theorem run_sequential (g : AcceptedGraph) (completable : Completable g.graph)
    (perm : order.Perm (ids g.graph)) (ordered : Topological.Ordered (parents g.graph) order)
    (reach : Reach (system g.graph) (scripted g.graph script) s) (quiescent : Quiescent s) :
    (∀ n ∈ ids g.graph, (s.infra.nodeRuns n).verdict = runNodes g.graph script order n ∧
      starts s.infra.history n = (runNodes g.graph script order n).retryCount) ∧
    s.infra.run.status = if ∀ n ∈ ids g.graph, (runNodes g.graph script order n).status = .success
      then .success else .failed := by
  have orderly : Reach (system g.graph) (Run.orderly g.graph) s := reach.mono fun _ _ ok => ok.1
  have exclusive : Reach (system g.graph) exclusive s := orderly.mono fun _ _ ok => ok.1
  have context := reach_context g completable.sources exclusive
  have wakeful := reach_wakeful completable.sources (exclusive.mono fun _ _ ok => ok.1)
  obtain ⟨accounted,_⟩ := reach_accounted g completable orderly
  have follows := reach_follows g completable.sources reach
  have known : ∀ n ∈ order, ∀ p ∈ parents g.graph n, p ∈ order := fun n _ p parent =>
    perm.mem_iff.mpr (g.parent_mem parent)
  have agree : ∀ n ∈ ids g.graph, (s.infra.nodeRuns n).verdict = runNodes g.graph script order n := by
    intro n listed
    symm
    apply Topological.evaluate_solves runNode_local ordered (fun n member p parent => .inl (known n member p parent))
    · intro n member
      exact quiescent.solves g context wakeful accounted follows (perm.mem_iff.mp member)
    · exact perm.mem_iff.mpr listed
  have statuses : ∀ n ∈ ids g.graph, (s.infra.nodeRuns n).status = (runNodes g.graph script order n).status := by
    intro n listed
    rw [← agree n listed]
    rfl
  constructor
  · intro n listed
    refine ⟨agree n listed,?_⟩
    have counted := reach_counts exclusive n
    have none : charged s n = 0 := by
      apply List.countP_eq_zero.mpr
      intro h member holds
      have holds := (of_decide_eq_true holds).2
      rw [quiescent.handlers h member] at holds
      exact holds
    rw [← agree n listed]
    show starts s.infra.history n = (s.infra.nodeRuns n).retryCount
    omega
  · have terminal := quiescent.ends g completable orderly
    split
    next all => exact terminal.success.mpr fun n listed => (statuses n listed).trans (all n listed)
    next some =>
      rcases terminal.ended with success | failed
      · exact absurd (fun n listed => (statuses n listed).symm.trans (terminal.success.mp success n listed)) some
      · exact failed

/-- The first attempt at the node after the trigger fails, everything else succeeds. -/
def failsOnce : Script := fun n k => if n = 2 ∧ k = 1 then some "timeout" else none

theorem chain_sequential : ∃ s : State, Quiescent s ∧
    (∀ n ∈ ids chain.graph, (s.infra.nodeRuns n).verdict = runNodes chain.graph failsOnce [1,2,3] n ∧
      starts s.infra.history n = (runNodes chain.graph failsOnce [1,2,3] n).retryCount) ∧
    s.infra.run.status = .success ∧ runNodes chain.graph failsOnce [1,2,3] 2 = ⟨.success,2,none⟩ := by
  obtain ⟨s,reach,quiescent⟩ : ∃ s, Reach (system chain.graph) (scripted chain.graph failsOnce) s ∧ Quiescent s :=
    follow_exists (List.flatten [List.replicate 5 (.orchestrate .ok), [.deliver ⟨2,0⟩],
      List.replicate 6 (.handle 0 .ok 1), [.finish 0 (some "timeout")], List.replicate 4 (.handle 0 .ok 2),
      [.mature ⟨2,1⟩,.deliver ⟨2,1⟩], List.replicate 6 (.handle 1 .ok 3), [.finish 1 none],
      List.replicate 6 (.handle 1 .ok 4), [.deliver ⟨3,0⟩], List.replicate 6 (.handle 2 .ok 5), [.finish 2 none],
      List.replicate 7 (.handle 2 .ok 9)]) (by decide +kernel)
  have ordered : Topological.Ordered (parents chain.graph) [1,2,3] :=
    ⟨by decide,by decide,by decide⟩
  obtain ⟨agree,status⟩ := run_sequential chain (by decide) (by decide) ordered reach quiescent
  exact ⟨s,quiescent,agree,status,by decide⟩

end TinyAutomator.Run
