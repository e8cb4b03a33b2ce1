import TinyAutomator.RedisClient

/-! Which mark of a node ends its run. The commands and scripts of all workers, and keys
whose time is up, come to Redis in one order; a call that never reaches it is not in it. -/
namespace TinyAutomator.RedisClient

open Redis

/-- InitializeRunningNodeSet is two operations, and others may come between them. -/
inductive Operation where
  | addRunningNodes (runID : RunID) (nodeIDs : List NodeID)
  | expireRunningNodes (runID : RunID)
  | mark (runID : RunID) (nodeID : NodeID)
  | lock (runID : RunID)
  | claimEvent (workflowCalendarID : Int32) (eventID : String) (now : Int) (ttl : Nat)
  | timeOut (key : String)
  deriving DecidableEq

def Operation.after : Operation → Store → Store
  | .addRunningNodes runID nodeIDs, db => (exec (RedisClient.addRunningNodes runID nodeIDs) db).2
  | .expireRunningNodes runID, db => (exec (RedisClient.expireRunningNodes runID) db).2
  | .mark runID nodeID, db => (exec (markNodeCompleteAndCountRemaining runID nodeID) db).2
  | .lock runID, db => (exec (tryAcquireWorkflowRunFinalizationLock runID) db).2
  | .claimEvent workflowCalendarID eventID now ttl, db =>
    (exec (tryEventClaim workflowCalendarID eventID now ttl) db).2
  | .timeOut key, db => Redis.timeOut key db

def Operation.key : Operation → String
  | .addRunningNodes runID _ | .expireRunningNodes runID | .mark runID _ => generateRunningNodeSetKey runID
  | .lock runID => finalizationLockKey runID
  | .claimEvent workflowCalendarID eventID _ _ => eventClaimKey workflowCalendarID eventID
  | .timeOut key => key

/-- The running-node set of the run is not initialised again and does not time out. -/
def Operation.Keeps (runID : RunID) : Operation → Prop
  | .addRunningNodes other _ => other ≠ runID
  | .timeOut key => key ≠ generateRunningNodeSetKey runID
  | _ => True

instance (runID : RunID) : DecidablePred (Operation.Keeps runID)
  | .addRunningNodes other _ => inferInstanceAs (Decidable (other ≠ runID))
  | .timeOut key => inferInstanceAs (Decidable (key ≠ generateRunningNodeSetKey runID))
  | .expireRunningNodes _ | .mark .. | .lock _ | .claimEvent .. => inferInstanceAs (Decidable True)

/-- The node that an operation marks complete in the run. -/
def Operation.marks (runID : RunID) : Operation → Option NodeID
  | .mark other nodeID => if other = runID then some nodeID else none
  | _ => none

/-- With no node ids InitializeRunningNodeSet only logs a warning. -/
def initializing (runID : RunID) (nodeIDs : List NodeID) : List Operation :=
  if nodeIDs = [] then [] else [.addRunningNodes runID nodeIDs,.expireRunningNodes runID]

def run : List Operation → Store → Store
  | [], db => db
  | op :: ops, db => run ops (op.after db)

/-- The nodes of the run that a list of operations marks complete. -/
def marked (runID : RunID) (ops : List Operation) : Finset NodeID :=
  (ops.filterMap (Operation.marks runID)).toFinset

/-- What the callers of the run's marks are told, in this order. -/
def answers (runID : RunID) : List Operation → Store → List (Except String Int)
  | [], _ => []
  | op :: ops, db =>
    match op.marks runID with
    | some nodeID =>
      (exec (markNodeCompleteAndCountRemaining runID nodeID) db).1 :: answers runID ops (op.after db)
    | none => answers runID ops (op.after db)

section Operations

variable {op : Operation} {ops : List Operation} {db : Store} {runID : RunID} {nodes : Finset NodeID}

theorem after_other {other : String} (apart : other ≠ op.key) : op.after db other = db other := by
  cases op with
  | addRunningNodes runID nodeIDs =>
    exact OnlyAt.bind ((sAdd_onlyAt _).adapt _) (fun _ => .pure _) db other apart
  | expireRunningNodes runID =>
    exact OnlyAt.bind (expire_onlyAt _) (fun _ => .pure _) db other apart
  | mark runID nodeID =>
    refine OnlyAt.bind (popNodeAndCountScript_onlyAt.adapt _) (fun result => ?_) db other apart
    split
    · exact .throw _
    · exact .pure _
  | lock runID => exact (setNX_onlyAt _ _).adapt _ db other apart
  | claimEvent workflowCalendarID eventID now ttl => exact (setNX_onlyAt _ _).adapt _ db other apart
  | timeOut key => exact timeOut_other apart

theorem run_other {other : String} (apart : ∀ op ∈ ops, other ≠ op.key) : run ops db other = db other := by
  induction ops generalizing db with
  | nil => rfl
  | cons op ops ih =>
    obtain ⟨first,later⟩ := List.forall_mem_cons.mp apart
    exact (ih later).trans (after_other first)

theorem initializing_key {nodeIDs : List NodeID} (member : op ∈ initializing runID nodeIDs) :
    op.key = generateRunningNodeSetKey runID := by
  unfold initializing at member
  split at member
  next => contradiction
  next =>
    rcases List.mem_pair.mp member with rfl | rfl
    · rfl
    · rfl

theorem Running.frame (running : Running db runID nodes) (apart : generateRunningNodeSetKey runID ≠ op.key) :
    Running (op.after db) runID nodes :=
  Holds.congr running (after_other apart)

theorem mark_marks (other runID : RunID) (nodeID : NodeID) :
    (Operation.mark other nodeID).marks runID = if other = runID then some nodeID else none := rfl

theorem marks_some {nodeID : NodeID} (marks : op.marks runID = some nodeID) : op = .mark runID nodeID := by
  cases op with
  | mark other nodeID =>
    rw [mark_marks,Option.ite_none_right_eq_some] at marks
    obtain ⟨rfl,same⟩ := marks
    cases same
    rfl
  | addRunningNodes | expireRunningNodes | lock | claimEvent | timeOut => contradiction

theorem after_marked {nodeID : NodeID} (running : Running db runID nodes)
    (marks : op.marks runID = some nodeID) : Running (op.after db) runID (nodes.erase nodeID) := by
  cases marks_some marks
  exact (mark_running running nodeID).2

/-- Nothing else that happens to other keys, or sets the time to live, touches the set. -/
theorem after_unmarked (running : Running db runID nodes) (kept : op.Keeps runID)
    (unmarked : op.marks runID = none) : Running (op.after db) runID nodes := by
  cases op with
  | addRunningNodes other nodeIDs => exact running.frame (runningNodeSetKey_injective.ne (Ne.symm kept))
  | expireRunningNodes other =>
    by_cases same : other = runID
    · subst same
      obtain ⟨db',done,still⟩ := expireRunningNodes_running running
      rw [Operation.after,done]
      exact still
    · exact running.frame (runningNodeSetKey_injective.ne (Ne.symm same))
  | mark other nodeID =>
    have apart : other ≠ runID := by
      rintro rfl
      rw [mark_marks,if_pos rfl] at unmarked
      contradiction
    exact running.frame (runningNodeSetKey_injective.ne apart.symm)
  | lock other => exact running.frame lockKey_ne_runningNodeSetKey.symm
  | claimEvent workflowCalendarID eventID now ttl => exact running.frame eventClaimKey_ne_runningNodeSetKey.symm
  | timeOut key => exact running.frame (Ne.symm kept)

/-- What is left of the set is what nobody has marked. -/
theorem run_running (running : Running db runID nodes) (kept : ∀ op ∈ ops, op.Keeps runID) :
    Running (run ops db) runID (nodes \ marked runID ops) := by
  induction ops generalizing db nodes with
  | nil => exact (@Finset.sdiff_empty _ _ nodes).symm ▸ running
  | cons op ops ih =>
    obtain ⟨first,later⟩ := List.forall_mem_cons.mp kept
    cases marks : op.marks runID with
    | none =>
      have rest : marked runID (op :: ops) = marked runID ops := by simp [marked,marks]
      rw [rest]
      exact ih (after_unmarked running first marks) later
    | some nodeID =>
      have rest : marked runID (op :: ops) = insert nodeID (marked runID ops) := by simp [marked,marks]
      rw [rest,← Countdown.erase_sdiff,← Finset.erase_sdiff_comm]
      exact ih (after_marked running marks) later

theorem run_listed (running : Running db runID nodes) (kept : ∀ op ∈ ops, op.Keeps runID) :
    exec (getRunningNodeIDs runID) (run ops db) = (.ok (nodes \ marked runID ops),run ops db) :=
  getRunningNodeIDs_running (run_running running kept)

/-- The callers read the reports of a countdown. -/
theorem answers_reports (running : Running db runID nodes) (kept : ∀ op ∈ ops, op.Keeps runID) :
    answers runID ops db =
      (Countdown.reports nodes (ops.filterMap (Operation.marks runID))).map answer := by
  induction ops generalizing db nodes with
  | nil => rfl
  | cons op ops ih =>
    obtain ⟨first,later⟩ := List.forall_mem_cons.mp kept
    rw [answers]
    cases marks : op.marks runID with
    | none =>
      rw [List.filterMap_cons_none marks]
      exact ih (after_unmarked running first marks) later
    | some nodeID =>
      rw [List.filterMap_cons_some marks,Countdown.reports,List.map_cons,← (mark_running running nodeID).1]
      exact congrArg _ (ih (after_marked running marks) later)

theorem answer_injective : Function.Injective answer := by
  intro a b same
  cases a with
  | none =>
    cases b with
    | none => rfl
    | some => contradiction
  | some =>
    cases b with
    | none => contradiction
    | some => exact congrArg some (Int.ofNat.inj (Except.ok.inj same))

/-- Called alone, InitializeRunningNodeSet is its operations in turn. -/
theorem initializeRunningNodeSet_run (running : Running db runID nodes) (nodeIDs : List NodeID) :
    exec (initializeRunningNodeSet runID nodeIDs) db = (.ok (),run (initializing runID nodeIDs) db) ∧
      Running (run (initializing runID nodeIDs) db) runID (nodes ∪ nodeIDs.toFinset) := by
  by_cases none : nodeIDs = []
  · subst none
    rw [List.toFinset_nil,Finset.union_empty]
    exact ⟨rfl,running⟩
  · obtain ⟨added,done,running⟩ := addRunningNodes_running running nodeIDs
    obtain ⟨expiring,set,running⟩ := expireRunningNodes_running running
    have final : run (initializing runID nodeIDs) db = expiring := by
      rw [initializing,if_neg none]
      simp only [run,Operation.after,done,set]
    rw [initializeRunningNodeSet,if_neg none,exec_bind_ok done,set,final]
    exact ⟨rfl,running⟩

/-- Each caller before the last node learns how many nodes are left, the one that marks the
last of them reads zero, and those after it are told that the set does not exist. A run
without a set has `old = ∅` (`running_of_missing`). The EXPIRE of the initialization is an
operation of the run or is never executed. -/
theorem finalizing_mark_once {old : Finset NodeID} (held : Running db runID old)
    {nodeIDs : List NodeID} (initialised : nodeIDs ≠ []) (kept : ∀ op ∈ ops, op.Keeps runID) :
    let set := old ∪ nodeIDs.toFinset
    let start := (exec (addRunningNodes runID nodeIDs) db).2
    (∀ before nodeID after, ops = before ++ .mark runID nodeID :: after →
      let called := insert nodeID (marked runID before)
      let reply := (exec (markNodeCompleteAndCountRemaining runID nodeID) (run before start)).1
      (¬set ⊆ called → 0 < (set \ called).card ∧ reply = .ok (set \ called).card) ∧
      (set ⊆ called → ¬set ⊆ marked runID before → reply = .ok 0) ∧
      (set ⊆ marked runID before → reply = .error
        "attempted to mark node complete but running node set did not exist in redis")) ∧
    (answers runID ops start).count (.ok 0) = if set ⊆ marked runID ops then 1 else 0 := by
  intro set start
  have running : Running start runID set := by
    obtain ⟨db',done,added⟩ := addRunningNodes_running held nodeIDs
    show Running (exec (addRunningNodes runID nodeIDs) db).2 runID set
    rw [done]
    exact added
  constructor
  · intro before nodeID after split called reply
    have keptBefore : ∀ op ∈ before, op.Keeps runID := by
      intro op member
      exact kept op (split ▸ List.mem_append_left _ member)
    have reported : reply = answer (Countdown.report (set \ marked runID before) nodeID) :=
      (mark_running (run_running running keptBefore) nodeID).1
    refine ⟨fun more => ?_,fun all before => ?_,fun finished => ?_⟩
    · obtain ⟨positive,report⟩ := Countdown.report_open more
      exact ⟨positive,by rw [reported,report]; rfl⟩
    · rw [reported,Countdown.report_last all before]
      rfl
    · rw [reported,Countdown.report_over finished]
      rfl
  · have filled : set.Nonempty :=
      (List.toFinset_nonempty_iff _).mpr initialised |>.mono Finset.subset_union_right
    have zero : (Except.ok 0 : Except String Int) = answer (some 0) := rfl
    rw [answers_reports running kept,zero,List.count_map_of_injective _ _ answer_injective,
      Countdown.reports_count _ filled]
    rfl

/-- Two nodes, marks that repeat and one of a node outside the set. -/
def twoNodes : List Operation :=
  [.expireRunningNodes 7,.mark 7 1,.mark 7 1,.mark 7 9,.mark 8 2,.lock 7,.mark 7 2,.mark 7 2]

theorem two_nodes_finalized :
    let start := (exec (addRunningNodes 7 [1,2]) fun _ => none).2
    (exec (markNodeCompleteAndCountRemaining 7 9) (run (twoNodes.take 3) start)).1 = .ok 1 ∧
      (exec (markNodeCompleteAndCountRemaining 7 2) (run (twoNodes.take 6) start)).1 = .ok 0 ∧
      (exec (markNodeCompleteAndCountRemaining 7 2) (run (twoNodes.take 7) start)).1 = .error missingSet ∧
      (answers 7 twoNodes start).count (.ok 0) = 1 := by
  obtain ⟨called,once⟩ := @finalizing_mark_once twoNodes (fun _ => none) 7 ∅ (running_of_missing rfl)
    [1,2] (by decide) (by decide)
  refine ⟨?_,?_,?_,once.trans (if_pos (by decide))⟩
  · exact ((called (twoNodes.take 3) 9 (twoNodes.drop 4) rfl).1 (by decide)).2
  · exact (called (twoNodes.take 6) 2 (twoNodes.drop 7) rfl).2.1 (by decide) (by decide)
  · exact (called (twoNodes.take 7) 2 [] rfl).2.2 (by decide)

end Operations

end TinyAutomator.RedisClient
