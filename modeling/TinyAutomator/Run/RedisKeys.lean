import TinyAutomator.Run.LastMark
import TinyAutomator.Run.Steps

/-! The executor's calls on Redis: the choice between finalizing a run and reading its
pending node runs, and the keys behind the running-node set and the lock of Run.Infra. -/
namespace TinyAutomator.RedisClient

open Redis
open Run (Infra Message Pc Call OrchestratorPc Orchestration nonRoots)

section Executor

def reinitializeRunningNodeSet (runID : RunID) (nIDs : List NodeID) : Client Unit := do
  let lockAcquired ← ExceptT.adapt ("failed to acquire workflow reinitialization lock: " ++ ·)
    (tryAcquireWorkflowRunFinalizationLock runID)
  if lockAcquired = false then
    throw "workflow run reinitialization in redis already in progress by another worker"
  else
    -- an error is only logged
    let _ ← (attempt (initializeRunningNodeSet runID nIDs) : Client (Except String Unit))

/-- `pending` is what GetWorkflowNodeRuns would answer. One call without others in between;
Run.System takes it apart. -/
def shouldFinalizeWorkflowRun (runID : RunID) (nodeID : NodeID) (pending : Except String (List NodeID)) :
    Client Bool := do
  let remaining ← (attempt (markNodeCompleteAndCountRemaining runID nodeID) : Client (Except String Int))
  match remaining with
  | .ok remaining => return remaining = 0
  | .error _ =>
    match pending with
    | .error err => throw ("failed to get workflow node runs and count remaining: " ++ err)
    | .ok nIDs =>
      if nIDs.length = 0 then return true
      else
        let _ ← (attempt (reinitializeRunningNodeSet runID nIDs) : Client (Except String Unit))
        return nIDs.length = 0

variable {db : Store} {runID : RunID} {nodes : Finset NodeID}

/-- While the set exists, the node runs are not read and the caller of the last mark
finalizes; without it the run is finished if no node run is pending. -/
theorem shouldFinalizeWorkflowRun_running (running : Running db runID nodes) (nodeID : NodeID)
    (pending : Except String (List NodeID)) :
    (exec (shouldFinalizeWorkflowRun runID nodeID pending) db).1 =
      if nodes ≠ ∅ then .ok (decide (nodes ⊆ {nodeID}))
      else match pending with
        | .ok nIDs => .ok (decide (nIDs = []))
        | .error err => .error ("failed to get workflow node runs and count remaining: " ++ err) := by
  obtain ⟨told,_⟩ := mark_running running nodeID
  unfold shouldFinalizeWorkflowRun
  rw [exec_bind_ok (exec_attempt _),told]
  by_cases finished : nodes = ∅
  · rw [if_neg (not_not_intro finished),Countdown.report,if_pos finished]
    cases pending with
    | error err => rfl
    | ok nIDs =>
      cases nIDs with
      | nil => rfl
      | cons n rest =>
        show (exec ((attempt (reinitializeRunningNodeSet runID (n :: rest)) : Client (Except String Unit)) >>=
          fun _ => pure (decide ((n :: rest).length = 0))) _).1 = _
        rw [exec_bind_ok (exec_attempt _)]
        rfl
  · have last : ((nodes.erase nodeID).card : Int) = 0 ↔ nodes ⊆ {nodeID} := by
      rw [Int.natCast_eq_zero,Finset.card_eq_zero,Finset.erase_eq_empty_iff,Finset.subset_singleton_iff]
    rw [if_pos finished,Countdown.report,if_neg finished,← decide_eq_decide.mpr last]
    rfl

end Executor

/-- The two keys of a run as Run.Infra keeps them; a node id is a positive int32. -/
structure Mirrors (db : Store) (runID : RunID) (x : Infra) : Prop where
  set : Running db runID (x.runningSet.image Nat.toInt32)
  lock : (db (finalizationLockKey runID)).isSome = x.finalizeLock

/-- The commands that a call of a worker sends to Redis. -/
def operations (runID : RunID) (m : Message) : Pc → List Operation
  | .markComplete => [.mark runID m.nodeID.toInt32]
  | .acquireLock _ => [.lock runID]
  | .addPending pending => initializing runID (pending.map Nat.toInt32)
  | _ => []

section Mirrored

variable {db db' : Store} {runID : RunID} {x y : Infra} {g : WorkflowGraph} {m : Message} {now : Int} {pc' : Pc}

theorem toInt32_inj {a b : Nat} (small : a < 2 ^ 31) (small' : b < 2 ^ 31)
    (same : a.toInt32 = b.toInt32) : a = b := by
  have values : (Int32.ofNat a).toInt = (Int32.ofNat b).toInt := congrArg Int32.toInt same
  rw [Int32.toInt_ofNat_of_lt small,Int32.toInt_ofNat_of_lt small'] at values
  exact Int.ofNat.inj values

theorem image_erase_toInt32 {set : Finset TinyAutomator.NodeID} {n : TinyAutomator.NodeID}
    (small : ∀ k ∈ insert n set, k < 2 ^ 31) :
    (set.erase n).image Nat.toInt32 = (set.image Nat.toInt32).erase n.toInt32 := by
  have apart : ∀ k ∈ set, k.toInt32 = n.toInt32 → k = n := fun k member =>
    toInt32_inj (small k (Finset.mem_insert_of_mem member)) (small n (Finset.mem_insert_self n set))
  ext id
  simp only [Finset.mem_image,Finset.mem_erase]
  constructor
  · rintro ⟨k,⟨other,member⟩,rfl⟩
    exact ⟨mt (apart k member) other,k,member,rfl⟩
  · rintro ⟨other,k,member,rfl⟩
    exact ⟨k,⟨fun same => other (same ▸ rfl),member⟩,rfl⟩

theorem report_toInt32 {set : Finset TinyAutomator.NodeID} {n : TinyAutomator.NodeID}
    (small : ∀ k ∈ insert n set, k < 2 ^ 31) :
    Countdown.report (set.image Nat.toInt32) n.toInt32 = Countdown.report set n := by
  have injective : Set.InjOn Nat.toInt32 (set.erase n : Finset TinyAutomator.NodeID) := by
    intro a member b member' same
    have bound : ∀ k ∈ set.erase n, k < 2 ^ 31 := fun k member =>
      small k (Finset.mem_insert_of_mem (Finset.mem_of_mem_erase member))
    exact toInt32_inj (bound a member) (bound b member') same
  unfold Countdown.report
  rw [← image_erase_toInt32 small,Finset.card_image_of_injOn injective]
  simp only [Finset.image_eq_empty]

theorem mark_mirrored (mirrors : Mirrors db runID x) (small : ∀ n ∈ insert m.nodeID x.runningSet, n < 2 ^ 31) :
    Mirrors ((Operation.mark runID m.nodeID.toInt32).after db) runID (x.markNodeComplete m.nodeID) := by
  constructor
  · show Running _ _ ((x.runningSet.erase m.nodeID).image Nat.toInt32)
    rw [image_erase_toInt32 small]
    exact (mark_running mirrors.set _).2
  · rw [after_other lockKey_ne_runningNodeSetKey]
    exact mirrors.lock

theorem initializing_mirrored (mirrors : Mirrors db runID x) (nodeIDs : List TinyAutomator.NodeID) :
    Mirrors (run (initializing runID (nodeIDs.map Nat.toInt32)) db) runID
      (x.initializeRunningNodeSet nodeIDs) := by
  constructor
  · show Running _ _ ((x.runningSet ∪ nodeIDs.toFinset).image Nat.toInt32)
    rw [image_added]
    exact (initializeRunningNodeSet_run mirrors.set _).2
  · rw [run_other fun op member => initializing_key member ▸ lockKey_ne_runningNodeSetKey]
    exact mirrors.lock

theorem lock_told (db : Store) (runID : RunID) :
    (exec (tryAcquireWorkflowRunFinalizationLock runID) db).1 = .ok (db (finalizationLockKey runID)).isNone ∧
      ((exec (tryAcquireWorkflowRunFinalizationLock runID) db).2 (finalizationLockKey runID)).isSome = true := by
  obtain ⟨told,taken⟩ := @exec_setNX Failure _ _ db _ (finalizationLockKey runID) "1" (some 5000)
  rw [tryAcquireWorkflowRunFinalizationLock,request,exec_adapt,told]
  exact ⟨rfl,taken⟩

theorem lock_mirrored (mirrors : Mirrors db runID x) :
    Mirrors ((Operation.lock runID).after db) runID x.acquireFinalizationLock :=
  ⟨mirrors.set.frame lockKey_ne_runningNodeSetKey.symm,(lock_told db runID).2⟩

theorem Mirrors.congr (mirrors : Mirrors db runID x) (set : y.runningSet = x.runningSet)
    (lock : y.finalizeLock = x.finalizeLock) : Mirrors db runID y :=
  ⟨set ▸ mirrors.set,mirrors.lock.trans lock.symm⟩

/-- The keys follow Run.Infra along every call of a worker. -/
theorem call_mirrored {pc : Pc} (call : Call g x m now pc y pc') (mirrors : Mirrors db runID x)
    (small : ∀ n ∈ insert m.nodeID x.runningSet, n < 2 ^ 31) :
    Mirrors (run (operations runID m pc) db) runID y := by
  cases call with
  | setMissing missing =>
    have none : x.markNodeComplete m.nodeID = x := by
      unfold Infra.markNodeComplete
      rw [missing,Finset.erase_empty,← missing]
    exact none ▸ mark_mirrored mirrors small
  | markLast | markOne => exact mark_mirrored mirrors small
  | lockHeld held =>
    have same : x.acquireFinalizationLock = x := by
      unfold Infra.acquireFinalizationLock
      rw [← held]
    exact same ▸ lock_mirrored mirrors
  | lock => exact lock_mirrored mirrors
  | addPending => exact initializing_mirrored mirrors _
  | _ => exact mirrors.congr rfl rfl

/-- A worker goes on as the reply to its mark tells it. -/
theorem mark_decides (call : Call g x m now .markComplete y pc') (mirrors : Mirrors db runID x)
    (small : ∀ n ∈ insert m.nodeID x.runningSet, n < 2 ^ 31) :
    pc' = match (exec (markNodeCompleteAndCountRemaining runID m.nodeID.toInt32) db).1 with
      | .ok remaining => if remaining = 0 then .getNodeRuns else .ack
      | .error _ => .getPending := by
  rw [(mark_running mirrors.set _).1,report_toInt32 small]
  cases call with
  | setMissing missing =>
    rw [Countdown.report,if_pos missing]
    rfl
  | markLast present last =>
    rw [Countdown.report,if_neg present,last]
    rfl
  | markOne present more =>
    have left : ((x.runningSet.erase m.nodeID).card : Int) ≠ 0 :=
      Int.natCast_ne_zero.mpr (mt Finset.card_eq_zero.mp more)
    rw [Countdown.report,if_neg present]
    exact (if_neg left).symm

theorem lock_decides {pending : List TinyAutomator.NodeID} (call : Call g x m now (.acquireLock pending) y pc')
    (mirrors : Mirrors db runID x) :
    pc' = if (exec (tryAcquireWorkflowRunFinalizationLock runID) db).1 = .ok true then .addPending pending
      else .ack := by
  rw [(lock_told db runID).1,← Option.not_isSome,mirrors.lock]
  cases call with
  | lockHeld held => rw [held]; rfl
  | lock free => rw [free]; rfl

/-- OrchestrateWorkflow sends the initialization and nothing else. -/
theorem orchestration_mirrored {pc pc' : OrchestratorPc} (orchestration : Orchestration g x pc y pc')
    (mirrors : Mirrors db runID x) :
    Mirrors (run (if pc = .initSet then initializing runID ((nonRoots g).map Nat.toInt32) else []) db) runID y := by
  cases orchestration with
  | initSet => exact initializing_mirrored mirrors _
  | _ => exact mirrors.congr rfl rfl

/-- A key that times out is one of the two expiries of Run.System, or the run does not notice. -/
theorem timeOut_mirrored (mirrors : Mirrors db runID x) (key : String) :
    Mirrors (timeOut key db) runID x ∨
      key = generateRunningNodeSetKey runID ∧ Mirrors (timeOut key db) runID {x with runningSet := ∅} ∨
      key = finalizationLockKey runID ∧ Mirrors (timeOut key db) runID {x with finalizeLock := false} := by
  by_cases mortal : ((db key).bind (·.ttl)).isSome
  · have gone : timeOut key db = Function.update db key none := if_pos mortal
    rw [gone]
    by_cases set : key = generateRunningNodeSetKey runID
    · subst set
      refine .inr (.inl ⟨rfl,running_of_missing (Function.update_self ..),?_⟩)
      rw [Function.update_of_ne lockKey_ne_runningNodeSetKey]
      exact mirrors.lock
    · have kept := Holds.congr mirrors.set (Function.update_of_ne (Ne.symm set) none db)
      by_cases lock : key = finalizationLockKey runID
      · subst lock
        refine .inr (.inr ⟨rfl,kept,?_⟩)
        rw [Function.update_self]
        rfl
      · refine .inl ⟨kept,?_⟩
        rw [Function.update_of_ne (Ne.symm lock)]
        exact mirrors.lock
  · have stays : timeOut key db = db := if_neg mortal
    exact .inl (stays.symm ▸ mirrors)

end Mirrored

end TinyAutomator.RedisClient
