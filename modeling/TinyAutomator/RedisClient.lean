import Mathlib.Data.Finset.Union
import TinyAutomator.Lib.Redis
import TinyAutomator.Lib.Countdown
import TinyAutomator.Access

/-! The Redis client: the running-node set of a run, its finalization lock and the claims
of calendar events. Each call is one command or script, InitializeRunningNodeSet is two. -/
namespace TinyAutomator.RedisClient

open Redis

abbrev RunID := Int32
abbrev NodeID := Int32

abbrev Store := Database String String
abbrev Client := Script String String String

section Calls

variable {α : Type}

/-- An error of Redis is returned behind the text of the call. -/
def request (failed : String) (script : Script Failure String String α) : Client α :=
  ExceptT.adapt (fun failure => failed ++ ": " ++ failure.text) script

def generateRunningNodeSetKey (runID : RunID) : String :=
  "workflow_run:" ++ toString runID ++ ":running_nodes"

def finalizationLockKey (runID : RunID) : String :=
  "workflow_run:" ++ toString runID ++ ":finalize_lock"

def eventClaimKey (workflowCalendarID : Int32) (eventID : String) : String :=
  "triggered_event:" ++ toString workflowCalendarID ++ ":" ++ eventID

/-- Thirty minutes, in milliseconds. -/
def runningNodeSetTTL : Nat := 30 * 60 * 1000

def addRunningNodes (runID : RunID) (nodeIDs : List NodeID) : Client Unit := do
  let _ ← request "failed to SADD running node set"
    (sAdd (generateRunningNodeSetKey runID) (nodeIDs.map toString))

/-- Its error would only be logged. -/
def expireRunningNodes (runID : RunID) : Client Unit := do
  let _ ← expire (generateRunningNodeSetKey runID) runningNodeSetTTL

def initializeRunningNodeSet (runID : RunID) (nodeIDs : List NodeID) : Client Unit :=
  if nodeIDs = [] then return ()
  else do
    addRunningNodes runID nodeIDs
    expireRunningNodes runID

/-- strconv.ParseInt in base 10 for 32 bits. -/
def parseInt32 (text : String) : Option NodeID :=
  (Access.atoi text).bind fun n => if -2 ^ 31 ≤ n ∧ n < 2 ^ 31 then some n.toInt32 else none

/-- A member that is no int32 is left out with a warning. -/
def getRunningNodeIDs (runID : RunID) : Client (Finset NodeID) := do
  let values ← request "failed to fetch running node set from Redis" (sMembers (generateRunningNodeSetKey runID))
  return values.biUnion fun val => (parseInt32 val).elim ∅ fun id => {id}

def tryAcquireWorkflowRunFinalizationLock (runID : RunID) : Client Bool :=
  request "failed to acquire workflow run finalization lock"
    (setNX (finalizationLockKey runID) "1" (some 5000))

/-- A claim without a time to live stays. -/
def tryEventClaim (workflowCalendarID : Int32) (eventID : String) (now : Int) (ttl : Nat) :
    Client Bool :=
  request "failed to claim calendar event"
    (setNX (eventClaimKey workflowCalendarID eventID) (toString now) (if ttl = 0 then none else some ttl))

def popNodeAndCountScript (key nodeID : String) : Script Failure String String Int := do
  let present ← existsKey key
  if present = false then return -1
  else
    let _ ← sRem key nodeID
    let remaining ← sCard key
    if remaining = 0 then
      let _ ← del key
    return remaining

def missingSet : String :=
  "attempted to mark node complete but running node set did not exist in redis"

/-- The status of the node, which the caller passes too, is not read. -/
def markNodeCompleteAndCountRemaining (runID : RunID) (nodeID : NodeID) : Client Int := do
  let result ← request "failed to mark node complete in redis"
    (popNodeAndCountScript (generateRunningNodeSetKey runID) (toString nodeID))
  if result = -1 then throw missingSet
  else return result

end Calls

section Keys

variable {runID other : RunID} {nodeID : NodeID}

theorem parseInt32_toString (id : Int32) : parseInt32 (toString id) = some id := by
  have low := id.le_toInt
  have high := id.toInt_lt
  rw [parseInt32,Access.atoi_int32]
  simp only [Option.bind_some]
  rw [if_pos ⟨low,high⟩]
  simp

theorem decimal_injective : Function.Injective (toString : Int32 → String) := by
  intro a b same
  have left := parseInt32_toString a
  rw [same,parseInt32_toString b] at left
  exact (Option.some.inj left).symm

theorem runningNodeSetKey_injective : Function.Injective generateRunningNodeSetKey := by
  intro a b same
  exact decimal_injective ((String.append_right_inj _).mp ((String.append_left_inj _).mp same))

theorem last_append {s t : String} {c : Char} (last : t.toList.getLast? = some c) :
    (s ++ t).toList.getLast? = some c := by
  rw [String.toList_append,List.getLast?_append,last]
  rfl

theorem first_append {s t : String} {c : Char} (first : s.toList.head? = some c) :
    (s ++ t).toList.head? = some c := by
  rw [String.toList_append,List.head?_append,first]
  rfl

theorem lockKey_ne_runningNodeSetKey : finalizationLockKey other ≠ generateRunningNodeSetKey runID := by
  intro same
  have lock : (finalizationLockKey other).toList.getLast? = some 'k' := last_append rfl
  have set : (generateRunningNodeSetKey runID).toList.getLast? = some 's' := last_append rfl
  rw [same,set] at lock
  exact absurd lock (by decide)

theorem eventClaimKey_ne_runningNodeSetKey {workflowCalendarID : Int32} {eventID : String} :
    eventClaimKey workflowCalendarID eventID ≠ generateRunningNodeSetKey runID := by
  intro same
  have claim : (eventClaimKey workflowCalendarID eventID).toList.head? = some 't' :=
    first_append (first_append (first_append rfl))
  have set : (generateRunningNodeSetKey runID).toList.head? = some 'w' := first_append (first_append rfl)
  rw [same,set] at claim
  exact absurd claim (by decide)

end Keys

section Scripts

variable {db : Store} {key nodeID : String} {stored : Finset String}

theorem popNodeAndCountScript_missing (holds : Holds db key ∅) :
    exec (popNodeAndCountScript key nodeID) db = (.ok (-1),db) := by
  rw [popNodeAndCountScript,exec_bind_ok holds.exec_existsKey]
  rfl

/-- The script deletes a key that SREM has deleted with its last member already. -/
theorem popNodeAndCountScript_present (holds : Holds db key stored) (filled : stored ≠ ∅) (nodeID : String) :
    ∃ db', exec (popNodeAndCountScript key nodeID) db = (.ok (stored.erase nodeID).card,db') ∧
      Holds db' key (stored.erase nodeID) := by
  have removed := put_holds db key (stored.erase nodeID)
  rw [popNodeAndCountScript,exec_bind_ok holds.exec_existsKey]
  simp only [filled]
  show ∃ db', exec (sRem key nodeID >>= _) db = _ ∧ _
  rw [exec_bind_ok (holds.exec_sRem nodeID),exec_bind_ok removed.exec_sCard]
  by_cases last : stored.erase nodeID = ∅
  · rw [last] at removed ⊢
    refine ⟨Function.update (put db key ∅) key none,rfl,holds_of_none ?_⟩
    exact Function.update_self ..
  · have remaining : ¬(stored.erase nodeID).card = 0 := mt Finset.card_eq_zero.mp last
    rw [if_neg remaining]
    exact ⟨_,rfl,removed⟩

theorem popNodeAndCountScript_onlyAt : OnlyAt key (popNodeAndCountScript key nodeID) := by
  refine existsKey_onlyAt.bind fun present => ?_
  split
  · exact .pure _
  · refine (sRem_onlyAt nodeID).bind fun _ => sCard_onlyAt.bind fun remaining => ?_
    split
    · exact del_onlyAt.bind fun _ => .pure _
    · exact .pure _

end Scripts

/-- The nodes of a run that have not been marked complete since its set was initialised. -/
def Running (db : Store) (runID : RunID) (nodes : Finset NodeID) : Prop :=
  Holds db (generateRunningNodeSetKey runID) (nodes.image toString)

/-- What the client makes of a countdown's report. -/
def answer : Option Nat → Except String Int
  | some remaining => .ok remaining
  | none => .error missingSet

theorem image_added {α β : Type} [DecidableEq α] [DecidableEq β] (f : α → β) (set : Finset α)
    (added : List α) : (set ∪ added.toFinset).image f = set.image f ∪ (added.map f).toFinset := by
  rw [Finset.image_union]
  congr 1
  ext image
  simp

section Calls

variable {α : Type} {failed : String} {script : Script Failure String String α} {a : α} {failure : Failure}
  {db db' : Store} {runID : RunID} {nodeID : NodeID} {nodes : Finset NodeID}

theorem exec_request_ok (done : exec script db = (.ok a,db')) :
    exec (request failed script) db = (.ok a,db') := by
  rw [request,exec_adapt,done]
  rfl

theorem running_of_missing (missing : db (generateRunningNodeSetKey runID) = none) : Running db runID ∅ :=
  holds_of_none missing

theorem addRunningNodes_running (running : Running db runID nodes) (nodeIDs : List NodeID) :
    ∃ db', exec (addRunningNodes runID nodeIDs) db = (.ok (),db') ∧
      Running db' runID (nodes ∪ nodeIDs.toFinset) := by
  rw [addRunningNodes,exec_bind_ok (exec_request_ok (running.exec_sAdd _))]
  refine ⟨_,rfl,?_⟩
  unfold Running
  rw [image_added]
  exact put_holds _ _ _

theorem expireRunningNodes_running (running : Running db runID nodes) :
    ∃ db', exec (expireRunningNodes runID) db = (.ok (),db') ∧ Running db' runID nodes := by
  obtain ⟨_,db',done,kept⟩ := @Holds.exec_expire String _ _ _ _ _ _ running runningNodeSetTTL
  rw [expireRunningNodes,exec_bind_ok done]
  exact ⟨db',rfl,kept⟩

/-- The members are read back as they were added. -/
theorem getRunningNodeIDs_running (running : Running db runID nodes) :
    exec (getRunningNodeIDs runID) db = (.ok nodes,db) := by
  have values : exec (sMembers (generateRunningNodeSetKey runID)) db = (.ok (nodes.image toString),db) :=
    congrArg (·,db) running
  have read : (nodes.image toString).biUnion (fun val => (parseInt32 val).elim ∅ fun id => {id}) = nodes := by
    rw [Finset.image_biUnion]
    simp only [parseInt32_toString,Option.elim_some]
    exact Finset.biUnion_singleton_eq_self
  rw [getRunningNodeIDs,exec_bind_ok (exec_request_ok values),exec_pure,read]

/-- The script counts the running nodes down. -/
theorem mark_running (running : Running db runID nodes) (nodeID : NodeID) :
    (exec (markNodeCompleteAndCountRemaining runID nodeID) db).1 =
        answer (Countdown.report nodes nodeID) ∧
      Running (exec (markNodeCompleteAndCountRemaining runID nodeID) db).2 runID (nodes.erase nodeID) := by
  by_cases finished : nodes = ∅
  · subst finished
    have missing : exec (popNodeAndCountScript (generateRunningNodeSetKey runID) (toString nodeID)) db =
      (.ok (-1),db) := popNodeAndCountScript_missing running
    rw [markNodeCompleteAndCountRemaining,exec_bind_ok (exec_request_ok missing)]
    exact ⟨rfl,running⟩
  · have filled : nodes.image (toString : NodeID → String) ≠ ∅ := mt Finset.image_eq_empty.mp finished
    obtain ⟨db',popped,left⟩ := popNodeAndCountScript_present running filled (toString nodeID)
    rw [← Finset.image_erase decimal_injective] at popped left
    rw [Finset.card_image_of_injective _ decimal_injective] at popped
    rw [markNodeCompleteAndCountRemaining,exec_bind_ok (exec_request_ok popped),
      if_neg (by omega),Countdown.report,if_neg finished]
    exact ⟨rfl,left⟩

end Calls

end TinyAutomator.RedisClient
