import TinyAutomator.Run.Infra
import TinyAutomator.Lib.Transition
import TinyAutomator.Lib.Pool

/-! One run as a transition system. A step is one external call of OrchestrateWorkflow
or of one ExecuteWorkflowNode goroutine, or something the broker or Redis does. The
label carries what the caller does not decide: who moves, and how the call ends. -/
namespace TinyAutomator.Run

/-- How an external call ends. A call that is `lost` took effect and reports an error. -/
inductive Outcome where
  | ok
  | fail
  | lost
  deriving DecidableEq, Repr

def Outcome.applied : Outcome → Bool
  | .fail => false
  | _ => true

def Outcome.reported : Outcome → Bool
  | .ok => true
  | _ => false

/-- Where a goroutine of Subscribe stands, named after the call it makes next. -/
inductive Pc where
  | getParents
  | getNodeRun
  | getNode (retryCount : Nat)
  | markRunning (retryCount : Nat)
  | publishRunning (retryCount : Nat)
  | startAction (retryCount : Nat)
  | inAction (retryCount : Nat)
  | updateStatus (retryCount : Nat) (err : Option String)
  | publishStatus (retryCount : Nat) (err : Option String)
  | completeFailed
  | getChildren
  | publishChildren (rest : List NodeID)
  | markComplete
  | getPending
  | acquireLock (pending : List NodeID)
  | addPending (pending : List NodeID)
  | getNodeRuns
  | completeRun (status : RunStatus)
  | failed
  | ack
  | nack
  | done
  deriving DecidableEq

structure Handler where
  msg : Message
  pc : Pc
  deriving DecidableEq

/-- Where OrchestrateWorkflow stands after CreateWorkflowRun returned. -/
inductive OrchestratorPc where
  | initSet
  | enqueueRoot (root : NodeID) (rest : List NodeID)
  | publishChildren (root : NodeID) (children rest : List NodeID)
  | publishStatus (root : NodeID) (rest : List NodeID)
  | publishRoot (root : NodeID) (rest : List NodeID)
  | returned
  | failed
  deriving DecidableEq

structure State where
  infra : Infra
  handlers : List Handler
  orchestrator : OrchestratorPc

inductive Label where
  | orchestrate (o : Outcome)
  | handle (i : Nat) (o : Outcome) (now : Int)
  | finish (i : Nat) (err : Option String)
  | deliver (m : Message)
  | mature (m : Message)
  | expireSet
  | expireLock
  | redeliver (m : Message)
  | crash (i : Nat)
  | crashOrchestrator
  deriving DecidableEq

/-- The broker gives up on a message after this many retries. -/
def maxRetries : Nat := 3

def call (x : Infra) (o : Outcome) (effect : Infra → Infra) (next err : Pc) : Infra × Pc :=
  (if o.applied then effect x else x,if o.reported then next else err)

/-- A call that only reads. -/
def query (x : Infra) (o : Outcome) (next : Pc) : Infra × Pc := call x o id next .failed

def publishing (rest : List NodeID) : Pc :=
  match rest with
  | [] => .markComplete
  | rest => .publishChildren rest

/-- One call of the goroutine that handles `m`: ExecuteWorkflowNode down to `completeRun`,
then what Subscribe and handleFailedMessage do with the result. -/
def Pc.next (g : WorkflowGraph) (x : Infra) (m : Message) (o : Outcome) (now : Int) :
    Pc → Option (Infra × Pc)
  | .getParents =>
    -- a parent that has not succeeded will publish this node again
    some (query x o (if x.parentsSucceeded g m.nodeID then .getNodeRun else .ack))
  | .getNodeRun =>
    let row := x.nodeRuns m.nodeID
    some (query x o (if row.retryCount = 3 ∨ row.status = .success then .getChildren
      else .getNode row.retryCount))
  | .getNode retryCount => some (query x o (.markRunning (retryCount + 1)))
  | .markRunning retryCount =>
    some (call x o (·.markWorkflowNodeAsRunning m.nodeID now retryCount)
      (.publishRunning retryCount) .failed)
  | .publishRunning retryCount =>
    some (call x o (·.publishNodeStatusUpdate m.nodeID .running)
      (.startAction retryCount) (.startAction retryCount))
  | .startAction retryCount => some (x.record (.started m.nodeID),.inAction retryCount)
  | .inAction _ => none
  | .updateStatus retryCount err =>
    some (call x o (·.updateWorkflowNodeRunStatus m.nodeID
        (if err.isSome then .failed else .success) err now)
      (.publishStatus retryCount err) .failed)
  | .publishStatus retryCount err =>
    let next := if err.isSome then (if retryCount = 3 then .completeFailed else .failed)
      else .getChildren
    some (call x o (·.publishNodeStatusUpdate m.nodeID (if err.isSome then .failed else .success))
      next next)
  | .completeFailed => some (call x o (·.completeWorkflowRun .failed now) .failed .failed)
  | .getChildren => some (query x o (publishing (x.pendingChildren g m.nodeID)))
  | .publishChildren [] => some (x,.markComplete)
  | .publishChildren (c :: rest) => some (call x o (·.publish c) (publishing rest) .failed)
  | .markComplete =>
    if x.runningSet = ∅ then some (x,.getPending)
    else some (call x o (·.markNodeComplete m.nodeID)
      (if x.runningSet.erase m.nodeID = ∅ then .getNodeRuns else .ack) .getPending)
  | .getPending =>
    let pending := x.pendingNodes g
    some (query x o (if pending = [] then .getNodeRuns else .acquireLock pending))
  | .acquireLock pending =>
    if x.finalizeLock then some (x,.ack)
    else some (call x o (·.acquireFinalizationLock) (.addPending pending) .ack)
  | .addPending pending => some (call x o (·.initializeRunningNodeSet pending) .ack .ack)
  | .getNodeRuns => some (query x o (.completeRun (x.finalStatus g)))
  | .completeRun status => some (call x o (·.completeWorkflowRun status now) .ack .failed)
  | .failed =>
    if maxRetries ≤ m.retryCount then
      some (if o.applied then x.deadLetter m else x.requeue m,.done)
    else some (call x o (·.publishRetry m) .ack .nack)
  | .ack => some (if o.applied then x else x.requeue m,.done)
  | .nack => some (if o.applied then x.deadLetter m else x.requeue m,.done)
  | .done => none

def nextRoot : List NodeID → OrchestratorPc
  | [] => .returned
  | root :: rest => .enqueueRoot root rest

def OrchestratorPc.call (x : Infra) (o : Outcome) (effect : Infra → Infra) (next err : OrchestratorPc) :
    Infra × OrchestratorPc :=
  (if o.applied then effect x else x,if o.reported then next else err)

/-- One call of OrchestrateWorkflow. Trigger roots enqueue their children, other roots
are enqueued themselves. -/
def OrchestratorPc.next (g : WorkflowGraph) (x : Infra) (o : Outcome) :
    OrchestratorPc → Option (Infra × OrchestratorPc)
  | .initSet =>
    let start := nextRoot ((getRootNodes g).map (·.id))
    some (call x o (·.initializeRunningNodeSet (nonRoots g)) start start)
  | .enqueueRoot root rest =>
    if isTrigger g root then
      some (call x o id (.publishChildren root (x.pendingChildren g root) rest) .failed)
    else if (x.nodeRuns root).status = .pending then some (call x o id (.publishRoot root rest) .failed)
    else some (call x o id (nextRoot rest) .failed)
  | .publishChildren root [] rest => some (x,.publishStatus root rest)
  | .publishChildren root (c :: children) rest =>
    some (call x o (·.publish c) (.publishChildren root children rest) .failed)
  | .publishStatus root rest =>
    some (call x o (·.publishNodeStatusUpdate root .success) (nextRoot rest) (nextRoot rest))
  | .publishRoot root rest => some (call x o (·.publish root) (nextRoot rest) .failed)
  | .returned => none
  | .failed => none

def setHandler (s : State) (i : Nat) (h : Handler) (x : Infra) (pc : Pc) : State :=
  {s with infra := x, handlers := s.handlers.set i {h with pc := pc}}

def step (g : WorkflowGraph) : Label → State → Option State
  | .orchestrate o, s =>
    match s.orchestrator.next g s.infra o with
    | some (x,pc) => some {s with infra := x, orchestrator := pc}
    | none => none
  | .handle i o now, s =>
    match s.handlers[i]? with
    | some h =>
      match h.pc.next g s.infra h.msg o now with
      | some (x,pc) => some (setHandler s i h x pc)
      | none => none
    | none => none
  | .finish i err, s =>
    match s.handlers[i]? with
    | some h =>
      match h.pc with
      | .inAction retryCount =>
        some (setHandler s i h (s.infra.record (.finished h.msg.nodeID err.isNone))
          (.updateStatus retryCount err))
      | _ => none
    | none => none
  | .deliver m, s =>
    if m ∈ s.infra.queue then
      some {s with
        infra := {s.infra with queue := s.infra.queue.erase m}
        handlers := s.handlers ++ [⟨m,.getParents⟩]}
    else none
  | .mature m, s =>
    if m ∈ s.infra.delayed then
      some {s with infra := {s.infra with
        delayed := s.infra.delayed.erase m, queue := s.infra.queue ++ [m]}}
    else none
  | .expireSet, s => some {s with infra := {s.infra with runningSet := ∅}}
  | .expireLock, s => some {s with infra := {s.infra with finalizeLock := false}}
  | .redeliver m, s =>
    if m ∈ s.infra.published then some {s with infra := s.infra.requeue m} else none
  | .crash i, s =>
    match s.handlers[i]? with
    | some h =>
      if h.pc = .done then none else some (setHandler s i h (s.infra.requeue h.msg) .done)
    | none => none
  | .crashOrchestrator, s => some {s with orchestrator := .failed}

/-- From the commit of CreateWorkflowRun on. -/
def system (g : WorkflowGraph) : Transition.System State Label where
  init := ⟨createWorkflowRun g,[],.initSet⟩
  step := step g

/-- No database, Redis or broker operation fails, no worker crashes, and the broker
delivers a message once. Keys may expire: that is no fault. -/
def Label.FaultFree : Label → Prop
  | .orchestrate o | .handle _ o _ => o = .ok
  | .redeliver _ | .crash _ | .crashOrchestrator => False
  | _ => True

instance : DecidablePred Label.FaultFree
  | .orchestrate o | .handle _ o _ => inferInstanceAs (Decidable (o = .ok))
  | .redeliver _ | .crash _ | .crashOrchestrator => inferInstanceAs (Decidable False)
  | .finish .. | .deliver _ | .mature _ | .expireSet | .expireLock => inferInstanceAs (Decidable True)

/-- Every label may be taken. -/
def anything : Transition.Guard State Label := fun _ _ => True

def faultFree : Transition.Guard State Label := fun _ label => label.FaultFree

instance : ∀ s label, Decidable (anything s label) := fun _ _ => inferInstanceAs (Decidable True)

instance : ∀ s label, Decidable (faultFree s label) :=
  fun _ label => inferInstanceAs (Decidable label.FaultFree)

end TinyAutomator.Run
