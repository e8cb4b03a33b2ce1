import TinyAutomator.Run.System

/-! Inversion of the step function: one constructor for each thing that a step of a
run, or a call of a goroutine that ends well, can do. Later proofs use these only. -/
namespace TinyAutomator.Run

open Transition

/-- What a step does, without the lookups that enable it. -/
inductive Step (g : WorkflowGraph) (s : State) : Label → State → Prop where
  | orchestrate {o : Outcome} {x : Infra} {pc : OrchestratorPc}
      (next : s.orchestrator.next g s.infra o = some (x,pc)) :
      Step g s (.orchestrate o) {s with infra := x, orchestrator := pc}
  | handle {i : Nat} {o : Outcome} {now : Int} {h : Handler} {x : Infra} {pc : Pc}
      (here : s.handlers[i]? = some h) (next : h.pc.next g s.infra h.msg o now = some (x,pc)) :
      Step g s (.handle i o now) (setHandler s i h x pc)
  | finish {i retryCount : Nat} {err : Option String} {h : Handler}
      (here : s.handlers[i]? = some h) (inside : h.pc = .inAction retryCount) :
      Step g s (.finish i err)
        (setHandler s i h (s.infra.record (.finished h.msg.nodeID err.isNone))
          (.updateStatus retryCount err))
  | deliver {m : Message} (queued : m ∈ s.infra.queue) :
      Step g s (.deliver m)
        {s with
          infra := {s.infra with queue := s.infra.queue.erase m}
          handlers := s.handlers ++ [⟨m,.getParents⟩]}
  | mature {m : Message} (waiting : m ∈ s.infra.delayed) :
      Step g s (.mature m)
        {s with infra := {s.infra with
          delayed := s.infra.delayed.erase m, queue := s.infra.queue ++ [m]}}
  | expireSet : Step g s .expireSet {s with infra := {s.infra with runningSet := ∅}}
  | expireLock : Step g s .expireLock {s with infra := {s.infra with finalizeLock := false}}
  | redeliver {m : Message} (known : m ∈ s.infra.published) :
      Step g s (.redeliver m) {s with infra := s.infra.requeue m}
  | crash {i : Nat} {h : Handler} (here : s.handlers[i]? = some h) (alive : h.pc ≠ .done) :
      Step g s (.crash i) (setHandler s i h (s.infra.requeue h.msg) .done)
  | crashOrchestrator : Step g s .crashOrchestrator {s with orchestrator := .failed}

theorem step_cases {g : WorkflowGraph} {s t : State} {label : Label}
    (step : (system g).step label s = some t) : Step g s label t := by
  simp only [system] at step
  cases label with
  | orchestrate o =>
    simp only [Run.step] at step
    split at step
    next x pc next => cases step; exact .orchestrate next
    next => contradiction
  | handle i o now =>
    simp only [Run.step] at step
    split at step
    next h here =>
      split at step
      next x pc next => cases step; exact .handle here next
      next => contradiction
    next => contradiction
  | finish i err =>
    simp only [Run.step] at step
    split at step
    next h here =>
      split at step
      next retryCount inside => cases step; exact .finish here inside
      next => contradiction
    next => contradiction
  | deliver m =>
    simp only [Run.step] at step
    split at step
    next queued => cases step; exact .deliver queued
    next => contradiction
  | mature m =>
    simp only [Run.step] at step
    split at step
    next waiting => cases step; exact .mature waiting
    next => contradiction
  | expireSet => cases step; exact .expireSet
  | expireLock => cases step; exact .expireLock
  | redeliver m =>
    simp only [Run.step] at step
    split at step
    next known => cases step; exact .redeliver known
    next => contradiction
  | crash i =>
    simp only [Run.step] at step
    split at step
    next h here =>
      split at step
      next => contradiction
      next alive => cases step; exact .crash here alive
    next => contradiction
  | crashOrchestrator => cases step; exact .crashOrchestrator

section Taken

variable {g : WorkflowGraph} {s : State} {x : Infra} {m : Message} {o : Outcome} {now : Int} {pc : Pc}
  {i : Nat} {h : Handler}

theorem handle_step (here : s.handlers[i]? = some h) (next : h.pc.next g s.infra h.msg o now = some (x,pc)) :
    (system g).step (.handle i o now) s = some (setHandler s i h x pc) := by
  simp only [system,step,here,next]

theorem finish_step {retryCount : Nat} (here : s.handlers[i]? = some h) (inside : h.pc = .inAction retryCount) :
    (system g).step (.finish i none) s = some (setHandler s i h
      (s.infra.record (.finished h.msg.nodeID true)) (.updateStatus retryCount none)) := by
  simp only [system,step,here,inside,Option.isNone_none]

theorem deliver_step {rest : List Message} (queue : s.infra.queue = m :: rest) :
    (system g).step (.deliver m) s = some {s with
      infra := {s.infra with queue := rest}, handlers := s.handlers ++ [⟨m,.getParents⟩]} := by
  simp [system,step,queue]

theorem mature_step {rest : List Message} (delayed : s.infra.delayed = m :: rest) :
    (system g).step (.mature m) s = some {s with
      infra := {s.infra with delayed := rest, queue := s.infra.queue ++ [m]}} := by
  simp [system,step,delayed]

end Taken

/-- The calls of a goroutine when nothing fails. -/
inductive Call (g : WorkflowGraph) (x : Infra) (m : Message) (now : Int) : Pc → Infra → Pc → Prop where
  | ready (all : ∀ p ∈ parents g m.nodeID, (x.nodeRuns p).status = .success) :
      Call g x m now .getParents x .getNodeRun
  | blocked {p : NodeID} (parent : p ∈ parents g m.nodeID) (behind : (x.nodeRuns p).status ≠ .success) :
      Call g x m now .getParents x .ack
  | skip (settled : (x.nodeRuns m.nodeID).retryCount = 3 ∨ (x.nodeRuns m.nodeID).status = .success) :
      Call g x m now .getNodeRun x .getChildren
  | attempt (left : (x.nodeRuns m.nodeID).retryCount ≠ 3)
      (unsuccessful : (x.nodeRuns m.nodeID).status ≠ .success) :
      Call g x m now .getNodeRun x (.getNode (x.nodeRuns m.nodeID).retryCount)
  | getNode {r : Nat} : Call g x m now (.getNode r) x (.markRunning (r + 1))
  | markRunning {r : Nat} :
      Call g x m now (.markRunning r) (x.markWorkflowNodeAsRunning m.nodeID now r) (.publishRunning r)
  | publishRunning {r : Nat} :
      Call g x m now (.publishRunning r) (x.publishNodeStatusUpdate m.nodeID .running) (.startAction r)
  | startAction {r : Nat} :
      Call g x m now (.startAction r) (x.record (.started m.nodeID)) (.inAction r)
  | succeed {r : Nat} :
      Call g x m now (.updateStatus r none)
        (x.updateWorkflowNodeRunStatus m.nodeID .success none now) (.publishStatus r none)
  | fail {r : Nat} {err : String} :
      Call g x m now (.updateStatus r (some err))
        (x.updateWorkflowNodeRunStatus m.nodeID .failed (some err) now) (.publishStatus r (some err))
  | publishSuccess {r : Nat} :
      Call g x m now (.publishStatus r none) (x.publishNodeStatusUpdate m.nodeID .success) .getChildren
  | publishFailure {r : Nat} {err : String} (left : r ≠ 3) :
      Call g x m now (.publishStatus r (some err)) (x.publishNodeStatusUpdate m.nodeID .failed) .failed
  | exhausted {err : String} :
      Call g x m now (.publishStatus 3 (some err)) (x.publishNodeStatusUpdate m.nodeID .failed)
        .completeFailed
  | completeFailed : Call g x m now .completeFailed (x.completeWorkflowRun .failed now) .failed
  | getChildren : Call g x m now .getChildren x (publishing (x.pendingChildren g m.nodeID))
  | publishedAll : Call g x m now (.publishChildren []) x .markComplete
  | publishChild {c : NodeID} {rest : List NodeID} :
      Call g x m now (.publishChildren (c :: rest)) (x.publish c) (publishing rest)
  | setMissing (missing : x.runningSet = ∅) : Call g x m now .markComplete x .getPending
  | markLast (present : x.runningSet ≠ ∅) (last : x.runningSet.erase m.nodeID = ∅) :
      Call g x m now .markComplete (x.markNodeComplete m.nodeID) .getNodeRuns
  | markOne (present : x.runningSet ≠ ∅) (more : x.runningSet.erase m.nodeID ≠ ∅) :
      Call g x m now .markComplete (x.markNodeComplete m.nodeID) .ack
  | nonePending (none : x.pendingNodes g = []) : Call g x m now .getPending x .getNodeRuns
  | somePending (some : x.pendingNodes g ≠ []) :
      Call g x m now .getPending x (.acquireLock (x.pendingNodes g))
  | lockHeld {pending : List NodeID} (held : x.finalizeLock = true) :
      Call g x m now (.acquireLock pending) x .ack
  | lock {pending : List NodeID} (free : x.finalizeLock = false) :
      Call g x m now (.acquireLock pending) x.acquireFinalizationLock (.addPending pending)
  | addPending {pending : List NodeID} :
      Call g x m now (.addPending pending) (x.initializeRunningNodeSet pending) .ack
  | getNodeRuns : Call g x m now .getNodeRuns x (.completeRun (x.finalStatus g))
  | completeRun {status : RunStatus} :
      Call g x m now (.completeRun status) (x.completeWorkflowRun status now) .ack
  | giveUp (retried : maxRetries ≤ m.retryCount) : Call g x m now .failed (x.deadLetter m) .done
  | retry (left : m.retryCount < maxRetries) : Call g x m now .failed (x.publishRetry m) .ack
  | ack : Call g x m now .ack x .done
  | nack : Call g x m now .nack (x.deadLetter m) .done

theorem parentsSucceeded_iff {g : WorkflowGraph} {x : Infra} {n : NodeID} :
    x.parentsSucceeded g n = true ↔ ∀ p ∈ parents g n, (x.nodeRuns p).status = .success := by
  simp [Infra.parentsSucceeded]

theorem call_cases {g : WorkflowGraph} {x y : Infra} {m : Message} {now : Int} {pc pc' : Pc}
    (next : pc.next g x m .ok now = some (y,pc')) : Call g x m now pc y pc' := by
  cases pc with
  | getParents =>
    simp only [Pc.next,query,call,Outcome.applied,Outcome.reported,id,ite_self,if_true,
      Option.some.injEq,Prod.mk.injEq] at next
    obtain ⟨rfl,rfl⟩ := next
    split
    next all => exact .ready (parentsSucceeded_iff.mp all)
    next some =>
      obtain ⟨p,parent,behind⟩ : ∃ p ∈ parents g m.nodeID, (x.nodeRuns p).status ≠ .success := by
        by_contra none
        push Not at none
        exact some (parentsSucceeded_iff.mpr none)
      exact .blocked parent behind
  | getNodeRun =>
    simp only [Pc.next,query,call,Outcome.applied,Outcome.reported,id,ite_self,if_true,
      Option.some.injEq,Prod.mk.injEq] at next
    obtain ⟨rfl,rfl⟩ := next
    split
    next settled => exact .skip settled
    next unsettled => exact .attempt (fun h => unsettled (.inl h)) fun h => unsettled (.inr h)
  | inAction r => simp [Pc.next] at next
  | done => simp [Pc.next] at next
  | startAction r => cases next; exact .startAction
  | updateStatus r err =>
    cases err with
    | none => cases next; exact .succeed
    | some err => cases next; exact .fail
  | publishStatus r err =>
    cases err with
    | none => cases next; exact .publishSuccess
    | some err =>
      simp only [Pc.next,call,Outcome.applied,Outcome.reported,Option.isSome_some,if_true,
        Option.some.injEq,Prod.mk.injEq] at next
      obtain ⟨rfl,rfl⟩ := next
      split
      next last => subst last; exact .exhausted
      next left => exact .publishFailure left
  | publishChildren rest =>
    cases rest with
    | nil => cases next; exact .publishedAll
    | cons c rest => cases next; exact .publishChild
  | markComplete =>
    simp only [Pc.next,call,Outcome.applied,Outcome.reported,if_true] at next
    split at next
    next missing => cases next; exact .setMissing missing
    next present =>
      simp only [Option.some.injEq,Prod.mk.injEq] at next
      obtain ⟨rfl,rfl⟩ := next
      split
      next last => exact .markLast present last
      next more => exact .markOne present more
  | getPending =>
    simp only [Pc.next,query,call,Outcome.applied,Outcome.reported,id,ite_self,if_true,
      Option.some.injEq,Prod.mk.injEq] at next
    obtain ⟨rfl,rfl⟩ := next
    split
    next none => exact .nonePending none
    next some => exact .somePending some
  | acquireLock pending =>
    simp only [Pc.next,call,Outcome.applied,Outcome.reported,if_true] at next
    split at next
    next held => cases next; exact .lockHeld held
    next free => cases next; exact .lock (by simpa using free)
  | failed =>
    simp only [Pc.next,call,Outcome.applied,Outcome.reported,if_true] at next
    split at next
    next retried => cases next; exact .giveUp retried
    next left => cases next; exact .retry (by omega)
  | getNode r => cases next; exact .getNode
  | markRunning r => cases next; exact .markRunning
  | publishRunning r => cases next; exact .publishRunning
  | completeFailed => cases next; exact .completeFailed
  | getChildren => cases next; exact .getChildren
  | addPending pending => cases next; exact .addPending
  | getNodeRuns => cases next; exact .getNodeRuns
  | completeRun status => cases next; exact .completeRun
  | ack => cases next; exact .ack
  | nack => cases next; exact .nack

/-- A call writes at most the row of its own node, never back to 'pending', and it writes
'success' only after the action returned. -/
theorem Call.rows {g : WorkflowGraph} {x y : Infra} {m : Message} {now : Int} {pc pc' : Pc}
    (call : Call g x m now pc y pc') :
    y.nodeRuns = x.nodeRuns ∨
    ∃ row : NodeRun, y.nodeRuns = (x.setNodeRun m.nodeID row).nodeRuns ∧ row.status ≠ .pending ∧
      (row.status = .success → ∃ r, pc = .updateStatus r none ∧ pc' = .publishStatus r none) := by
  cases call with
  | markRunning => exact .inr ⟨_,rfl,by simp,by simp⟩
  | @succeed r => exact .inr ⟨_,rfl,by simp,fun _ => ⟨r,rfl,rfl⟩⟩
  | fail => exact .inr ⟨_,rfl,by simp,by simp⟩
  | _ => exact .inl rfl

theorem Call.pending {g : WorkflowGraph} {x y : Infra} {m : Message} {now : Int} {pc pc' : Pc} {n : NodeID}
    (call : Call g x m now pc y pc') (pending : (y.nodeRuns n).status = .pending) :
    y.nodeRuns n = x.nodeRuns n := by
  rcases call.rows with same | ⟨row,wrote,begun,_⟩
  · rw [same]
  · rw [wrote] at pending ⊢
    by_cases own : n = m.nodeID
    · subst own
      rw [x.setNodeRun_self] at pending
      exact absurd pending begun
    · exact x.setNodeRun_other own

/-- Only a goroutine that has decided completes the run. -/
theorem Call.run {g : WorkflowGraph} {x y : Infra} {m : Message} {now : Int} {pc pc' : Pc}
    (call : Call g x m now pc y pc') :
    y.run = x.run ∨
    (∃ status, pc = .completeRun status ∧ y.run = ⟨status,some now⟩) ∨
    (pc = .completeFailed ∧ y.run = ⟨.failed,some now⟩) := by
  cases call with
  | @completeRun status => exact .inr (.inl ⟨status,rfl,rfl⟩)
  | completeFailed => exact .inr (.inr ⟨rfl,rfl⟩)
  | _ => exact .inl rfl

/-- Agreement on everything but Redis and the broker. -/
structure Infra.Same (x y : Infra) : Prop where
  run : x.run = y.run
  nodeRuns : x.nodeRuns = y.nodeRuns
  history : x.history = y.history

theorem Infra.Same.refl (x : Infra) : x.Same x := ⟨rfl,rfl,rfl⟩

/-- Where a goroutine can only be on its way out, or asking for the pending nodes. -/
def Pc.Leaving : Pc → Prop
  | .failed | .ack | .nack | .done | .getPending => True
  | _ => False

theorem next_alive {pc : Pc} (g : WorkflowGraph) (x : Infra) (m : Message) (now : Int)
    (away : ∀ r, pc ≠ .inAction r) (alive : pc ≠ .done) : ∃ y pc', pc.next g x m .ok now = some (y,pc') := by
  cases pc with
  | inAction r => exact absurd rfl (away r)
  | done => exact absurd rfl alive
  | publishChildren rest => cases rest <;> exact ⟨_,_,rfl⟩
  | markComplete => simp only [Pc.next]; split <;> exact ⟨_,_,rfl⟩
  | acquireLock pending => simp only [Pc.next]; split <;> exact ⟨_,_,rfl⟩
  | failed => simp only [Pc.next]; split <;> exact ⟨_,_,rfl⟩
  | _ => exact ⟨_,_,rfl⟩

theorem next_ok {g : WorkflowGraph} {x y : Infra} {m : Message} {o : Outcome} {now : Int}
    {pc pc' : Pc} (next : pc.next g x m o now = some (y,pc')) :
    ∃ z pcz, pc.next g x m .ok now = some (z,pcz) := by
  apply next_alive g x m now
  · rintro r rfl
    simp [Pc.next] at next
  · rintro rfl
    simp [Pc.next] at next

/-- How a call that may fail compares with the call that ends well: it has its effect or
none, and goes on as that one does, or leaves. -/
theorem next_outcome {g : WorkflowGraph} {x y : Infra} {m : Message} {o : Outcome} {now : Int}
    {pc pc' : Pc} (next : pc.next g x m o now = some (y,pc')) :
    ∃ z pcz, Call g x m now pc z pcz ∧ (y = x ∨ y = z ∨ y = x.requeue m) ∧
      (y.Same z ∧ pc' = pcz ∨ pc'.Leaving) := by
  obtain ⟨z,pcz,success⟩ := next_ok next
  refine ⟨z,pcz,call_cases success,?_⟩
  cases o with
  | ok =>
    rw [success] at next
    cases next
    exact ⟨.inr (.inl rfl),.inl ⟨.refl _,rfl⟩⟩
  | fail | lost =>
    cases pc with
    | inAction r => simp [Pc.next] at next
    | done => simp [Pc.next] at next
    | publishRunning r | startAction r | publishStatus r err | addPending pending | ack | nack =>
      cases next; cases success
      exact ⟨by simp [Outcome.applied],.inl ⟨⟨rfl,rfl,rfl⟩,rfl⟩⟩
    | publishChildren rest =>
      cases rest with
      | nil => cases next; cases success; exact ⟨.inl rfl,.inl ⟨.refl _,rfl⟩⟩
      | cons c rest => cases next; cases success; exact ⟨by simp [Outcome.applied],.inr trivial⟩
    | markComplete =>
      simp only [Pc.next] at next success
      split at next
      next missing => cases next; exact ⟨.inl rfl,.inr trivial⟩
      next present =>
        rw [if_neg present] at success
        cases next; cases success
        exact ⟨by simp [Outcome.applied],.inr trivial⟩
    | acquireLock pending =>
      simp only [Pc.next] at next success
      split at next
      next held => cases next; exact ⟨.inl rfl,.inr trivial⟩
      next free =>
        rw [if_neg free] at success
        cases next; cases success
        exact ⟨by simp [Outcome.applied],.inr trivial⟩
    | failed =>
      simp only [Pc.next] at next success
      split at next
      next retried =>
        rw [if_pos retried] at success
        cases next; cases success
        exact ⟨by simp [Outcome.applied],.inr trivial⟩
      next left =>
        rw [if_neg left] at success
        cases next; cases success
        exact ⟨by simp [Outcome.applied],.inr trivial⟩
    | _ =>
      cases next; cases success
      exact ⟨by simp [Outcome.applied],.inr trivial⟩

/-- As the node runs see it: what the successful call does, or the goroutine leaves with
or without the effect. -/
theorem next_cases {g : WorkflowGraph} {x y : Infra} {m : Message} {o : Outcome} {now : Int}
    {pc pc' : Pc} (next : pc.next g x m o now = some (y,pc')) :
    ∃ z pcz, Call g x m now pc z pcz ∧
      ((y.Same z ∧ pc' = pcz) ∨ (pc'.Leaving ∧ (y.Same x ∨ y.Same z))) := by
  obtain ⟨z,pcz,call,effect,goes⟩ := next_outcome next
  refine ⟨z,pcz,call,goes.imp_right fun leaving => ⟨leaving,?_⟩⟩
  rcases effect with rfl | rfl | rfl
  · exact .inl (.refl _)
  · exact .inr (.refl _)
  · exact .inl ⟨rfl,rfl,rfl⟩

/-- The whole effect of a call that may fail: none, or that of the successful call. -/
theorem next_effect {g : WorkflowGraph} {x y : Infra} {m : Message} {o : Outcome} {now : Int}
    {pc pc' : Pc} (next : pc.next g x m o now = some (y,pc')) :
    y.Same x ∨ ∃ z pcz, Call g x m now pc z pcz ∧ y.Same z := by
  obtain ⟨z,pcz,call,⟨same,_⟩ | ⟨_,same | same⟩⟩ := next_cases next
  · exact .inr ⟨z,pcz,call,same⟩
  · exact .inl same
  · exact .inr ⟨z,pcz,call,same⟩

/-- The calls of OrchestrateWorkflow when nothing fails. -/
inductive Orchestration (g : WorkflowGraph) (x : Infra) :
    OrchestratorPc → Infra → OrchestratorPc → Prop where
  | initSet :
      Orchestration g x .initSet (x.initializeRunningNodeSet (nonRoots g))
        (nextRoot ((getRootNodes g).map (·.id)))
  | trigger {root : NodeID} {rest : List NodeID} (is : isTrigger g root = true) :
      Orchestration g x (.enqueueRoot root rest) x
        (.publishChildren root (x.pendingChildren g root) rest)
  | action {root : NodeID} {rest : List NodeID} (is : isTrigger g root = false)
      (pending : (x.nodeRuns root).status = .pending) :
      Orchestration g x (.enqueueRoot root rest) x (.publishRoot root rest)
  | inProgress {root : NodeID} {rest : List NodeID} (is : isTrigger g root = false)
      (begun : (x.nodeRuns root).status ≠ .pending) :
      Orchestration g x (.enqueueRoot root rest) x (nextRoot rest)
  | publishedAll {root : NodeID} {rest : List NodeID} :
      Orchestration g x (.publishChildren root [] rest) x (.publishStatus root rest)
  | publishChild {root c : NodeID} {children rest : List NodeID} :
      Orchestration g x (.publishChildren root (c :: children) rest) (x.publish c)
        (.publishChildren root children rest)
  | publishStatus {root : NodeID} {rest : List NodeID} :
      Orchestration g x (.publishStatus root rest) (x.publishNodeStatusUpdate root .success)
        (nextRoot rest)
  | publishRoot {root : NodeID} {rest : List NodeID} :
      Orchestration g x (.publishRoot root rest) (x.publish root) (nextRoot rest)

theorem orchestration_cases {g : WorkflowGraph} {x y : Infra} {pc pc' : OrchestratorPc}
    (next : pc.next g x .ok = some (y,pc')) : Orchestration g x pc y pc' := by
  cases pc with
  | initSet => cases next; exact .initSet
  | enqueueRoot root rest =>
    simp only [OrchestratorPc.next] at next
    split at next
    next is => cases next; exact .trigger is
    next is =>
      split at next
      next pending => cases next; exact .action (by simpa using is) pending
      next begun => cases next; exact .inProgress (by simpa using is) begun
  | publishChildren root children rest =>
    cases children with
    | nil => cases next; exact .publishedAll
    | cons c children => cases next; exact .publishChild
  | publishStatus root rest => cases next; exact .publishStatus
  | publishRoot root rest => cases next; exact .publishRoot
  | returned => simp [OrchestratorPc.next] at next
  | failed => simp [OrchestratorPc.next] at next

theorem Orchestration.same {g : WorkflowGraph} {x y : Infra} {pc pc' : OrchestratorPc}
    (orchestration : Orchestration g x pc y pc') : y.Same x := by
  cases orchestration <;> exact ⟨rfl,rfl,rfl⟩

theorem nextRoot_ne_initSet {rest : List NodeID} : nextRoot rest ≠ .initSet := by
  cases rest <;> simp [nextRoot]

theorem Orchestration.started {g : WorkflowGraph} {x y : Infra} {pc pc' : OrchestratorPc}
    (orchestration : Orchestration g x pc y pc') : pc' ≠ .initSet := by
  cases orchestration with
  | initSet | inProgress | publishStatus | publishRoot => exact nextRoot_ne_initSet
  | _ => simp

theorem Orchestration.set {g : WorkflowGraph} {x y : Infra} {pc pc' : OrchestratorPc}
    (orchestration : Orchestration g x pc y pc') (started : pc ≠ .initSet) :
    y.runningSet = x.runningSet := by
  cases orchestration with
  | initSet => exact absurd rfl started
  | _ => rfl

/-- OrchestrateWorkflow goes on, or it fails, with the effect of its call or without. -/
theorem orchestrate_outcome {g : WorkflowGraph} {x y : Infra} {o : Outcome} {q q' : OrchestratorPc}
    (next : q.next g x o = some (y,q')) :
    ∃ z qz, Orchestration g x q z qz ∧ (y = x ∨ y = z) ∧ (q' = qz ∨ q' = .failed) := by
  have total : ∃ z qz, q.next g x .ok = some (z,qz) := by
    cases q with
    | enqueueRoot root rest =>
      simp only [OrchestratorPc.next]
      split
      next => exact ⟨_,_,rfl⟩
      next => split <;> exact ⟨_,_,rfl⟩
    | publishChildren root children rest => cases children <;> exact ⟨_,_,rfl⟩
    | returned => simp [OrchestratorPc.next] at next
    | failed => simp [OrchestratorPc.next] at next
    | _ => exact ⟨_,_,rfl⟩
  obtain ⟨z,qz,success⟩ := total
  refine ⟨z,qz,orchestration_cases success,?_⟩
  cases o with
  | ok =>
    rw [success] at next
    cases next
    exact ⟨.inr rfl,.inl rfl⟩
  | fail | lost =>
    cases q with
    | enqueueRoot root rest =>
      simp only [OrchestratorPc.next] at next
      split at next
      next => cases next; exact ⟨.inl rfl,.inr rfl⟩
      next => split at next <;> cases next <;> exact ⟨.inl rfl,.inr rfl⟩
    | publishChildren root children rest =>
      cases children with
      | nil => cases next; cases success; exact ⟨.inl rfl,.inl rfl⟩
      | cons c children => cases next; cases success; exact ⟨by simp [Outcome.applied],.inr rfl⟩
    | publishRoot root rest => cases next; cases success; exact ⟨by simp [Outcome.applied],.inr rfl⟩
    | returned => simp [OrchestratorPc.next] at next
    | failed => simp [OrchestratorPc.next] at next
    | _ => cases next; cases success; exact ⟨by simp [Outcome.applied],.inl rfl⟩

/-- OrchestrateWorkflow touches neither the node runs nor the run. -/
theorem orchestrate_same {g : WorkflowGraph} {x y : Infra} {o : Outcome} {pc pc' : OrchestratorPc}
    (next : pc.next g x o = some (y,pc')) : y.Same x := by
  obtain ⟨z,pcz,orchestration,rfl | rfl,_⟩ := orchestrate_outcome next
  · exact .refl _
  · exact orchestration.same

/-- A step as the node runs see it: a call of a goroutine, the return of an action, or
something that leaves them alone and only adds new goroutines or ends some. -/
inductive Move (g : WorkflowGraph) (s : State) : Label → State → Prop where
  | call {i : Nat} {o : Outcome} {now : Int} {h : Handler} {x : Infra} {pc : Pc}
      (here : s.handlers[i]? = some h) (next : h.pc.next g s.infra h.msg o now = some (x,pc)) :
      Move g s (.handle i o now) (setHandler s i h x pc)
  | finish {i retryCount : Nat} {err : Option String} {h : Handler}
      (here : s.handlers[i]? = some h) (inside : h.pc = .inAction retryCount) :
      Move g s (.finish i err)
        (setHandler s i h (s.infra.record (.finished h.msg.nodeID err.isNone))
          (.updateStatus retryCount err))
  | quiet {label : Label} {t : State} (same : t.infra.Same s.infra)
      (handlers : ∀ h ∈ t.handlers, h ∈ s.handlers ∨ h.pc = .getParents ∨ h.pc = .done) :
      Move g s label t

theorem step_moves {g : WorkflowGraph} {s t : State} {label : Label}
    (step : (system g).step label s = some t) : Move g s label t := by
  have kept : ∀ h ∈ s.handlers, h ∈ s.handlers ∨ h.pc = .getParents ∨ h.pc = .done :=
    fun h member => .inl member
  cases step_cases step with
  | orchestrate next => exact .quiet (orchestrate_same next) kept
  | handle here next => exact .call here next
  | finish here inside => exact .finish here inside
  | deliver queued => exact .quiet ⟨rfl,rfl,rfl⟩ (Pool.forall_append kept (.inr (.inl rfl)))
  | mature waiting => exact .quiet ⟨rfl,rfl,rfl⟩ kept
  | expireSet => exact .quiet ⟨rfl,rfl,rfl⟩ kept
  | expireLock => exact .quiet ⟨rfl,rfl,rfl⟩ kept
  | redeliver known => exact .quiet ⟨rfl,rfl,rfl⟩ kept
  | crash here alive => exact .quiet ⟨rfl,rfl,rfl⟩ (Pool.forall_set kept (.inr (.inr rfl)))
  | crashOrchestrator => exact .quiet ⟨rfl,rfl,rfl⟩ kept

/-- A step of a run in which nothing fails. -/
inductive Faultless (g : WorkflowGraph) (s : State) : Label → State → Prop where
  | call {i : Nat} {now : Int} {h : Handler} {x : Infra} {pc : Pc}
      (here : s.handlers[i]? = some h) (call : Call g s.infra h.msg now h.pc x pc) :
      Faultless g s (.handle i .ok now) (setHandler s i h x pc)
  | finish {i retryCount : Nat} {err : Option String} {h : Handler}
      (here : s.handlers[i]? = some h) (inside : h.pc = .inAction retryCount) :
      Faultless g s (.finish i err)
        (setHandler s i h (s.infra.record (.finished h.msg.nodeID err.isNone))
          (.updateStatus retryCount err))
  | orchestrate {x : Infra} {pc : OrchestratorPc}
      (orchestration : Orchestration g s.infra s.orchestrator x pc) :
      Faultless g s (.orchestrate .ok) {s with infra := x, orchestrator := pc}
  | deliver {m : Message} (queued : m ∈ s.infra.queue) :
      Faultless g s (.deliver m)
        {s with
          infra := {s.infra with queue := s.infra.queue.erase m}
          handlers := s.handlers ++ [⟨m,.getParents⟩]}
  | mature {m : Message} (waiting : m ∈ s.infra.delayed) :
      Faultless g s (.mature m)
        {s with infra := {s.infra with
          delayed := s.infra.delayed.erase m, queue := s.infra.queue ++ [m]}}
  | expireSet : Faultless g s .expireSet {s with infra := {s.infra with runningSet := ∅}}
  | expireLock : Faultless g s .expireLock {s with infra := {s.infra with finalizeLock := false}}

theorem faultless_cases {g : WorkflowGraph} {s t : State} {label : Label} (fine : label.FaultFree)
    (step : (system g).step label s = some t) : Faultless g s label t := by
  cases step_cases step with
  | orchestrate next => cases fine; exact .orchestrate (orchestration_cases next)
  | handle here next => cases fine; exact .call here (call_cases next)
  | finish here inside => exact .finish here inside
  | deliver queued => exact .deliver queued
  | mature waiting => exact .mature waiting
  | expireSet => exact .expireSet
  | expireLock => exact .expireLock
  | redeliver known => exact absurd fine id
  | crash here alive => exact absurd fine id
  | crashOrchestrator => exact absurd fine id

theorem step_pending {g : WorkflowGraph} {s t : State} {label : Label} {n : NodeID}
    (step : (system g).step label s = some t) (pending : (t.infra.nodeRuns n).status = .pending) :
    t.infra.nodeRuns n = s.infra.nodeRuns n := by
  cases step_moves step with
  | @call i o now h x pc here next =>
    have pending : (x.nodeRuns n).status = .pending := pending
    show x.nodeRuns n = s.infra.nodeRuns n
    rcases next_effect next with same | ⟨z,_,call,same⟩
    · rw [same.nodeRuns]
    · rw [same.nodeRuns] at pending ⊢
      exact call.pending pending
  | finish here inside => rfl
  | quiet same handlers => rw [same.nodeRuns]

/-- An attempt is counted when the row says 'running', so a pending node has had none. -/
def Infra.Fresh (x : Infra) : Prop :=
  ∀ n, (x.nodeRuns n).status = .pending → (x.nodeRuns n).retryCount = 0

theorem reach_fresh {g : WorkflowGraph} {s : State} (reach : Reach (system g) anything s) :
    s.infra.Fresh := by
  refine Reach.invariant (fun s => s.infra.Fresh) ?_ ?_ reach
  · intro n _
    rfl
  · intro s label t _ fresh _ step n pending
    have row := step_pending step pending
    rw [row] at pending ⊢
    exact fresh n pending

theorem Call.published {g : WorkflowGraph} {x y : Infra} {m k : Message} {now : Int} {pc pc' : Pc}
    (call : Call g x m now pc y pc') (known : k ∈ x.published) : k ∈ y.published := by
  cases call with
  | publishChild | retry => exact List.mem_append_left _ known
  | _ => exact known

theorem Orchestration.published {g : WorkflowGraph} {x y : Infra} {k : Message} {q q' : OrchestratorPc}
    (orchestration : Orchestration g x q y q') (known : k ∈ x.published) : k ∈ y.published := by
  cases orchestration with
  | publishChild | publishRoot => exact List.mem_append_left _ known
  | _ => exact known

theorem step_published {g : WorkflowGraph} {s t : State} {label : Label} {k : Message}
    (step : (system g).step label s = some t) (known : k ∈ s.infra.published) : k ∈ t.infra.published := by
  cases step_cases step with
  | orchestrate next =>
    obtain ⟨z,qz,orchestration,rfl | rfl,_⟩ := orchestrate_outcome next
    · exact known
    · exact orchestration.published known
  | handle here next =>
    obtain ⟨z,pcz,call,rfl | rfl | rfl,_⟩ := next_outcome next
    · exact known
    · exact call.published known
    · exact known
  | _ => exact known

end TinyAutomator.Run
