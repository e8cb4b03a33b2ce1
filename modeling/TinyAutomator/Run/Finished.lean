import TinyAutomator.Run.Overlap
import Mathlib.Data.List.Basic

/-! A finished run. CompleteWorkflowRun overwrites whatever is there and the executor
never asks whether the run is over, so a run stays finished only when nothing is left
that could start an action or finish the run again. -/
namespace TinyAutomator.Run

open Transition

def State.Finished (s : State) : Prop :=
  s.infra.run.status = .success ∨ s.infra.run.status = .failed

instance : DecidablePred State.Finished := fun s =>
  inferInstanceAs (Decidable (s.infra.run.status = .success ∨ s.infra.run.status = .failed))

/-- Past everything that could start, publish or finish. -/
def Pc.Resting : Pc → Prop
  | .ack | .nack | .done | .acquireLock _ | .addPending _ => True
  | _ => False

instance : DecidablePred Pc.Resting
  | .ack | .nack | .done | .acquireLock _ | .addPending _ => inferInstanceAs (Decidable True)
  | .getParents | .getNodeRun | .getNode _ | .markRunning _ | .publishRunning _ | .startAction _
  | .inAction _ | .updateStatus _ _ | .publishStatus _ _ | .completeFailed | .getChildren
  | .publishChildren _ | .markComplete | .getPending | .getNodeRuns | .completeRun _
  | .failed => inferInstanceAs (Decidable False)

/-- Resting, or about to ask whether any node is left. -/
def Pc.Counting : Pc → Prop
  | .markComplete | .getPending => True
  | pc => pc.Resting

instance : DecidablePred Pc.Counting
  | .markComplete | .getPending | .ack | .nack | .done | .acquireLock _ | .addPending _ =>
    inferInstanceAs (Decidable True)
  | .getParents | .getNodeRun | .getNode _ | .markRunning _ | .publishRunning _ | .startAction _
  | .inAction _ | .updateStatus _ _ | .publishStatus _ _ | .completeFailed | .getChildren
  | .publishChildren _ | .getNodeRuns | .completeRun _ | .failed => inferInstanceAs (Decidable False)

def OrchestratorPc.Resting : OrchestratorPc → Prop
  | .returned | .failed | .publishStatus _ [] | .publishChildren _ [] [] => True
  | _ => False

instance : DecidablePred OrchestratorPc.Resting
  | .returned | .failed | .publishStatus _ [] | .publishChildren _ [] [] =>
    inferInstanceAs (Decidable True)
  | .publishStatus _ (_ :: _) | .publishChildren _ (_ :: _) _ | .publishChildren _ [] (_ :: _)
  | .initSet | .enqueueRoot _ _ | .publishRoot _ _ => inferInstanceAs (Decidable False)

/-- OrchestrateWorkflow publishes nothing more and no message is left. -/
def State.Drained (s : State) : Prop :=
  s.orchestrator.Resting ∧ s.infra.queue = [] ∧ s.infra.delayed = []

instance : DecidablePred State.Drained := fun s =>
  inferInstanceAs (Decidable (s.orchestrator.Resting ∧ s.infra.queue = [] ∧ s.infra.delayed = []))

/-- The node has used up its attempts, and a node below some other one still waits. -/
def Infra.Stuck (x : Infra) (g : WorkflowGraph) (n : NodeID) : Prop :=
  x.Exhausted n ∧ ∃ c ∈ nonRoots g, (x.nodeRuns c).status = .pending

instance (x : Infra) (g : WorkflowGraph) : DecidablePred (x.Stuck g) := fun n =>
  inferInstanceAs (Decidable (x.Exhausted n ∧ ∃ c ∈ nonRoots g, (x.nodeRuns c).status = .pending))

/-- A goroutine that finishes the run is the last one that could do anything; when it
does so because its node used up its attempts, a waiting node keeps the others from
finishing the run again. -/
def Handler.FinishesLast (g : WorkflowGraph) (s : State) (i : Nat) (h : Handler) : Prop :=
  match h.pc with
  | .completeRun _ => s.Drained ∧ ∀ k ∈ s.handlers.eraseIdx i, k.pc.Resting
  | .completeFailed => s.Drained ∧ (∀ k ∈ s.handlers.eraseIdx i, k.pc.Counting) ∧
      s.infra.Stuck g h.msg.nodeID
  | _ => True

instance (g : WorkflowGraph) (s : State) (i : Nat) : DecidablePred (Handler.FinishesLast g s i)
  | ⟨_,.completeRun _⟩ => inferInstanceAs (Decidable (s.Drained ∧ ∀ k ∈ s.handlers.eraseIdx i, k.pc.Resting))
  | ⟨m,.completeFailed⟩ => inferInstanceAs (Decidable (s.Drained ∧
      (∀ k ∈ s.handlers.eraseIdx i, k.pc.Counting) ∧ s.infra.Stuck g m.nodeID))
  | ⟨_,.getParents⟩ | ⟨_,.getNodeRun⟩ | ⟨_,.getNode _⟩ | ⟨_,.markRunning _⟩ | ⟨_,.publishRunning _⟩
  | ⟨_,.startAction _⟩ | ⟨_,.inAction _⟩ | ⟨_,.updateStatus _ _⟩ | ⟨_,.publishStatus _ _⟩
  | ⟨_,.getChildren⟩ | ⟨_,.publishChildren _⟩ | ⟨_,.markComplete⟩ | ⟨_,.getPending⟩
  | ⟨_,.acquireLock _⟩ | ⟨_,.addPending _⟩ | ⟨_,.getNodeRuns⟩ | ⟨_,.failed⟩ | ⟨_,.ack⟩
  | ⟨_,.nack⟩ | ⟨_,.done⟩ => inferInstanceAs (Decidable True)

def FinishesLast (g : WorkflowGraph) (s : State) : Label → Prop
  | .handle i _ _ => ∀ h ∈ s.handlers[i]?, ¬s.Finished → h.FinishesLast g s i
  | _ => True

/-- No fault, and the run is finished by the last goroutine. -/
def finishesLast (g : WorkflowGraph) : Guard State Label := fun s label =>
  label.FaultFree ∧ FinishesLast g s label

instance (g : WorkflowGraph) : ∀ s label, Decidable (FinishesLast g s label)
  | s, .handle i _ _ =>
    inferInstanceAs (Decidable (∀ h ∈ s.handlers[i]?, ¬s.Finished → h.FinishesLast g s i))
  | _, .orchestrate _ | _, .finish .. | _, .deliver _ | _, .mature _ | _, .expireSet | _, .expireLock
  | _, .redeliver _ | _, .crash _ | _, .crashOrchestrator => inferInstanceAs (Decidable True)

instance (g : WorkflowGraph) : ∀ s label, Decidable (finishesLast g s label) := fun s label =>
  inferInstanceAs (Decidable (label.FaultFree ∧ FinishesLast g s label))

/-- A goroutine of an exhausted node `n`, of a node that waits for it, or one that rests. -/
def Pc.Idle (g : WorkflowGraph) (own n : NodeID) : Pc → Prop
  | .getParents => own = n ∨ n ∈ parents g own
  | .getNodeRun | .getChildren | .failed => own = n
  | .publishChildren rest => own = n ∧ ∀ c ∈ rest, n ∈ parents g c
  | pc => pc.Counting

/-- After `n` used up its attempts: whatever still moves ends without effect. -/
structure Blocked (g : WorkflowGraph) (n : NodeID) (s : State) : Prop where
  orchestrator : s.orchestrator.Resting
  stuck : s.infra.Stuck g n
  messages : ∀ m ∈ s.infra.queue ++ s.infra.delayed, m.nodeID = n ∨ n ∈ parents g m.nodeID
  idle : ∀ h ∈ s.handlers, h.pc.Idle g h.msg.nodeID n

structure Over (s : State) : Prop where
  drained : s.Drained
  resting : ∀ h ∈ s.handlers, h.pc.Resting

def Closed (g : WorkflowGraph) (s : State) : Prop := Over s ∨ ∃ n, Blocked g n s

/-- What a goroutine knows about the pending nodes. -/
def Pc.Counts (g : WorkflowGraph) (x : Infra) (own : NodeID) : Pc → Prop
  | .publishRunning _ | .startAction _ | .inAction _ | .updateStatus _ _ | .publishStatus _ _
  | .completeFailed | .getChildren | .publishChildren _ | .markComplete =>
    (x.nodeRuns own).status ≠ .pending
  | .acquireLock pending | .addPending pending =>
    ∀ n ∈ ids g, (x.nodeRuns n).status = .pending → n ∈ pending
  | _ => True

/-- While the running-node set exists, it holds every pending node that is no root. -/
def Infra.Waiting (x : Infra) (g : WorkflowGraph) : Prop :=
  x.runningSet ≠ ∅ → ∀ n ∈ nonRoots g, (x.nodeRuns n).status = .pending → n ∈ x.runningSet

structure Counted (g : WorkflowGraph) (s : State) : Prop where
  waiting : s.infra.Waiting g
  counts : ∀ h ∈ s.handlers, h.pc.Counts g s.infra h.msg.nodeID

variable {g : WorkflowGraph} {s t : State} {x y : Infra} {m : Message} {now : Int} {pc pc' : Pc}
  {i : Nat} {h : Handler} {n : NodeID} {label : Label} {o o' : OrchestratorPc}

theorem Pc.Counts.mono {own : NodeID} (counts : pc.Counts g x own)
    (fewer : ∀ n, (y.nodeRuns n).status = .pending → (x.nodeRuns n).status = .pending) :
    pc.Counts g y own := by
  cases pc with
  | acquireLock pending | addPending pending =>
    exact fun n member waiting => counts n member (fewer n waiting)
  | publishRunning | startAction | inAction | updateStatus | publishStatus | completeFailed
  | getChildren | publishChildren | markComplete => exact fun waiting => counts (fewer _ waiting)
  | _ => trivial

theorem Call.fewer (call : Call g x m now pc y pc') (n : NodeID)
    (pending : (y.nodeRuns n).status = .pending) : (x.nodeRuns n).status = .pending := by
  rw [← call.pending pending]
  exact pending

theorem Pc.Counts.publishing {own : NodeID} {rest : List NodeID}
    (begun : (x.nodeRuns own).status ≠ .pending) : (publishing rest).Counts g x own := by
  cases rest with
  | nil => exact begun
  | cons c rest => exact begun

theorem Call.counts (call : Call g x m now pc y pc') (fresh : x.Fresh)
    (counts : pc.Counts g x m.nodeID) : pc'.Counts g y m.nodeID := by
  cases call with
  | skip settled =>
    intro pending
    rcases settled with exhausted | success
    · simp [fresh _ pending] at exhausted
    · simp [success] at pending
  | markRunning => simp [Pc.Counts,Infra.markWorkflowNodeAsRunning]
  | publishRunning | startAction => exact counts
  | succeed => simp [Pc.Counts,Infra.updateWorkflowNodeRunStatus]
  | fail => simp [Pc.Counts,Infra.updateWorkflowNodeRunStatus]
  | publishSuccess | exhausted => exact counts
  | getChildren => exact Pc.Counts.publishing counts
  | publishedAll => exact counts
  | publishChild => exact Pc.Counts.publishing counts
  | somePending _ => exact fun n member pending => Infra.mem_pendingNodes.mpr ⟨member,pending⟩
  | lock _ => exact counts
  | _ => trivial

theorem Infra.Waiting.erase (waiting : x.Waiting g) (begun : (x.nodeRuns n).status ≠ .pending) :
    (x.markNodeComplete n).Waiting g := by
  intro present k member pending
  have before : x.runningSet ≠ ∅ := fun empty => present (by simp [Infra.markNodeComplete,empty])
  apply Finset.mem_erase.mpr
  constructor
  · rintro rfl
    exact begun pending
  · exact waiting before k member pending

theorem waiting_union {nodeIDs : List NodeID}
    (all : ∀ n ∈ nonRoots g, (x.nodeRuns n).status = .pending → n ∈ nodeIDs) :
    (x.initializeRunningNodeSet nodeIDs).Waiting g := by
  intro _ k member pending
  exact Finset.mem_union_right _ (List.mem_toFinset.mpr (all k member pending))

theorem Call.waiting (call : Call g x m now pc y pc') (waiting : x.Waiting g)
    (counts : pc.Counts g x m.nodeID) : y.Waiting g := by
  have kept : y.runningSet = x.runningSet → y.Waiting g := by
    intro same present n member pending
    rw [same] at present ⊢
    exact waiting present n member (call.fewer n pending)
  cases call with
  | markLast => exact waiting.erase counts
  | markOne => exact waiting.erase counts
  | addPending =>
    apply waiting_union
    exact fun n member pending => counts n (List.mem_of_mem_filter member) pending
  | _ => exact kept rfl

theorem Orchestration.waiting (orchestration : Orchestration g x o y o') (waiting : x.Waiting g) :
    y.Waiting g := by
  cases orchestration with
  | initSet => exact waiting_union fun n member _ => member
  | _ => exact waiting

theorem Counted.step (counted : Counted g s) (fresh : s.infra.Fresh) (fine : label.FaultFree)
    (step : (system g).step label s = some t) : Counted g t := by
  cases faultless_cases fine step with
  | @call i now h x pc here call =>
    have counts := counted.counts h (List.mem_of_getElem? here)
    constructor
    · exact call.waiting counted.waiting counts
    · apply Pool.forall_set
      · exact fun k member => (counted.counts k member).mono call.fewer
      · exact call.counts fresh counts
  | @finish i r err h here inside =>
    have counts := counted.counts h (List.mem_of_getElem? here)
    rw [inside] at counts
    exact ⟨counted.waiting,Pool.forall_set counted.counts counts⟩
  | orchestrate orchestration =>
    constructor
    · exact orchestration.waiting counted.waiting
    · intro h member
      apply (counted.counts h member).mono
      intro n pending
      rwa [← orchestration.same.nodeRuns]
  | deliver queued => exact ⟨counted.waiting,Pool.forall_append counted.counts trivial⟩
  | mature waiting => exact ⟨counted.waiting,counted.counts⟩
  | expireSet => exact ⟨fun present => absurd rfl present,counted.counts⟩
  | expireLock => exact ⟨counted.waiting,counted.counts⟩

theorem reach_counted (reach : Reach (system g) faultFree s) : Counted g s := by
  refine Reach.invariant (Counted g) ?_ ?_ reach
  · constructor
    · exact fun present => absurd rfl present
    · intro h member
      simp [system] at member
  · intro s label t reach counted fine step
    exact counted.step (reach_fresh (reach.mono fun _ _ _ => trivial)) fine step

theorem Pc.Resting.counting (resting : pc.Resting) : pc.Counting := by
  cases pc <;> trivial

theorem Pc.Counting.idle {own : NodeID} (counting : pc.Counting) : pc.Idle g own n := by
  cases pc <;> first | exact counting | exact absurd counting id

theorem publishing_idle {own : NodeID} {rest : List NodeID} (same : own = n)
    (children : ∀ c ∈ rest, n ∈ parents g c) : (publishing rest).Idle g own n := by
  cases rest with
  | nil => trivial
  | cons c rest => exact ⟨same,children⟩

theorem Call.resting (call : Call g x m now pc y pc') (resting : pc.Resting) :
    pc'.Resting ∧ y.Same x ∧ y.queue = x.queue ∧ y.delayed = x.delayed := by
  cases call <;> first | exact ⟨trivial,⟨rfl,rfl,rfl⟩,rfl,rfl⟩ | exact absurd resting id

/-- An idle goroutine changes nothing that counts, and publishes only messages that will
come to nothing. -/
theorem Call.idle (call : Call g x m now pc y pc') (stuck : x.Stuck g n) (waiting : x.Waiting g)
    (counts : pc.Counts g x m.nodeID) (idle : pc.Idle g m.nodeID n) :
    pc'.Idle g m.nodeID n ∧ y.Same x ∧ ∀ k ∈ y.queue ++ y.delayed,
      k ∈ x.queue ++ x.delayed ∨ k.nodeID = n ∨ n ∈ parents g k.nodeID := by
  obtain ⟨⟨unsuccessful,exhausted⟩,c,member,pending⟩ := stuck
  have old : ∀ k ∈ x.queue ++ x.delayed,
      k ∈ x.queue ++ x.delayed ∨ k.nodeID = n ∨ n ∈ parents g k.nodeID := fun k queued => .inl queued
  cases call with
  | ready all =>
    rcases idle with own | parent
    · exact ⟨own,.refl _,old⟩
    · have success := all n parent
      rw [unsuccessful] at success
      contradiction
  | attempt left _ =>
    have own : m.nodeID = n := idle
    rw [own] at left
    exact absurd exhausted left
  | skip => exact ⟨idle,.refl _,old⟩
  | getChildren =>
    have own : m.nodeID = n := idle
    refine ⟨publishing_idle own ?_,.refl _,old⟩
    intro k child
    rw [← own]
    exact (Infra.mem_pendingChildren.mp child).1
  | @publishChild k rest =>
    obtain ⟨own,children⟩ := idle
    refine ⟨publishing_idle own fun c more => children c (List.mem_cons_of_mem _ more),⟨rfl,rfl,rfl⟩,?_⟩
    intro message queued
    simp only [Infra.publish,List.mem_append,List.mem_singleton] at queued ⊢
    rcases queued with (before | rfl) | delayed
    · exact .inl (.inl before)
    · exact .inr (.inr (children k (List.mem_cons_self)))
    · exact .inl (.inr delayed)
  | publishedAll => exact ⟨trivial,.refl _,old⟩
  | markLast present last =>
    have other : c ≠ m.nodeID := fun same => counts (same ▸ pending)
    have left : c ∈ x.runningSet.erase m.nodeID :=
      Finset.mem_erase.mpr ⟨other,waiting present c member pending⟩
    rw [last] at left
    simp at left
  | nonePending none =>
    have left : c ∈ x.pendingNodes g := Infra.mem_pendingNodes.mpr ⟨List.mem_of_mem_filter member,pending⟩
    rw [none] at left
    simp at left
  | giveUp => exact ⟨trivial,⟨rfl,rfl,rfl⟩,old⟩
  | retry =>
    refine ⟨trivial,⟨rfl,rfl,rfl⟩,?_⟩
    intro message queued
    simp only [Infra.publishRetry,List.mem_append,List.mem_singleton] at queued ⊢
    rcases queued with before | delayed | rfl
    · exact .inl (.inl before)
    · exact .inl (.inr delayed)
    · exact .inr (.inl idle)
  | blocked | setMissing | markOne | somePending | lockHeld | lock | addPending | ack | nack =>
    exact ⟨trivial,⟨rfl,rfl,rfl⟩,old⟩
  | _ => exact absurd idle id

/-- What OrchestrateWorkflow still does when it publishes nothing more. -/
theorem Orchestration.resting (orchestration : Orchestration g x o y o') (resting : o.Resting) :
    o'.Resting ∧ y.Same x ∧ y.queue = x.queue ∧ y.delayed = x.delayed := by
  cases orchestration with
  | @publishedAll root rest =>
    cases rest with
    | nil => exact ⟨trivial,.refl _,rfl,rfl⟩
    | cons next rest => exact absurd resting id
  | @publishStatus root rest =>
    cases rest with
    | nil => exact ⟨trivial,⟨rfl,rfl,rfl⟩,rfl,rfl⟩
    | cons next rest => exact absurd resting id
  | _ => exact absurd resting id

theorem Over.step (ended : Over s) (fine : label.FaultFree)
    (step : (system g).step label s = some t) : Over t ∧ t.infra.Same s.infra := by
  obtain ⟨⟨orchestrator,queue,delayed⟩,resting⟩ := ended
  cases faultless_cases fine step with
  | @call i now h x pc here call =>
    obtain ⟨rests,same,queued,waits⟩ := call.resting (resting h (List.mem_of_getElem? here))
    exact ⟨⟨⟨orchestrator,queued.trans queue,waits.trans delayed⟩,Pool.forall_set resting rests⟩,same⟩
  | @finish i r err h here inside =>
    have rests := resting h (List.mem_of_getElem? here)
    rw [inside] at rests
    exact absurd rests id
  | orchestrate orchestration =>
    obtain ⟨rests,same,queued,waits⟩ := orchestration.resting orchestrator
    exact ⟨⟨⟨rests,queued.trans queue,waits.trans delayed⟩,resting⟩,same⟩
  | deliver queued => simp [queue] at queued
  | mature waiting => simp [delayed] at waiting
  | expireSet => exact ⟨⟨⟨orchestrator,queue,delayed⟩,resting⟩,⟨rfl,rfl,rfl⟩⟩
  | expireLock => exact ⟨⟨⟨orchestrator,queue,delayed⟩,resting⟩,⟨rfl,rfl,rfl⟩⟩

theorem Infra.Stuck.same (stuck : x.Stuck g n) (same : y.Same x) : y.Stuck g n := by
  rw [Infra.Stuck,Infra.Exhausted,same.nodeRuns]
  exact stuck

theorem Blocked.step (blocked : Blocked g n s) (counted : Counted g s) (fine : label.FaultFree)
    (step : (system g).step label s = some t) : Blocked g n t ∧ t.infra.Same s.infra := by
  obtain ⟨orchestrator,stuck,messages,idle⟩ := blocked
  cases faultless_cases fine step with
  | @call i now h x pc here call =>
    have member := List.mem_of_getElem? here
    obtain ⟨stays,same,queued⟩ := call.idle stuck counted.waiting (counted.counts h member) (idle h member)
    refine ⟨⟨orchestrator,stuck.same same,?_,Pool.forall_set idle stays⟩,same⟩
    intro message waits
    rcases queued message waits with before | harmless
    · exact messages message before
    · exact harmless
  | @finish i r err h here inside =>
    have stays := idle h (List.mem_of_getElem? here)
    rw [inside] at stays
    exact absurd stays id
  | orchestrate orchestration =>
    obtain ⟨rests,same,queue,delayed⟩ := orchestration.resting orchestrator
    refine ⟨⟨rests,stuck.same same,?_,idle⟩,same⟩
    rw [queue,delayed]
    exact messages
  | @deliver m queued =>
    have harmless := messages m (List.mem_append_left _ queued)
    refine ⟨⟨orchestrator,stuck.same ⟨rfl,rfl,rfl⟩,?_,Pool.forall_append idle harmless⟩,⟨rfl,rfl,rfl⟩⟩
    intro message waits
    apply messages message
    rcases List.mem_append.mp waits with left | delayed
    · exact List.mem_append_left _ (List.mem_of_mem_erase left)
    · exact List.mem_append_right _ delayed
  | @mature m waiting =>
    refine ⟨⟨orchestrator,stuck.same ⟨rfl,rfl,rfl⟩,?_,idle⟩,⟨rfl,rfl,rfl⟩⟩
    intro message waits
    apply messages message
    simp only [List.mem_append,List.mem_singleton] at waits ⊢
    rcases waits with (queued | rfl) | left
    · exact .inl queued
    · exact .inr waiting
    · exact .inr (List.mem_of_mem_erase left)
  | expireSet => exact ⟨⟨orchestrator,stuck,messages,idle⟩,⟨rfl,rfl,rfl⟩⟩
  | expireLock => exact ⟨⟨orchestrator,stuck,messages,idle⟩,⟨rfl,rfl,rfl⟩⟩

theorem Closed.step (closed : Closed g s) (counted : Counted g s) (fine : label.FaultFree)
    (step : (system g).step label s = some t) : Closed g t ∧ t.infra.Same s.infra := by
  rcases closed with ended | ⟨n,blocked⟩
  · obtain ⟨ended,same⟩ := ended.step fine step
    exact ⟨.inl ended,same⟩
  · obtain ⟨blocked,same⟩ := blocked.step counted fine step
    exact ⟨.inr ⟨n,blocked⟩,same⟩

/-- The step that finishes the run leaves it closed. -/
theorem finish_closed (open_ : ¬s.Finished) (allowed : finishesLast g s label)
    (step : (system g).step label s = some t) (finished : t.Finished) : Closed g t := by
  obtain ⟨fine,last⟩ := allowed
  cases faultless_cases fine step with
  | @call i now h x pc here call =>
    have last : h.FinishesLast g s i := last h here open_
    obtain ⟨m,at_⟩ := h
    rcases call.run with same | ⟨status,is,_⟩ | ⟨is,_⟩
    · have before : s.Finished := by
        rw [State.Finished,← same]
        exact finished
      exact absurd before open_
    · dsimp only at is call last
      subst is
      obtain ⟨drained,others⟩ := last
      cases call
      exact .inl ⟨drained,Pool.forall_set_of_erase others trivial⟩
    · dsimp only at is call last
      subst is
      obtain ⟨⟨orchestrator,queue,delayed⟩,others,stuck⟩ := last
      cases call
      refine .inr ⟨m.nodeID,orchestrator,stuck,?_,?_⟩
      · intro message waits
        have none : s.infra.queue ++ s.infra.delayed = [] := by rw [queue,delayed]; rfl
        have waits : message ∈ s.infra.queue ++ s.infra.delayed := waits
        rw [none] at waits
        simp at waits
      · exact Pool.forall_set_of_erase (fun k member => (others k member).idle) rfl
  | orchestrate orchestration =>
    have before : s.Finished := by
      rw [State.Finished,← orchestration.same.run]
      exact finished
    exact absurd before open_
  | _ => exact absurd finished open_

theorem reach_closed (reach : Reach (system g) (finishesLast g) s) : s.Finished → Closed g s := by
  refine Reach.invariant (fun s => s.Finished → Closed g s) ?_ ?_ reach
  · intro finished
    simp [State.Finished,system,createWorkflowRun] at finished
  · intro s label t reach closed allowed step finished
    by_cases before : s.Finished
    · exact ((closed before).step (reach_counted (reach.mono fun _ _ ok => ok.1)) allowed.1 step).1
    · exact finish_closed before allowed step finished

/-- A run that is finished by the last goroutine stays as it is: its status, when it was
finished, and which actions were started. -/
theorem finished_stays (g : AcceptedGraph) (reach : Reach (system g.graph) (finishesLast g.graph) s)
    (finished : s.Finished) (path : Path (system g.graph) (finishesLast g.graph) s t) :
    t.infra.run = s.infra.run ∧ ∀ n, starts t.infra.history n = starts s.infra.history n := by
  have kept : s.Finished → t.infra.run = s.infra.run ∧ t.infra.history = s.infra.history := by
    refine Path.preserves (fun s t => s.Finished → t.infra.run = s.infra.run ∧
      t.infra.history = s.infra.history) ?_ ?_ ?_ reach path
    · exact fun s _ => ⟨rfl,rfl⟩
    · intro s t u first second finished
      obtain ⟨run,history⟩ := first finished
      have later : t.Finished := by rw [State.Finished,run]; exact finished
      obtain ⟨run',history'⟩ := second later
      exact ⟨run'.trans run,history'.trans history⟩
    · intro s label t reach allowed step finished
      have counted := reach_counted (reach.mono fun _ _ ok => ok.1)
      obtain ⟨_,same⟩ := (reach_closed reach finished).step counted allowed.1 step
      exact ⟨same.run,same.history⟩
  obtain ⟨run,history⟩ := kept finished
  exact ⟨run,fun n => by rw [history]⟩

theorem chain_finished_stays : ∃ s t : State, s.infra.run = ⟨.success,some 9⟩ ∧ s.handlers ≠ t.handlers ∧
    t.infra.run = s.infra.run ∧ ∀ n, starts t.infra.history n = starts s.infra.history n := by
  obtain ⟨s,t,reach,path,run,moved⟩ : ∃ s t, Reach (system chain.graph) (finishesLast chain.graph) s ∧
      Path (system chain.graph) (finishesLast chain.graph) s t ∧
      s.infra.run = ⟨.success,some 9⟩ ∧ s.handlers ≠ t.handlers :=
    follow_path_exists (List.flatten [List.replicate 5 (.orchestrate .ok), [.deliver ⟨2,0⟩],
      List.replicate 6 (.handle 0 .ok 1), [.finish 0 none], List.replicate 6 (.handle 0 .ok 2),
      [.deliver ⟨3,0⟩], List.replicate 6 (.handle 1 .ok 3), [.finish 1 none],
      List.replicate 6 (.handle 1 .ok 9)]) [.handle 1 .ok 10,.expireSet] (by decide +kernel)
  exact ⟨s,t,run,moved,finished_stays chain reach (.inl (by rw [run])) path⟩

/-- The run succeeds while the goroutine of the other action is on its way to start it. -/
theorem apart_starts_after_finish : ¬∀ (g : AcceptedGraph) (s t : State),
    Reach (system g.graph) faultFree s → s.Finished → Path (system g.graph) faultFree s t →
    t.infra.run = s.infra.run ∧ ∀ n, starts t.infra.history n = starts s.infra.history n := by
  intro claim
  obtain ⟨s,t,reach,path,finished,before,after⟩ : ∃ s t, Reach (system apart.graph) faultFree s ∧
      Path (system apart.graph) faultFree s t ∧
      s.Finished ∧ starts s.infra.history 2 = 0 ∧ starts t.infra.history 2 = 1 :=
    follow_path_exists (List.flatten [List.replicate 5 (.orchestrate .ok),
      [.deliver ⟨1,0⟩,.deliver ⟨2,0⟩], List.replicate 4 (.handle 1 .ok 1),
      List.replicate 6 (.handle 0 .ok 1), [.finish 0 none], List.replicate 7 (.handle 0 .ok 2)])
      (List.replicate 2 (.handle 1 .ok 3)) (by decide +kernel)
  have same := (claim apart s t reach finished path).2 2
  omega

end TinyAutomator.Run
