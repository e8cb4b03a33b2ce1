import TinyAutomator.Run.WakeUp
import TinyAutomator.Run.Success
import TinyAutomator.Run.Tasks

/-! Quiescent runs. On a graph where the counter reaches every action, and while attempts
do not overlap and the running-node set is not lost, a run with nothing left to do has the
status that its node runs call for. -/
namespace TinyAutomator.Run

open Transition

/-- Graphs on which completion does not depend on luck: there is an action, no edge ends
in a trigger, and an action without edges is the only action. -/
structure Completable (g : WorkflowGraph) : Prop where
  action : ∃ n ∈ ids g, isTrigger g n = false
  sources : SourceTriggers g
  isolated : ∀ n ∈ ids g, isTrigger g n = false → parents g n = [] → children g n = [] →
    ∀ k ∈ ids g, isTrigger g k = false → k = n

instance : DecidablePred Completable := fun g =>
  decidable_of_iff ((∃ n ∈ ids g, isTrigger g n = false) ∧ SourceTriggers g ∧
      ∀ n ∈ ids g, isTrigger g n = false → parents g n = [] → children g n = [] →
        ∀ k ∈ ids g, isTrigger g k = false → k = n)
    ⟨fun all => ⟨all.1,all.2.1,all.2.2⟩,fun c => ⟨c.action,c.sources,c.isolated⟩⟩

/-- The set may expire only once it is empty or the run is bound to fail. -/
def KeepsSet (g : WorkflowGraph) (s : State) : Label → Prop
  | .expireSet => s.infra.runningSet = ∅ ∨ ∃ n ∈ ids g, s.infra.Exhausted n
  | _ => True

/-- No fault, attempts do not overlap, and the running-node set is not lost. -/
def orderly (g : WorkflowGraph) : Guard State Label := fun s label =>
  exclusive s label ∧ KeepsSet g s label

instance (g : WorkflowGraph) : ∀ s label, Decidable (KeepsSet g s label)
  | s, .expireSet =>
    inferInstanceAs (Decidable (s.infra.runningSet = ∅ ∨ ∃ n ∈ ids g, s.infra.Exhausted n))
  | _, .orchestrate _ | _, .handle .. | _, .finish .. | _, .deliver _ | _, .mature _ | _, .expireLock
  | _, .redeliver _ | _, .crash _ | _, .crashOrchestrator => inferInstanceAs (Decidable True)

instance (g : WorkflowGraph) : ∀ s label, Decidable (orderly g s label) := fun s label =>
  inferInstanceAs (Decidable (exclusive s label ∧ KeepsSet g s label))

/-- Nothing of the run is queued, delayed or being handled. -/
structure Quiescent (s : State) : Prop where
  returned : s.orchestrator = .returned
  queue : s.infra.queue = []
  delayed : s.infra.delayed = []
  handlers : ∀ h ∈ s.handlers, h.pc = .done

instance : DecidablePred Quiescent := fun s =>
  decidable_of_iff (s.orchestrator = .returned ∧ s.infra.queue = [] ∧ s.infra.delayed = [] ∧
      ∀ h ∈ s.handlers, h.pc = .done)
    ⟨fun all => ⟨all.1,all.2.1,all.2.2.1,all.2.2.2⟩,fun q => ⟨q.returned,q.queue,q.delayed,q.handlers⟩⟩

/-- The run is over and its status says how its node runs ended. -/
structure State.Terminal (s : State) (g : WorkflowGraph) : Prop where
  ended : s.infra.run.status = .success ∨ s.infra.run.status = .failed
  success : s.infra.run.status = .success ↔ s.infra.AllSucceeded g
  failed : s.infra.run.status = .failed ↔
    ∃ n ∈ ids g, (s.infra.nodeRuns n).retryCount = 3 ∧ (s.infra.nodeRuns n).status ≠ .success

/-- A goroutine that still brings a node up again after a failed attempt. -/
def Pc.Retries : Pc → Prop
  | .publishStatus _ (some _) | .failed | .getParents | .getNodeRun | .getNode _ | .markRunning _ => True
  | _ => False

/-- About to fail the run, the attempts of the node being used up. -/
def Pc.Failing : Pc → Prop
  | .publishStatus r (some _) => r = 3
  | .completeFailed => True
  | _ => False

/-- Past a success and not past the count of the nodes that are left. -/
def Pc.Tail : Pc → Prop
  | .publishStatus _ none | .getChildren | .publishChildren _ | .markComplete => True
  | _ => False

/-- On the way from a success to the write of the run's status. -/
def Pc.Finalizing : Pc → Prop
  | .getPending | .getNodeRuns | .completeRun _ => True
  | pc => pc.Tail

/-- The node runs call for this final status, and no later move changes that. -/
def Infra.Warrants (x : Infra) (g : WorkflowGraph) (status : RunStatus) : Prop :=
  status = .success ∧ x.AllSucceeded g ∨ status = .failed ∧ ∃ n ∈ ids g, x.Exhausted n

/-- What is left to do for a failed node, and what the run's status says. -/
structure Accounted (g : WorkflowGraph) (s : State) : Prop where
  retried : ∀ n, (s.infra.nodeRuns n).status = .failed → (s.infra.nodeRuns n).retryCount < 3 →
    s.infra.Announced n ∨ ∃ h ∈ s.handlers, h.msg.nodeID = n ∧ h.pc.Retries
  failing : ∀ n ∈ ids g, s.infra.Exhausted n →
    s.infra.run.status = .failed ∨ ∃ h ∈ s.handlers, h.msg.nodeID = n ∧ h.pc.Failing
  deciding : ∀ h ∈ s.handlers, ∀ status, h.pc = .completeRun status → s.infra.Warrants g status
  verdict : s.infra.run.status = .running ∨ s.infra.Warrants g s.infra.run.status

def Pc.Concludes (g : WorkflowGraph) (x : Infra) : Pc → Prop
  | .getPending | .getNodeRuns | .completeRun _ => x.AllSucceeded g
  | .acquireLock _ | .addPending _ => False
  | _ => True

/-- The running-node set of a run in which no node has used up its attempts: it lacks only
nodes that succeeded, and a node that succeeded has a goroutine that will take it out. -/
structure Tracked (g : WorkflowGraph) (s : State) : Prop where
  absent : s.orchestrator ≠ .initSet → ∀ n ∈ nonRoots g, n ∉ s.infra.runningSet →
    (s.infra.nodeRuns n).status = .success
  present : ∀ n ∈ s.infra.runningSet, n ∈ ids g ∧ ((s.infra.nodeRuns n).status = .success →
    ∃ h ∈ s.handlers, h.msg.nodeID = n ∧ h.pc.Tail)
  concludes : ∀ h ∈ s.handlers, h.pc.Concludes g s.infra
  finalizing : s.infra.AllSucceeded g →
    s.infra.run.status = .success ∨ ∃ h ∈ s.handlers, h.pc.Finalizing

/-- Before the set is written there is nothing but the initial rows. -/
structure Unstarted (g : WorkflowGraph) (s : State) : Prop where
  handlers : s.handlers = []
  messages : s.infra.queue ++ s.infra.delayed = []
  set : s.infra.runningSet = ∅
  succeeded : ∀ n, (s.infra.nodeRuns n).status = .success → isTrigger g n = true

variable {g : WorkflowGraph} {s t : State} {x y : Infra} {m : Message} {now : Int} {pc pc' : Pc}
  {i : Nat} {h : Handler} {n : NodeID} {label : Label} {o o' : OrchestratorPc}

/-- A failed node with attempts left stays in somebody's hands. -/
theorem Act.retries (act : Act g x m now pc y pc')
    (agrees : pc.Agrees (x.nodeRuns m.nodeID) m.retryCount)
    (above : ∀ p ∈ parents g m.nodeID, (x.nodeRuns p).status = .success)
    (failed : (x.nodeRuns m.nodeID).status = .failed) (left : (x.nodeRuns m.nodeID).retryCount < 3)
    (still : (y.nodeRuns m.nodeID).status = .failed) (retries : pc.Retries) :
    pc'.Retries ∨ y.Announced m.nodeID := by
  cases act with
  | finish => exact absurd retries id
  | call call =>
    cases call with
    | ready | attempt | getNode | publishFailure => exact .inl trivial
    | blocked parent behind => exact absurd (above _ parent) behind
    | skip settled =>
      rcases settled with three | success
      · omega
      · rw [success] at failed; contradiction
    | markRunning => simp [Infra.markWorkflowNodeAsRunning] at still
    | exhausted =>
      have three := (agrees.2 rfl).2
      omega
    | retry => exact .inr ⟨_,List.mem_append_right _ (List.mem_append_right _ (List.mem_singleton_self _)),rfl⟩
    | giveUp retried =>
      have behind : m.retryCount < (x.nodeRuns m.nodeID).retryCount := agrees
      simp only [maxRetries] at retried
      omega
    | _ => exact absurd retries id

theorem Act.failed (act : Act g x m now pc y pc') (failed : (y.nodeRuns m.nodeID).status = .failed) :
    pc'.Retries ∨ y.nodeRuns m.nodeID = x.nodeRuns m.nodeID := by
  cases act with
  | finish => exact .inr rfl
  | call call =>
    cases call with
    | markRunning => simp [Infra.markWorkflowNodeAsRunning] at failed
    | succeed => simp [Infra.updateWorkflowNodeRunStatus] at failed
    | fail => exact .inl trivial
    | _ => exact .inr rfl

/-- The attempt that uses up a node goes on to fail the run. -/
theorem Act.newlyExhausted (act : Act g x m now pc y pc')
    (agrees : pc.Agrees (x.nodeRuns m.nodeID) m.retryCount) (exhausted : y.Exhausted n) :
    x.Exhausted n ∨ n = m.nodeID ∧ pc'.Failing := by
  by_cases own : n = m.nodeID
  · subst own
    cases act with
    | finish => exact .inl exhausted
    | call call =>
      cases call with
      | markRunning => simp [Infra.Exhausted,Infra.markWorkflowNodeAsRunning] at exhausted
      | succeed => simp [Infra.Exhausted,Infra.updateWorkflowNodeRunStatus] at exhausted
      | fail =>
        obtain ⟨_,count,_⟩ := agrees
        simp only [Infra.Exhausted,Infra.updateWorkflowNodeRunStatus,Infra.setNodeRun_self] at exhausted
        right
        refine ⟨rfl,?_⟩
        exact count.symm.trans exhausted.2
      | _ => exact .inl exhausted
  · left
    rw [Infra.Exhausted,← act.elsewhere own]
    exact exhausted

theorem Act.failing (act : Act g x m now pc y pc') (failing : pc.Failing) :
    pc'.Failing ∨ y.run.status = .failed := by
  cases act with
  | finish => exact absurd failing id
  | call call =>
    cases call with
    | publishFailure left => exact absurd failing left
    | exhausted => exact .inl trivial
    | completeFailed => exact .inr rfl
    | _ => exact absurd failing id

theorem Act.newlySucceeded (act : Act g x m now pc y pc') (success : (y.nodeRuns n).status = .success) :
    (x.nodeRuns n).status = .success ∨ n = m.nodeID ∧ pc'.Tail := by
  by_cases own : n = m.nodeID
  · subst own
    cases act with
    | finish => exact .inl success
    | call call =>
      cases call with
      | markRunning => simp [Infra.markWorkflowNodeAsRunning] at success
      | succeed => exact .inr ⟨rfl,trivial⟩
      | fail => simp [Infra.updateWorkflowNodeRunStatus] at success
      | _ => exact .inl success
  · left
    rw [← act.elsewhere own]
    exact success

theorem publishing_tail {rest : List NodeID} : (publishing rest).Tail := by
  cases rest <;> trivial

theorem Act.tail (act : Act g x m now pc y pc') (tail : pc.Tail) : pc'.Tail ∨ pc = .markComplete := by
  cases act with
  | finish => exact absurd tail id
  | call call =>
    cases call with
    | publishSuccess | publishedAll => exact .inl trivial
    | getChildren | publishChild => exact .inl publishing_tail
    | setMissing | markLast | markOne => exact .inr rfl
    | _ => exact absurd tail id

theorem Act.set (act : Act g x m now pc y pc') : y.runningSet = x.runningSet ∨
    pc = .markComplete ∧ y.runningSet = x.runningSet.erase m.nodeID ∨ ∃ pending, pc = .addPending pending := by
  cases act with
  | finish => exact .inl rfl
  | call call =>
    cases call with
    | markLast | markOne => exact .inr (.inl ⟨rfl,rfl⟩)
    | addPending => exact .inr (.inr ⟨_,rfl⟩)
    | _ => exact .inl rfl

theorem Act.counted (act : Act g x m now pc y pc') (counts : pc = .markComplete) :
    y.runningSet = x.runningSet.erase m.nodeID := by
  cases act with
  | finish => contradiction
  | call call =>
    cases call with
    | setMissing missing => simp [missing]
    | markLast | markOne => rfl
    | _ => contradiction

theorem Act.run (act : Act g x m now pc y pc') : y.run = x.run ∨
    (∃ status, pc = .completeRun status ∧ y.run = ⟨status,some now⟩) ∨
    (pc = .completeFailed ∧ y.run = ⟨.failed,some now⟩) := by
  cases act with
  | finish => exact .inl rfl
  | call call => exact call.run

theorem Act.completeRun_cases {status : RunStatus} (act : Act g x m now pc y pc')
    (decides : pc' = .completeRun status) : pc = .getNodeRuns ∧ y = x ∧ status = x.finalStatus g := by
  cases act with
  | finish => contradiction
  | call call => exact call.completeRun_cases decides

theorem exhausted_not_succeeded (member : n ∈ ids g) (exhausted : x.Exhausted n) :
    ¬x.AllSucceeded g := by
  intro succeeded
  have success := succeeded n member
  rw [exhausted.1] at success
  contradiction

theorem finalStatus_succeeded (succeeded : x.AllSucceeded g) : x.finalStatus g = .success := by
  have none : ¬∃ n ∈ ids g, (x.nodeRuns n).status = .failed := by
    rintro ⟨n,member,failed⟩
    rw [succeeded n member] at failed
    contradiction
  rw [Infra.finalStatus,if_neg none]

theorem finalStatus_exhausted (member : n ∈ ids g) (exhausted : x.Exhausted n) :
    x.finalStatus g = .failed := by
  rw [Infra.finalStatus,if_pos ⟨n,member,exhausted.1⟩]

/-- What the orderly part of a run relies on. -/
structure Context (g : WorkflowGraph) (s : State) : Prop where
  paced : Paced s
  tasked : Tasked g s
  sequenced : Sequenced g s

theorem Accounted.act_retried (accounted : Accounted g s) (context : Context g s)
    (here : s.handlers[i]? = some h) (act : Act g s.infra h.msg now h.pc x pc)
    (failed : (x.nodeRuns n).status = .failed) (left : (x.nodeRuns n).retryCount < 3) :
    x.Announced n ∨
      ∃ k ∈ (setHandler s i h x pc).handlers, k.msg.nodeID = n ∧ k.pc.Retries := by
  have member := List.mem_of_getElem? here
  have agrees := context.paced.agrees h member
  have carried : (s.infra.nodeRuns n).status = .failed → (s.infra.nodeRuns n).retryCount < 3 →
      x.Announced n ∨ ∃ k ∈ s.handlers.set i {h with pc := pc}, k.msg.nodeID = n ∧ k.pc.Retries := by
    intro before few
    rcases accounted.retried n before few with announced | found
    · exact .inl (act.announced announced)
    · rcases Pool.exists_set here found {h with pc := pc} with ⟨rfl,retries⟩ | found
      · have begun : (s.infra.nodeRuns h.msg.nodeID).status ≠ .pending := by simp [before]
        have above := context.sequenced.parents _ (context.tasked.handlers h member).1.2 begun
        rcases act.retries agrees above before few failed retries with retries | announced
        · exact .inr ⟨_,Pool.mem_set_self here,rfl,retries⟩
        · exact .inl announced
      · exact .inr found
  by_cases own : n = h.msg.nodeID
  · subst own
    rcases act.failed failed with retries | same
    · exact .inr ⟨_,Pool.mem_set_self here,rfl,retries⟩
    · rw [same] at failed left
      exact carried failed left
  · rw [act.elsewhere own] at failed left
    exact carried failed left

theorem Accounted.act_failing (accounted : Accounted g s) (context : Context g s)
    (here : s.handlers[i]? = some h) (act : Act g s.infra h.msg now h.pc x pc) (known : n ∈ ids g)
    (exhausted : x.Exhausted n) :
    x.run.status = .failed ∨
      ∃ k ∈ (setHandler s i h x pc).handlers, k.msg.nodeID = n ∧ k.pc.Failing := by
  have member := List.mem_of_getElem? here
  rcases act.newlyExhausted (context.paced.agrees h member) exhausted with before | ⟨rfl,failing⟩
  · rcases accounted.failing n known before with failed | found
    · left
      rcases act.run with same | ⟨status,decides,wrote⟩ | ⟨_,wrote⟩
      · exact same ▸ failed
      · rcases accounted.deciding h member status decides with ⟨_,succeeded⟩ | ⟨rfl,_⟩
        · exact absurd succeeded (exhausted_not_succeeded known before)
        · rw [wrote]
      · rw [wrote]
    · rcases Pool.exists_set here found {h with pc := pc} with ⟨rfl,failing⟩ | found
      · rcases act.failing failing with failing | failed
        · exact .inr ⟨_,Pool.mem_set_self here,rfl,failing⟩
        · exact .inl failed
      · exact .inr found
  · exact .inr ⟨_,Pool.mem_set_self here,rfl,failing⟩

theorem Accounted.act (accounted : Accounted g s) (context : Context g s)
    (tracked : (∀ n ∈ ids g, ¬s.infra.Exhausted n) → Tracked g s)
    (here : s.handlers[i]? = some h) (act : Act g s.infra h.msg now h.pc x pc) :
    Accounted g (setHandler s i h x pc) := by
  have member := List.mem_of_getElem? here
  have agrees := context.paced.agrees h member
  have task := (context.tasked.handlers h member).1
  have stays : ∀ status, s.infra.Warrants g status → x.Warrants g status := by
    rintro status (⟨rfl,succeeded⟩ | ⟨rfl,n,known,exhausted⟩)
    · exact .inl ⟨rfl,fun n known => act.success agrees (succeeded n known)⟩
    · exact .inr ⟨rfl,n,known,act.exhausted agrees exhausted⟩
  constructor
  · exact fun n failed left => accounted.act_retried context here act failed left
  · exact fun n known exhausted => accounted.act_failing context here act known exhausted
  · intro k found status decides
    apply stays
    rcases Pool.mem_set_cases found with rfl | ⟨j,_,there⟩
    · obtain ⟨reads,_,final⟩ := act.completeRun_cases decides
      by_cases some : ∃ n ∈ ids g, s.infra.Exhausted n
      · obtain ⟨n,known,exhausted⟩ := some
        exact .inr ⟨final.trans (finalStatus_exhausted known exhausted),n,known,exhausted⟩
      · have concludes := (tracked fun n known exhausted => some ⟨n,known,exhausted⟩).concludes h member
        rw [reads] at concludes
        exact .inl ⟨final.trans (finalStatus_succeeded concludes),concludes⟩
    · exact accounted.deciding k (List.mem_of_getElem? there) status decides
  · rcases act.run with same | ⟨status,decides,wrote⟩ | ⟨fails,wrote⟩
    · show x.run.status = .running ∨ x.Warrants g x.run.status
      rw [same]
      rcases accounted.verdict with running | decided
      · exact .inl running
      · exact .inr (stays _ decided)
    · show x.run.status = .running ∨ x.Warrants g x.run.status
      rw [wrote]
      exact .inr (stays _ (accounted.deciding h member status decides))
    · rw [fails] at agrees
      show x.run.status = .running ∨ x.Warrants g x.run.status
      rw [wrote]
      exact .inr (stays _ (.inr ⟨rfl,_,task.1,agrees.2⟩))

theorem Accounted.outside (accounted : Accounted g s) (outside : Outside s t) : Accounted g t := by
  obtain ⟨run,rows,_⟩ := outside.same
  constructor
  · intro n failed left
    rw [rows] at failed left
    rcases accounted.retried n failed left with announced | ⟨h,member,own,retries⟩
    · rcases outside.announced n announced with still | ⟨h,member,own,begins⟩
      · exact .inl still
      · exact .inr ⟨h,member,own,by rw [begins]; trivial⟩
    · exact .inr ⟨h,outside.older h member,own,retries⟩
  · intro n known exhausted
    rw [Infra.Exhausted,rows] at exhausted
    rw [run]
    rcases accounted.failing n known exhausted with failed | ⟨h,member,own,failing⟩
    · exact .inl failed
    · exact .inr ⟨h,outside.older h member,own,failing⟩
  · intro h member status decides
    simp only [Infra.Warrants,Infra.AllSucceeded,Infra.Exhausted,rows]
    rcases outside.newer h member with old | ⟨begins,_⟩
    · exact accounted.deciding h old status decides
    · rw [begins] at decides
      contradiction
  · simp only [Infra.Warrants,Infra.AllSucceeded,Infra.Exhausted,rows,run]
    exact accounted.verdict

/-- When the counter runs out at a node that succeeded, every node has succeeded. -/
theorem allSucceeded_of_absent (completable : Completable g) (sequenced : Sequenced g s)
    (known : ∀ n c, c ∈ children g n → c ∈ ids g) (task : Task g n)
    (own : (s.infra.nodeRuns n).status = .success)
    (others : ∀ k ∈ nonRoots g, k ≠ n → (s.infra.nodeRuns k).status = .success) :
    s.infra.AllSucceeded g := by
  have below : ∀ k ∈ nonRoots g, (s.infra.nodeRuns k).status = .success := by
    intro k member
    by_cases same : k = n
    · rw [same]; exact own
    · exact others k member same
  have nonRoot : ∀ k p, p ∈ parents g k → k ∈ ids g → k ∈ nonRoots g := by
    intro k p parent member
    apply List.mem_filter.mpr
    refine ⟨member,decide_eq_true ?_⟩
    intro root
    have none := ((mem_roots g).mp root).2
    rw [none] at parent
    simp at parent
  intro k member
  cases trigger : isTrigger g k with
  | true => exact sequenced.triggers k trigger
  | false =>
    cases above : parents g k with
    | cons p rest =>
      exact below k (nonRoot k p (by simp [above]) member)
    | nil =>
      cases under : children g k with
      | nil =>
        have same := completable.isolated k member trigger above under n task.1 task.2
        rw [← same]
        exact own
      | cons c rest =>
        have child : c ∈ children g k := by simp [under]
        have parent : k ∈ parents g c := (mem_parents_iff_children g).mpr child
        have success := below c (nonRoot c k parent (known k c child))
        have action : isTrigger g c = false := by
          by_contra is
          have none := completable.sources.parents (by simpa using is)
          rw [none] at parent
          simp at parent
        exact sequenced.parents c action (by simp [success]) k parent

/-- Which goroutines reach the end of the run: those that find every node succeeded. -/
theorem Act.concludes (act : Act g x m now pc y pc') (concludes : pc.Concludes g x)
    (last : pc = .markComplete → x.runningSet.erase m.nodeID = ∅ → x.AllSucceeded g) :
    pc'.Concludes g x := by
  cases act with
  | finish => trivial
  | call call =>
    cases call with
    | setMissing missing => exact last rfl (by simp [missing])
    | markLast _ empties => exact last rfl empties
    | nonePending => exact concludes
    | somePending some =>
      obtain ⟨n,pending⟩ := List.exists_mem_of_ne_nil _ some
      obtain ⟨member,status⟩ := Infra.mem_pendingNodes.mp pending
      rw [concludes n member] at status
      contradiction
    | lock | addPending => exact absurd concludes id
    | getNodeRuns => exact concludes
    | getChildren => cases x.pendingChildren g m.nodeID <;> trivial
    | @publishChild c rest => cases rest <;> trivial
    | _ => trivial

theorem Pc.Concludes.mono (concludes : pc.Concludes g x)
    (stays : x.AllSucceeded g → y.AllSucceeded g) : pc.Concludes g y := by
  cases pc with
  | getPending | getNodeRuns | completeRun => exact stays concludes
  | acquireLock | addPending => exact concludes
  | _ => trivial

/-- The last steps of a run: each goroutine on the way leaves the rest to the next, or to
one whose node is still in the set. -/
theorem Act.finalizing (act : Act g x m now pc y pc') (finalizing : pc.Finalizing)
    (concludes : pc.Concludes g x) (success : ∀ status, pc = .completeRun status → status = .success) :
    pc'.Finalizing ∨ y.run.status = .success ∨ ∃ k ∈ x.runningSet, k ≠ m.nodeID := by
  cases act with
  | finish => exact absurd finalizing id
  | call call =>
    cases call with
    | publishSuccess | publishedAll | setMissing | markLast | nonePending | getNodeRuns =>
      exact .inl trivial
    | getChildren => cases x.pendingChildren g m.nodeID <;> exact .inl trivial
    | @publishChild c rest => cases rest <;> exact .inl trivial
    | markOne _ more =>
      obtain ⟨k,left⟩ := Finset.nonempty_iff_ne_empty.mpr more
      obtain ⟨other,member⟩ := Finset.mem_erase.mp left
      exact .inr (.inr ⟨k,member,other⟩)
    | somePending some =>
      obtain ⟨n,pending⟩ := List.exists_mem_of_ne_nil _ some
      obtain ⟨member,status⟩ := Infra.mem_pendingNodes.mp pending
      rw [concludes n member] at status
      contradiction
    | completeRun => exact .inr (.inl (success _ rfl))
    | _ => exact absurd finalizing id

theorem Pc.Tail.finalizing (tail : pc.Tail) : pc.Finalizing := by
  cases pc <;> trivial

/-- Where no goroutine refills the set, a call takes at most its own node out of it. -/
theorem Act.erases (act : Act g x m now pc y pc') (concludes : pc.Concludes g x) :
    y.runningSet = x.runningSet ∨
      pc = .markComplete ∧ y.runningSet = x.runningSet.erase m.nodeID := by
  rcases act.set with same | erased | ⟨pending,adds⟩
  · exact .inl same
  · exact .inr erased
  · rw [adds] at concludes
    exact absurd concludes id

theorem Tracked.act_present (tracked : Tracked g s) (here : s.handlers[i]? = some h)
    (act : Act g s.infra h.msg now h.pc x pc) (present : n ∈ x.runningSet) :
    n ∈ ids g ∧ ((x.nodeRuns n).status = .success →
      ∃ k ∈ (setHandler s i h x pc).handlers, k.msg.nodeID = n ∧ k.pc.Tail) := by
  have before : n ∈ s.infra.runningSet := by
    rcases act.erases (tracked.concludes h (List.mem_of_getElem? here)) with same | ⟨_,same⟩
    · exact same ▸ present
    · rw [same] at present
      exact Finset.mem_of_mem_erase present
  obtain ⟨listed,holder⟩ := tracked.present n before
  refine ⟨listed,?_⟩
  intro success
  rcases act.newlySucceeded success with old | ⟨rfl,tail⟩
  · rcases Pool.exists_set here (holder old) {h with pc := pc} with ⟨rfl,tail⟩ | found
    · rcases act.tail tail with tail | counts
      · exact ⟨_,Pool.mem_set_self here,rfl,tail⟩
      · rw [act.counted counts] at present
        simp at present
    · exact found
  · exact ⟨_,Pool.mem_set_self here,rfl,tail⟩

theorem Tracked.act_finalizing (tracked : Tracked g s) (accounted : Accounted g s)
    (context : Context g s) (here : s.handlers[i]? = some h)
    (act : Act g s.infra h.msg now h.pc x pc) (none : ∀ n ∈ ids g, ¬s.infra.Exhausted n)
    (succeeded : x.AllSucceeded g) :
    x.run.status = .success ∨ ∃ k ∈ (setHandler s i h x pc).handlers, k.pc.Finalizing := by
  have member := List.mem_of_getElem? here
  have final : ∀ status, h.pc = .completeRun status → status = .success := by
    intro status decides
    rcases accounted.deciding h member status decides with ⟨same,_⟩ | ⟨_,n,listed,exhausted⟩
    · exact same
    · exact absurd exhausted (none n listed)
  by_cases before : s.infra.AllSucceeded g
  · rcases tracked.finalizing before with success | found
    · left
      rcases act.run with same | ⟨status,decides,wrote⟩ | ⟨fails,_⟩
      · rw [same]; exact success
      · rw [wrote]; exact final status decides
      · have agrees := context.paced.agrees h member
        rw [fails] at agrees
        exact absurd agrees.2 (none _ (context.tasked.handlers h member).1.1)
    · rcases Pool.exists_set here found {h with pc := pc} with finalizing | found
      · rcases act.finalizing finalizing (tracked.concludes h member) final with
          next | success | ⟨k,present,other⟩
        · exact .inr ⟨_,Pool.mem_set_self here,next⟩
        · exact .inl success
        · obtain ⟨listed,holder⟩ := tracked.present k present
          obtain ⟨b,found,own,tail⟩ := holder (before k listed)
          have apart : b ≠ h := fun same => other (own.symm.trans (by rw [same]))
          exact .inr ⟨b,Pool.mem_set_of_ne here found apart _,tail.finalizing⟩
      · exact .inr found
  · simp only [Infra.AllSucceeded,not_forall] at before
    obtain ⟨n,listed,unsuccessful⟩ := before
    rcases act.newlySucceeded (succeeded n listed) with old | ⟨_,tail⟩
    · exact absurd old unsuccessful
    · exact .inr ⟨_,Pool.mem_set_self here,tail.finalizing⟩

theorem Tracked.act (tracked : Tracked g s) (accounted : Accounted g s) (context : Context g s)
    (completable : Completable g) (known : ∀ n c, c ∈ children g n → c ∈ ids g)
    (started : s.orchestrator ≠ .initSet) (here : s.handlers[i]? = some h)
    (act : Act g s.infra h.msg now h.pc x pc) (none : ∀ n ∈ ids g, ¬s.infra.Exhausted n) :
    Tracked g (setHandler s i h x pc) := by
  have member := List.mem_of_getElem? here
  have agrees := context.paced.agrees h member
  have task := (context.tasked.handlers h member).1
  have concludes := tracked.concludes h member
  have counted : h.pc = .markComplete → (s.infra.nodeRuns h.msg.nodeID).status = .success := by
    intro counts
    rw [counts] at agrees
    rcases agrees with success | exhausted
    · exact success
    · exact absurd exhausted (none _ task.1)
  have stays : s.infra.AllSucceeded g → x.AllSucceeded g :=
    fun succeeded n known => act.success agrees (succeeded n known)
  constructor
  · intro _ n nonRoot absent
    apply act.success agrees
    by_cases present : n ∈ s.infra.runningSet
    · rcases act.erases concludes with same | ⟨counts,same⟩
      · exact absurd (same ▸ present) absent
      · by_cases own : n = h.msg.nodeID
        · rw [own]; exact counted counts
        · exact absurd (same ▸ Finset.mem_erase.mpr ⟨own,present⟩) absent
    · exact tracked.absent started n nonRoot present
  · exact fun n present => tracked.act_present here act present
  · apply Pool.forall_set
    · exact fun k found => (tracked.concludes k found).mono stays
    · refine (act.concludes concludes ?_).mono stays
      intro counts empties
      apply allSucceeded_of_absent completable context.sequenced known task (counted counts)
      intro k nonRoot other
      apply tracked.absent started k nonRoot
      intro present
      have left := Finset.mem_erase.mpr ⟨other,present⟩
      rw [empties] at left
      simp at left
  · exact fun succeeded => tracked.act_finalizing accounted context here act none succeeded

theorem Tracked.outside (tracked : Tracked g s) (outside : Outside s t)
    (set : t.infra.runningSet = s.infra.runningSet)
    (started : t.orchestrator ≠ .initSet → s.orchestrator ≠ .initSet) : Tracked g t := by
  obtain ⟨run,rows,_⟩ := outside.same
  constructor
  · rw [rows,set]
    exact fun begun => tracked.absent (started begun)
  · rw [rows,set]
    intro n present
    obtain ⟨listed,holder⟩ := tracked.present n present
    refine ⟨listed,?_⟩
    intro success
    obtain ⟨h,member,own,tail⟩ := holder success
    exact ⟨h,outside.older h member,own,tail⟩
  · intro h member
    rcases outside.newer h member with old | ⟨begins,_⟩
    · apply (tracked.concludes h old).mono
      simp only [Infra.AllSucceeded,rows]
      exact id
    · rw [begins]; trivial
  · simp only [Infra.AllSucceeded,rows,run]
    intro succeeded
    rcases tracked.finalizing succeeded with success | ⟨h,member,finalizing⟩
    · exact .inl success
    · exact .inr ⟨h,outside.older h member,finalizing⟩

theorem reach_unstarted (reach : Reach (system g) faultFree s) :
    s.orchestrator = .initSet → Unstarted g s := by
  refine Reach.invariant (fun s => s.orchestrator = .initSet → Unstarted g s) ?_ ?_ reach
  · intro _
    refine ⟨rfl,rfl,rfl,?_⟩
    intro n success
    by_contra not
    simp [system,createWorkflowRun,not] at success
  · intro s label t _ unstarted fine step
    cases faultless_cases fine step with
    | call here =>
      intro initial
      have none := (unstarted initial).handlers
      simp [none] at here
    | finish here =>
      intro initial
      have none := (unstarted initial).handlers
      simp [none] at here
    | orchestrate orchestration => exact fun initial => absurd initial orchestration.started
    | deliver queued =>
      intro initial
      have none := (unstarted initial).messages
      rw [List.append_eq_nil_iff] at none
      simp [none.1] at queued
    | mature waiting =>
      intro initial
      have none := (unstarted initial).messages
      rw [List.append_eq_nil_iff] at none
      simp [none.2] at waiting
    | expireSet =>
      intro initial
      obtain ⟨handlers,messages,_,succeeded⟩ := unstarted initial
      exact ⟨handlers,messages,rfl,succeeded⟩
    | expireLock =>
      intro initial
      obtain ⟨handlers,messages,set,succeeded⟩ := unstarted initial
      exact ⟨handlers,messages,set,succeeded⟩

theorem Unstarted.not_allSucceeded (unstarted : Unstarted g s) (completable : Completable g) :
    ¬s.infra.AllSucceeded g := by
  intro succeeded
  obtain ⟨n,listed,action⟩ := completable.action
  have is := unstarted.succeeded n (succeeded n listed)
  rw [action] at is
  contradiction

/-- Once the set is written it holds every action that is no root. -/
theorem Unstarted.initSet (unstarted : Unstarted g s) (completable : Completable g)
    (orchestrator : OrchestratorPc) :
    Tracked g {s with
      infra := s.infra.initializeRunningNodeSet (nonRoots g), orchestrator := orchestrator} := by
  have written : s.infra.runningSet ∪ (nonRoots g).toFinset = (nonRoots g).toFinset := by
    rw [unstarted.set,Finset.empty_union]
  constructor
  · intro _ n nonRoot absent
    simp only [Infra.initializeRunningNodeSet,written,List.mem_toFinset] at absent
    exact absurd nonRoot absent
  · intro n present
    simp only [Infra.initializeRunningNodeSet,written,List.mem_toFinset] at present
    obtain ⟨listed,below⟩ := List.mem_filter.mp present
    refine ⟨listed,?_⟩
    intro success
    have sources := completable.sources.parents (unstarted.succeeded n success)
    exact absurd ((mem_roots g).mpr ⟨listed,sources⟩) (of_decide_eq_true below)
  · intro h member
    have none : s.handlers = [] := unstarted.handlers
    have member : h ∈ s.handlers := member
    simp [none] at member
  · exact fun succeeded => absurd succeeded (unstarted.not_allSucceeded completable)

theorem tracked_step (g : AcceptedGraph) (completable : Completable g.graph)
    (accounted : Accounted g.graph s) (context : Context g.graph s)
    (tracked : Tracked g.graph s) (unstarted : s.orchestrator = .initSet → Unstarted g.graph s)
    (allowed : orderly g.graph s label) (none : ∀ n ∈ ids g.graph, ¬s.infra.Exhausted n)
    (step : (system g.graph).step label s = some t) : Tracked g.graph t := by
  have known : ∀ n c, c ∈ children g.graph n → c ∈ ids g.graph := fun n c child => g.child_mem child
  have started : ∀ (i : Nat) h, s.handlers[i]? = some h → s.orchestrator ≠ .initSet := by
    intro i h here initial
    simp [(unstarted initial).handlers] at here
  cases faultless_cases allowed.1.1 step with
  | call here call =>
    exact tracked.act accounted context completable known (started _ _ here) here (.call call) none
  | @finish i r err h here inside =>
    have act : Act g.graph s.infra h.msg 0 h.pc (s.infra.record (.finished h.msg.nodeID err.isNone))
        (.updateStatus r err) := by
      rw [inside]
      exact .finish
    exact tracked.act accounted context completable known (started _ _ here) here act none
  | @orchestrate x o orchestration =>
    by_cases initial : s.orchestrator = .initSet
    · rw [initial] at orchestration
      cases orchestration
      exact (unstarted initial).initSet completable _
    · exact tracked.outside (orchestrate_outside orchestration) (orchestration.set initial) fun _ => initial
  | deliver queued => exact tracked.outside (deliver_outside queued) rfl id
  | mature waiting => exact tracked.outside (mature_outside waiting) rfl id
  | expireSet =>
    have set : s.infra.runningSet = ∅ := by
      rcases allowed.2 with set | ⟨n,listed,exhausted⟩
      · exact set
      · exact absurd exhausted (none n listed)
    exact tracked.outside (expire_outside ∅ _) set.symm id
  | expireLock => exact tracked.outside (expire_outside _ false) rfl id

theorem reach_context (g : AcceptedGraph) (sources : SourceTriggers g.graph)
    (reach : Reach (system g.graph) exclusive s) : Context g.graph s :=
  ⟨reach_paced reach,reach_tasked (fun _ _ child => child_task g sources child)
    (reach.mono fun _ _ ok => ok.1),reach_sequenced reach⟩

theorem reach_accounted (g : AcceptedGraph) (completable : Completable g.graph)
    (reach : Reach (system g.graph) (orderly g.graph) s) :
    Accounted g.graph s ∧ ((∀ n ∈ ids g.graph, ¬s.infra.Exhausted n) → Tracked g.graph s) := by
  refine Reach.invariant (fun s => Accounted g.graph s ∧
    ((∀ n ∈ ids g.graph, ¬s.infra.Exhausted n) → Tracked g.graph s)) ?_ ?_ reach
  · have unstarted : Unstarted g.graph (system g.graph).init := reach_unstarted .refl rfl
    have unfailed : ∀ n, ((createWorkflowRun g.graph).nodeRuns n).status ≠ .failed := by
      intro n
      simp only [createWorkflowRun]
      split <;> simp
    refine ⟨⟨?_,?_,?_,.inl rfl⟩,fun _ => ⟨?_,?_,?_,?_⟩⟩
    · exact fun n failed => absurd failed (unfailed n)
    · exact fun n _ exhausted => absurd exhausted.1 (unfailed n)
    · intro h member
      simp [system] at member
    · exact fun started => absurd rfl started
    · intro n present
      simp [system,createWorkflowRun] at present
    · intro h member
      simp [system] at member
    · exact fun succeeded => absurd succeeded (unstarted.not_allSucceeded completable)
  · rintro s label t reach ⟨accounted,tracked⟩ allowed step
    have exclusive := reach.mono fun _ _ ok => ok.1
    have context := reach_context g completable.sources exclusive
    have unstarted := reach_unstarted (exclusive.mono fun _ _ ok => ok.1)
    have turn := faultless_turn (faultless_cases allowed.1.1 step)
    constructor
    · cases turn with
      | act here act => exact accounted.act context tracked here act
      | outside outside => exact accounted.outside outside
    · intro none
      have before : ∀ n ∈ ids g.graph, ¬s.infra.Exhausted n := by
        intro n listed exhausted
        apply none n listed
        cases turn with
        | act here act =>
          exact act.exhausted (context.paced.agrees _ (List.mem_of_getElem? here)) exhausted
        | outside outside =>
          rw [Infra.Exhausted,outside.same.nodeRuns]
          exact exhausted
      exact tracked_step g completable accounted context (tracked before) unstarted allowed before step

/-- When nothing is left, a pending node run has a parent that did not succeed, so without
an exhausted node every node succeeded. -/
theorem Quiescent.allSucceeded (g : AcceptedGraph) (quiescent : Quiescent s) (context : Context g.graph s)
    (wakeful : Wakeful g.graph s) (accounted : Accounted g.graph s)
    (none : ∀ n ∈ ids g.graph, ¬s.infra.Exhausted n) : s.infra.AllSucceeded g.graph := by
  have silent : ∀ n, ¬s.infra.Announced n := by
    rintro n ⟨m,member,_⟩
    simp [quiescent.queue,quiescent.delayed] at member
  intro n
  induction n using g.induction with
  | step n above =>
    intro listed
    cases status : (s.infra.nodeRuns n).status with
    | success => rfl
    | running =>
      obtain ⟨h,member,_,executing⟩ := context.paced.running n status
      rw [quiescent.handlers h member] at executing
      exact absurd executing id
    | failed =>
      have bound := context.paced.bounded n
      by_cases left : (s.infra.nodeRuns n).retryCount < 3
      · rcases accounted.retried n status left with announced | ⟨h,member,_,retries⟩
        · exact absurd announced (silent n)
        · rw [quiescent.handlers h member] at retries
          exact absurd retries id
      · have last : (s.infra.nodeRuns n).retryCount = 3 := by omega
        exact absurd ⟨status,last⟩ (none n listed)
    | pending =>
      have ready : s.infra.Ready g.graph n :=
        ⟨status,fun p parent => above p parent (g.parent_mem parent)⟩
      rcases wakeful.awake n listed ready with announced | ⟨h,member,minds⟩ | minds
      · exact absurd announced (silent n)
      · rw [quiescent.handlers h member] at minds
        exact absurd minds id
      · rw [quiescent.returned] at minds
        exact absurd minds id

/-- What the node runs say when nothing is left to do, the run says. -/
theorem Quiescent.terminal (g : AcceptedGraph) (quiescent : Quiescent s) (fresh : s.infra.Fresh)
    (context : Context g.graph s) (wakeful : Wakeful g.graph s) (accounted : Accounted g.graph s)
    (finalizing : (∀ n ∈ ids g.graph, ¬s.infra.Exhausted n) → s.infra.AllSucceeded g.graph →
      s.infra.run.status = .success ∨ ∃ h ∈ s.handlers, h.pc.Finalizing) : s.Terminal g.graph := by
  have used : ∀ n, (s.infra.nodeRuns n).retryCount = 3 → (s.infra.nodeRuns n).status ≠ .success →
      s.infra.Exhausted n := by
    intro n three unsuccessful
    cases status : (s.infra.nodeRuns n).status with
    | success => exact absurd status unsuccessful
    | failed => exact ⟨status,three⟩
    | pending =>
      have none := fresh n status
      omega
    | running =>
      obtain ⟨h,member,_,executing⟩ := context.paced.running n status
      rw [quiescent.handlers h member] at executing
      exact absurd executing id
  by_cases some : ∃ n ∈ ids g.graph, s.infra.Exhausted n
  · obtain ⟨n,listed,exhausted⟩ := some
    have failed : s.infra.run.status = .failed := by
      rcases accounted.failing n listed exhausted with failed | ⟨h,member,_,failing⟩
      · exact failed
      · rw [quiescent.handlers h member] at failing
        exact absurd failing id
    refine ⟨.inr failed,?_,?_⟩
    · rw [failed]
      refine ⟨fun success => by contradiction,fun succeeded => ?_⟩
      exact absurd succeeded (exhausted_not_succeeded listed exhausted)
    · refine ⟨fun _ => ⟨n,listed,exhausted.2,by rw [exhausted.1]; simp⟩,fun _ => failed⟩
  · have none : ∀ n ∈ ids g.graph, ¬s.infra.Exhausted n :=
      fun n listed exhausted => some ⟨n,listed,exhausted⟩
    have succeeded := quiescent.allSucceeded g context wakeful accounted none
    have success : s.infra.run.status = .success := by
      rcases finalizing none succeeded with success | ⟨h,member,finalizing⟩
      · exact success
      · rw [quiescent.handlers h member] at finalizing
        exact absurd finalizing id
    refine ⟨.inl success,⟨fun _ => succeeded,fun _ => success⟩,?_⟩
    rw [success]
    refine ⟨fun failed => by contradiction,?_⟩
    rintro ⟨n,listed,three,unsuccessful⟩
    exact absurd (used n three unsuccessful) (none n listed)

/-- A run with nothing left to do is over: it succeeded exactly when every node run did,
and failed exactly when some node used up its attempts without success. -/
theorem quiescent_terminal (g : AcceptedGraph) (completable : Completable g.graph)
    (reach : Reach (system g.graph) (orderly g.graph) s) (quiescent : Quiescent s) :
    s.Terminal g.graph := by
  have exclusive := reach.mono fun _ _ ok => ok.1
  have context := reach_context g completable.sources exclusive
  have wakeful := reach_wakeful completable.sources (exclusive.mono fun _ _ ok => ok.1)
  have fresh := reach_fresh (reach.mono fun _ _ _ => trivial)
  obtain ⟨accounted,tracked⟩ := reach_accounted g completable reach
  exact quiescent.terminal g fresh context wakeful accounted fun none => (tracked none).finalizing

theorem chain_quiescent_terminal : ∃ s : State, Quiescent s ∧ s.Terminal chain.graph ∧
    s.infra.run = ⟨.success,some 9⟩ := by
  obtain ⟨s,reach,quiescent,run⟩ : ∃ s, Reach (system chain.graph) (orderly chain.graph) s ∧
      Quiescent s ∧ s.infra.run = ⟨.success,some 9⟩ :=
    follow_exists (List.flatten [List.replicate 5 (.orchestrate .ok), [.deliver ⟨2,0⟩],
      List.replicate 6 (.handle 0 .ok 1), [.finish 0 none], List.replicate 6 (.handle 0 .ok 2),
      [.deliver ⟨3,0⟩], List.replicate 6 (.handle 1 .ok 3), [.finish 1 none],
      List.replicate 7 (.handle 1 .ok 9)]) (by decide +kernel)
  exact ⟨s,quiescent,quiescent_terminal chain (by decide) reach quiescent,run⟩

/-- A trigger and nothing to do. -/
def idleTrigger : AcceptedGraph where
  graph := bare [(1,.trigger)] []
  nonempty := by decide
  distinct := by decide
  simple := by decide
  accepted := ⟨.insertion,rfl⟩

/-- Nobody handles a message, so nobody finishes the run. -/
theorem idleTrigger_stays_running : ¬∀ (g : AcceptedGraph) (s : State),
    Reach (system g.graph) faultFree s → Quiescent s → s.Terminal g.graph := by
  intro claim
  obtain ⟨s,reach,quiescent,running⟩ : ∃ s, Reach (system idleTrigger.graph) faultFree s ∧
      Quiescent s ∧ s.infra.run.status = .running :=
    follow_exists (List.replicate 4 (.orchestrate .ok)) (by decide)
  have ended := (claim idleTrigger s reach quiescent).ended
  simp [running] at ended

end TinyAutomator.Run
