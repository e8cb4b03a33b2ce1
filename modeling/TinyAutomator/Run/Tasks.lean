import TinyAutomator.Run.Attempts
import TinyAutomator.Run.Causality

/-! Tasks follow the edges: only actions get messages, and a node run leaves 'pending'
only after its parents succeeded. -/
namespace TinyAutomator.Run

open Transition

/-- A node that has a task of its own. -/
def Task (g : WorkflowGraph) (n : NodeID) : Prop := n ∈ ids g ∧ isTrigger g n = false

instance (g : WorkflowGraph) : DecidablePred (Task g) := fun n =>
  inferInstanceAs (Decidable (n ∈ ids g ∧ isTrigger g n = false))

def OrchestratorPc.Tasks (g : WorkflowGraph) : OrchestratorPc → Prop
  | .enqueueRoot root rest => ∀ n ∈ root :: rest, n ∈ ids g
  | .publishChildren _ children rest => (∀ c ∈ children, Task g c) ∧ ∀ n ∈ rest, n ∈ ids g
  | .publishStatus _ rest => ∀ n ∈ rest, n ∈ ids g
  | .publishRoot root rest => Task g root ∧ ∀ n ∈ rest, n ∈ ids g
  | .initSet | .returned | .failed => True

def Pc.Tasks (g : WorkflowGraph) : Pc → Prop
  | .publishChildren rest => ∀ c ∈ rest, Task g c
  | _ => True

/-- Messages, goroutines and what is about to be published concern actions only. -/
structure Tasked (g : WorkflowGraph) (s : State) : Prop where
  messages : ∀ m ∈ s.infra.queue ++ s.infra.delayed, Task g m.nodeID
  handlers : ∀ h ∈ s.handlers, Task g h.msg.nodeID ∧ h.pc.Tasks g
  orchestrator : s.orchestrator.Tasks g

/-- Past the check of the parents and not past the write of the outcome. -/
def Pc.Entered : Pc → Prop
  | .getNodeRun => True
  | pc => pc.Attempting

structure Sequenced (g : WorkflowGraph) (s : State) : Prop where
  triggers : ∀ n, isTrigger g n = true → (s.infra.nodeRuns n).status = .success
  parents : ∀ n, isTrigger g n = false → (s.infra.nodeRuns n).status ≠ .pending →
    ∀ p ∈ parents g n, (s.infra.nodeRuns p).status = .success
  entered : ∀ h ∈ s.handlers, h.pc.Entered →
    ∀ p ∈ Run.parents g h.msg.nodeID, (s.infra.nodeRuns p).status = .success

variable {g : WorkflowGraph} {s t : State} {x y : Infra} {m : Message} {now : Int} {pc pc' : Pc}
  {i : Nat} {h : Handler} {n : NodeID} {label : Label} {o o' : OrchestratorPc}

/-- In an accepted graph whose triggers are sources, what an edge ends in is a task. -/
theorem child_task (g : AcceptedGraph) (sources : SourceTriggers g.graph) {n c : NodeID}
    (child : c ∈ children g.graph n) : Task g.graph c := by
  refine ⟨g.child_mem child,?_⟩
  by_contra is
  have none := sources.parents (by simpa using is)
  have parent : n ∈ parents g.graph c := (mem_parents_iff_children g.graph).mpr child
  rw [none] at parent
  simp at parent

theorem publishing_tasks {rest : List NodeID} (tasks : ∀ c ∈ rest, Task g c) :
    (publishing rest).Tasks g := by
  cases rest with
  | nil => trivial
  | cons c rest => exact tasks

theorem Act.tasks (act : Act g x m now pc y pc') (child : ∀ n, ∀ c ∈ children g n, Task g c)
    (own : Task g m.nodeID) (old : ∀ m ∈ x.queue ++ x.delayed, Task g m.nodeID) (tasks : pc.Tasks g) :
    (∀ m ∈ y.queue ++ y.delayed, Task g m.nodeID) ∧ pc'.Tasks g := by
  cases act with
  | finish => exact ⟨old,trivial⟩
  | call call =>
    cases call with
    | getChildren =>
      refine ⟨old,publishing_tasks ?_⟩
      exact fun c member => child _ c (List.mem_of_mem_filter member)
    | @publishChild c rest =>
      refine ⟨?_,publishing_tasks fun c member => tasks c (List.mem_cons_of_mem _ member)⟩
      intro k member
      simp only [Infra.publish,List.mem_append,List.mem_singleton] at member
      rcases member with (before | rfl) | before
      · exact old k (List.mem_append_left _ before)
      · exact tasks c List.mem_cons_self
      · exact old k (List.mem_append_right _ before)
    | retry =>
      refine ⟨?_,trivial⟩
      intro k member
      simp only [Infra.publishRetry,List.mem_append,List.mem_singleton] at member
      rcases member with before | before | rfl
      · exact old k (List.mem_append_left _ before)
      · exact old k (List.mem_append_right _ before)
      · exact own
    | _ => exact ⟨old,trivial⟩

theorem nextRoot_tasks {rest : List NodeID} (known : ∀ n ∈ rest, n ∈ ids g) : (nextRoot rest).Tasks g := by
  cases rest with
  | nil => trivial
  | cons root rest => exact known

theorem Orchestration.tasks (orchestration : Orchestration g x o y o')
    (child : ∀ n, ∀ c ∈ children g n, Task g c) (old : ∀ m ∈ x.queue ++ x.delayed, Task g m.nodeID)
    (tasks : o.Tasks g) : (∀ m ∈ y.queue ++ y.delayed, Task g m.nodeID) ∧ o'.Tasks g := by
  have published : ∀ c, Task g c → ∀ m ∈ (x.publish c).queue ++ (x.publish c).delayed, Task g m.nodeID := by
    intro c task k member
    simp only [Infra.publish,List.mem_append,List.mem_singleton] at member
    rcases member with (before | rfl) | before
    · exact old k (List.mem_append_left _ before)
    · exact task
    · exact old k (List.mem_append_right _ before)
  cases orchestration with
  | initSet =>
    refine ⟨old,nextRoot_tasks ?_⟩
    exact fun n root => ((mem_roots g).mp root).1
  | trigger =>
    refine ⟨old,?_,fun n member => tasks n (List.mem_cons_of_mem _ member)⟩
    exact fun c member => child _ c (List.mem_of_mem_filter member)
  | action is =>
    exact ⟨old,⟨tasks _ List.mem_cons_self,is⟩,fun n member => tasks n (List.mem_cons_of_mem _ member)⟩
  | inProgress => exact ⟨old,nextRoot_tasks fun n member => tasks n (List.mem_cons_of_mem _ member)⟩
  | publishedAll => exact ⟨old,tasks.2⟩
  | publishChild =>
    exact ⟨published _ (tasks.1 _ List.mem_cons_self),
      fun c member => tasks.1 c (List.mem_cons_of_mem _ member),tasks.2⟩
  | publishStatus => exact ⟨old,nextRoot_tasks tasks⟩
  | publishRoot => exact ⟨published _ tasks.1,nextRoot_tasks tasks.2⟩

theorem Tasked.step (tasked : Tasked g s) (child : ∀ n, ∀ c ∈ children g n, Task g c)
    (fine : label.FaultFree) (step : (system g).step label s = some t) : Tasked g t := by
  cases faultless_cases fine step with
  | @call i now h x pc here call =>
    obtain ⟨own,tasks⟩ := tasked.handlers h (List.mem_of_getElem? here)
    obtain ⟨messages,tasks⟩ := (Act.call call).tasks child own tasked.messages tasks
    exact ⟨messages,Pool.forall_set tasked.handlers ⟨own,tasks⟩,tasked.orchestrator⟩
  | @finish i r err h here inside =>
    have own := (tasked.handlers h (List.mem_of_getElem? here)).1
    exact ⟨tasked.messages,Pool.forall_set tasked.handlers ⟨own,trivial⟩,tasked.orchestrator⟩
  | orchestrate orchestration =>
    obtain ⟨messages,tasks⟩ := orchestration.tasks child tasked.messages tasked.orchestrator
    exact ⟨messages,tasked.handlers,tasks⟩
  | @deliver m queued =>
    have own := tasked.messages m (List.mem_append_left _ queued)
    refine ⟨?_,Pool.forall_append tasked.handlers ⟨own,trivial⟩,tasked.orchestrator⟩
    intro k member
    apply tasked.messages k
    rcases List.mem_append.mp member with left | waiting
    · exact List.mem_append_left _ (List.mem_of_mem_erase left)
    · exact List.mem_append_right _ waiting
  | @mature m waiting =>
    refine ⟨?_,tasked.handlers,tasked.orchestrator⟩
    intro k member
    apply tasked.messages k
    simp only [List.mem_append,List.mem_singleton] at member ⊢
    rcases member with (queued | rfl) | left
    · exact .inl queued
    · exact .inr waiting
    · exact .inr (List.mem_of_mem_erase left)
  | expireSet => exact ⟨tasked.messages,tasked.handlers,tasked.orchestrator⟩
  | expireLock => exact ⟨tasked.messages,tasked.handlers,tasked.orchestrator⟩

theorem reach_tasked (child : ∀ n, ∀ c ∈ children g n, Task g c)
    (reach : Reach (system g) faultFree s) : Tasked g s := by
  refine Reach.invariant (Tasked g) ?_ ?_ reach
  · constructor
    · intro m member
      simp [system,createWorkflowRun] at member
    · intro h member
      simp [system] at member
    · trivial
  · intro s label t _ tasked fine step
    exact tasked.step child fine step

theorem Act.success (act : Act g x m now pc y pc')
    (agrees : pc.Agrees (x.nodeRuns m.nodeID) m.retryCount)
    (success : (x.nodeRuns n).status = .success) : (y.nodeRuns n).status = .success := by
  rw [(act.later agrees n).settled (.inl success)]
  exact success

theorem Act.exhausted (act : Act g x m now pc y pc')
    (agrees : pc.Agrees (x.nodeRuns m.nodeID) m.retryCount)
    (exhausted : x.Exhausted n) : y.Exhausted n := by
  rw [Infra.Exhausted,(act.later agrees n).settled (.inr exhausted)]
  exact exhausted

theorem Act.entered (act : Act g x m now pc y pc') (entered : pc'.Entered) :
    pc.Entered ∨ ∀ p ∈ parents g m.nodeID, (x.nodeRuns p).status = .success := by
  cases act with
  | finish => exact .inl trivial
  | call call =>
    cases call with
    | ready all => exact .inr all
    | attempt | getNode | markRunning | publishRunning | startAction => exact .inl trivial
    | getChildren =>
      cases h : x.pendingChildren g m.nodeID <;> rw [h] at entered <;> exact absurd entered id
    | @publishChild c rest => cases rest <;> exact absurd entered id
    | _ => exact absurd entered id

/-- A node run is written only by a goroutine that has entered its node. -/
theorem Act.begun (act : Act g x m now pc y pc') (begun : (y.nodeRuns n).status ≠ .pending) :
    (x.nodeRuns n).status ≠ .pending ∨ n = m.nodeID ∧ pc.Entered := by
  by_cases own : n = m.nodeID
  · subst own
    by_cases attempting : pc.Attempting
    · right
      refine ⟨rfl,?_⟩
      cases pc <;> trivial
    · left
      rw [← act.unwritten attempting]
      exact begun
  · left
    rw [← act.elsewhere own]
    exact begun

theorem Sequenced.act (sequenced : Sequenced g s) (paced : Paced s)
    (here : s.handlers[i]? = some h) (act : Act g s.infra h.msg now h.pc x pc) :
    Sequenced g (setHandler s i h x pc) := by
  have member := List.mem_of_getElem? here
  have agrees := paced.agrees h member
  constructor
  · exact fun n is => act.success agrees (sequenced.triggers n is)
  · intro n handled begun p parent
    apply act.success agrees
    rcases act.begun begun with before | ⟨rfl,entered⟩
    · exact sequenced.parents n handled before p parent
    · exact sequenced.entered h member entered p parent
  · intro k found entered p parent
    apply act.success agrees
    rcases Pool.mem_set_cases found with rfl | ⟨j,_,there⟩
    · rcases act.entered entered with before | all
      · exact sequenced.entered h member before p parent
      · exact all p parent
    · exact sequenced.entered k (List.mem_of_getElem? there) entered p parent

theorem Sequenced.outside (sequenced : Sequenced g s) (outside : Outside s t) : Sequenced g t := by
  constructor
  · rw [outside.same.nodeRuns]; exact sequenced.triggers
  · rw [outside.same.nodeRuns]; exact sequenced.parents
  · intro h member entered
    rw [outside.same.nodeRuns]
    rcases outside.newer h member with old | ⟨begins,_⟩
    · exact sequenced.entered h old entered
    · rw [begins] at entered
      exact absurd entered id

theorem reach_sequenced (reach : Reach (system g) exclusive s) : Sequenced g s := by
  refine Reach.invariant (Sequenced g) ?_ ?_ reach
  · constructor
    · intro n is
      simp [system,createWorkflowRun,is]
    · intro n handled begun
      simp [system,createWorkflowRun,handled] at begun
    · intro h member
      simp [system] at member
  · intro s label t reach sequenced allowed step
    cases faultless_turn (faultless_cases allowed.1 step) with
    | act here act _ => exact sequenced.act (reach_paced reach) here act
    | outside outside => exact sequenced.outside outside

end TinyAutomator.Run
