import TinyAutomator.Run.Orphans
import TinyAutomator.Run.Quiescent
import TinyAutomator.Lib.Budget

/-! Runs come to an end. Every message is worth more than all it can lead to, its retries and
the messages to the children among them, so that only a redelivery brings in new work. -/
namespace TinyAutomator.Run

open Transition

/-- What a run can go on doing: every step but the expiry of a Redis key. -/
def Label.works : Label → Bool
  | .expireSet | .expireLock => false
  | _ => true

/-- A goroutine or OrchestrateWorkflow dies, a message comes again, or a call has no effect. -/
def Label.disturbs : Label → Bool
  | .redeliver _ | .crash _ | .crashOrchestrator | .handle _ .fail _ => true
  | _ => false

/-- The calls of one delivery: its own, and those of four deliveries of each child. -/
def cost (g : WorkflowGraph) : Nat → NodeID → Nat
  | 0, _ => 24
  | fuel + 1, n => ((children g n).map fun c => 4 * cost g fuel c + 1).sum + 24

variable {g : WorkflowGraph} {s t : State} {x y : Infra} {m : Message} {now : Int} {o : Outcome}
  {pc pc' : Pc} {i : Nat} {h : Handler} {n k : NodeID} {label : Label} {q q' : OrchestratorPc}
  {costs : NodeID → Nat}

/-- A delivery is worth more than the deliveries of the children that it can lead to. -/
def Costs (g : WorkflowGraph) (costs : NodeID → Nat) : Prop :=
  ∀ n, costs n = ((children g n).map fun c => 4 * costs c + 1).sum + 24

theorem AcceptedGraph.exists_costs (g : AcceptedGraph) : ∃ costs, Costs g.graph costs := by
  obtain ⟨depth,below⟩ := g.layered.2
  let deepest := ((ids g.graph).map depth).sum
  have bound : ∀ n, ∀ c ∈ children g.graph n, depth n + 1 = depth c ∧ depth c ≤ deepest := by
    intro n c child
    refine ⟨(below _ ((mem_children g.graph).mp child)).symm,?_⟩
    exact List.single_le_sum (fun _ _ => Nat.zero_le _) _ (List.mem_map_of_mem (g.child_mem child))
  refine ⟨fun n => cost g.graph (deepest - depth n) n,fun n => ?_⟩
  show cost g.graph (deepest - depth n) n =
    ((children g.graph n).map fun c => 4 * cost g.graph (deepest - depth c) c + 1).sum + 24
  cases left : deepest - depth n with
  | zero =>
    have leaf : children g.graph n = [] := by
      apply List.eq_nil_iff_forall_not_mem.mpr
      intro c child
      have := bound n c child
      omega
    simp [cost,leaf]
  | succ fuel =>
    have same : ∀ c ∈ children g.graph n,
        4 * cost g.graph fuel c + 1 = 4 * cost g.graph (deepest - depth c) c + 1 := by
      intro c child
      have deeper := bound n c child
      rw [show deepest - depth c = fuel by omega]
    rw [cost,List.map_congr_left same]

/-- The retries left to a message. -/
def Message.retries (costs : NodeID → Nat) (m : Message) : Nat := (maxRetries - m.retryCount) * costs m.nodeID

/-- The calls that a message at the broker can lead to. -/
def Message.load (costs : NodeID → Nat) (m : Message) : Nat := m.retries costs + costs m.nodeID

def loads (costs : NodeID → Nat) (rest : List NodeID) : Nat := (rest.map fun c => 4 * costs c + 1).sum

def Infra.load (costs : NodeID → Nat) (x : Infra) : Nat :=
  (x.queue.map (·.load costs)).sum + (x.delayed.map fun m => m.load costs + 1).sum

/-- The calls left to a goroutine, and those of the messages it may still publish. -/
def Pc.load (costs : NodeID → Nat) (m : Message) : Pc → Nat
  | .getParents => m.retries costs + costs m.nodeID - 1
  | .getNodeRun => m.retries costs + costs m.nodeID - 2
  | .getNode _ => m.retries costs + costs m.nodeID - 3
  | .markRunning _ => m.retries costs + costs m.nodeID - 4
  | .publishRunning _ => m.retries costs + costs m.nodeID - 5
  | .startAction _ => m.retries costs + costs m.nodeID - 6
  | .inAction _ => m.retries costs + costs m.nodeID - 7
  | .updateStatus _ _ => m.retries costs + costs m.nodeID - 8
  | .publishStatus _ _ => m.retries costs + costs m.nodeID - 9
  | .getChildren => m.retries costs + costs m.nodeID - 10
  | .publishChildren rest => m.retries costs + loads costs rest + 12
  | .markComplete => m.retries costs + 11
  | .getPending => m.retries costs + 10
  | .getNodeRuns => m.retries costs + 9
  | .completeRun _ => m.retries costs + 8
  | .completeFailed => m.retries costs + 5
  | .failed => m.retries costs + 4
  | .acquireLock _ => 4
  | .addPending _ => 3
  | .ack | .nack => 1
  | .done => 0

/-- The calls left to OrchestrateWorkflow, and those of the messages it may still publish. -/
def OrchestratorPc.load (g : WorkflowGraph) (costs : NodeID → Nat) : OrchestratorPc → Nat
  | .initSet => (((getRootNodes g).map (·.id)).map fun r => 4 * costs r + 3).sum + 1
  | .enqueueRoot root rest => 4 * costs root + 3 + (rest.map fun r => 4 * costs r + 3).sum
  | .publishChildren _ children rest => loads costs children + 2 + (rest.map fun r => 4 * costs r + 3).sum
  | .publishStatus _ rest => 1 + (rest.map fun r => 4 * costs r + 3).sum
  | .publishRoot root rest => 4 * costs root + 1 + (rest.map fun r => 4 * costs r + 3).sum
  | .returned | .failed => 0

def State.load (g : WorkflowGraph) (costs : NodeID → Nat) (s : State) : Nat :=
  (s.handlers.map fun h => h.pc.load costs h.msg).sum + s.infra.load costs + s.orchestrator.load g costs

theorem Costs.least (worth : Costs g costs) : 24 ≤ costs n := by
  rw [worth]
  omega

/-- The children that are still pending are paid for by the delivery. -/
theorem Costs.pendingChildren (worth : Costs g costs) : loads costs (x.pendingChildren g n) + 24 ≤ costs n := by
  have less : loads costs (x.pendingChildren g n) ≤ loads costs (children g n) := by
    apply List.Sublist.sum_le_sum
    · exact List.filter_sublist.map _
    · exact fun _ _ => Nat.zero_le _
  have whole := worth n
  rw [loads] at less
  simp only [loads] at less ⊢
  omega

theorem publishing_load {rest : List NodeID} :
    (publishing rest).load costs m ≤ m.retries costs + loads costs rest + 12 := by
  cases rest <;> simp [publishing,Pc.load,loads]

@[simp] theorem publish_load {c : NodeID} : (x.publish c).load costs = x.load costs + 4 * costs c := by
  simp only [Infra.load,Infra.publish,List.map_append,List.sum_append,List.map_cons,List.sum_cons,
    List.map_nil,List.sum_nil,Message.load,Message.retries,maxRetries]
  omega

@[simp] theorem requeue_load : (x.requeue m).load costs = x.load costs + m.load costs := by
  simp only [Infra.load,Infra.requeue,List.map_append,List.sum_append,List.map_cons,List.sum_cons,
    List.map_nil,List.sum_nil]
  omega

theorem publishRetry_load (left : m.retryCount < maxRetries) :
    (x.publishRetry m).load costs = x.load costs + m.retries costs + 1 := by
  have next : maxRetries - m.retryCount = maxRetries - (m.retryCount + 1) + 1 := by omega
  simp only [Infra.load,Infra.publishRetry,List.map_append,List.sum_append,List.map_cons,List.sum_cons,
    List.map_nil,List.sum_nil,Message.load,Message.retries]
  rw [next,Nat.add_mul,Nat.one_mul]
  omega

/-- A call of a goroutine, by what it adds to the work at the broker and where it goes on. -/
theorem call_load (added : Nat) {effect : Infra → Infra} {next err : Pc} {left : Nat}
    (called : some (call x o effect next err) = some (y,pc'))
    (adds : (effect x).load costs = x.load costs + added) (goes : next.load costs m + added < left)
    (fails : err.load costs m + added < left) : pc'.load costs m + y.load costs < left + x.load costs := by
  simp only [call,Option.some.injEq,Prod.mk.injEq] at called
  obtain ⟨rfl,rfl⟩ := called
  split <;> split <;> omega

/-- Every call takes the run closer to its end, unless it has a message go back to the queue. -/
theorem next_closer (worth : Costs g costs) (next : pc.next g x m o now = some (y,pc')) :
    (y = x.requeue m ∧ pc' = .done ∧ o = .fail) ∨
      pc'.load costs m + y.load costs < pc.load costs m + x.load costs := by
  have least : 24 ≤ costs m.nodeID := worth.least
  cases pc with
  | inAction r => simp [Pc.next] at next
  | done => simp [Pc.next] at next
  | getParents | getNodeRun =>
    right
    apply call_load 0 next rfl
    · split <;> simp only [Pc.load] <;> omega
    · simp only [Pc.load]
      omega
  | publishStatus r err =>
    right
    have goes : ∀ c : Pc, c = (if err.isSome then (if r = 3 then .completeFailed else .failed) else .getChildren) →
        c.load costs m + 0 < m.retries costs + costs m.nodeID - 9 := by
      rintro c rfl
      split
      · split <;> simp only [Pc.load] <;> omega
      · simp only [Pc.load]
        omega
    exact call_load 0 next rfl (goes _ rfl) (goes _ rfl)
  | startAction r =>
    cases next
    right
    show _ + x.load costs < _
    simp only [Pc.load]
    omega
  | getChildren =>
    right
    have published : (publishing (x.pendingChildren g m.nodeID)).load costs m ≤ _ := publishing_load
    have paid := worth.pendingChildren (x := x) (n := m.nodeID)
    apply call_load 0 next rfl
    · show (publishing _).load costs m + 0 < m.retries costs + costs m.nodeID - 10
      omega
    · simp only [Pc.load]
      omega
  | publishChildren rest =>
    right
    cases rest with
    | nil =>
      cases next
      simp only [Pc.load,loads,List.map_nil,List.sum_nil]
      omega
    | cons c rest =>
      have published : (publishing rest).load costs m ≤ _ := publishing_load
      apply call_load (4 * costs c) next publish_load
      · simp only [Pc.load,loads,List.map_cons,List.sum_cons] at published ⊢
        omega
      · simp only [Pc.load,loads,List.map_cons,List.sum_cons]
        omega
  | markComplete =>
    right
    simp only [Pc.next] at next
    split at next
    next =>
      cases next
      simp only [Pc.load]
      omega
    next =>
      apply call_load 0 next rfl
      · split <;> simp only [Pc.load] <;> omega
      · simp only [Pc.load]
        omega
  | getPending =>
    right
    apply call_load 0 next rfl
    · split <;> simp only [Pc.load] <;> omega
    · simp only [Pc.load]
      omega
  | acquireLock pending =>
    right
    simp only [Pc.next] at next
    split at next
    next =>
      cases next
      simp only [Pc.load]
      omega
    next => apply call_load 0 next rfl <;> simp only [Pc.load] <;> omega
  | failed =>
    simp only [Pc.next] at next
    split at next
    next =>
      cases o with
      | fail => cases next; exact .inl ⟨rfl,rfl,rfl⟩
      | ok | lost =>
        cases next
        right
        show _ + x.load costs < _
        simp only [Pc.load]
        omega
    next left =>
      right
      apply call_load (m.retries costs + 1) next (publishRetry_load (by omega))
      · simp only [Pc.load]
        omega
      · simp only [Pc.load]
        omega
  | ack | nack =>
    cases o with
    | fail => cases next; exact .inl ⟨rfl,rfl,rfl⟩
    | ok | lost =>
      cases next
      right
      show _ + x.load costs < _
      simp only [Pc.load]
      omega
  | _ =>
    right
    apply call_load 0 next rfl <;> simp only [Pc.load] <;> omega

theorem nextRoot_load {rest : List NodeID} :
    (nextRoot rest).load g costs = (rest.map fun r => 4 * costs r + 3).sum := by
  cases rest <;> simp [nextRoot,OrchestratorPc.load]

theorem Orchestration.closer (orchestration : Orchestration g x q y q') (worth : Costs g costs) :
    q'.load g costs + y.load costs < q.load g costs + x.load costs ∧ x.load costs ≤ y.load costs := by
  cases orchestration with
  | initSet =>
    rw [nextRoot_load]
    show _ + x.load costs < _ ∧ x.load costs ≤ x.load costs
    simp only [OrchestratorPc.load]
    omega
  | @trigger root rest =>
    have paid := worth.pendingChildren (x := x) (n := root)
    simp only [OrchestratorPc.load]
    omega
  | @publishChild root c children rest =>
    simp only [OrchestratorPc.load,loads,List.map_cons,List.sum_cons,publish_load]
    omega
  | inProgress =>
    rw [nextRoot_load]
    simp only [OrchestratorPc.load]
    omega
  | publishStatus =>
    rw [nextRoot_load]
    show _ + x.load costs < _ ∧ x.load costs ≤ x.load costs
    simp only [OrchestratorPc.load]
    omega
  | publishRoot =>
    rw [nextRoot_load,publish_load]
    simp only [OrchestratorPc.load]
    omega
  | _ =>
    simp only [OrchestratorPc.load]
    omega

theorem orchestrate_closer (worth : Costs g costs) (next : q.next g x o = some (y,q')) :
    q'.load g costs + y.load costs < q.load g costs + x.load costs := by
  obtain ⟨z,qz,orchestration,effect,goes⟩ := orchestrate_outcome next
  obtain ⟨closer,grows⟩ := orchestration.closer worth
  have stopped : OrchestratorPc.load g costs .failed = 0 := rfl
  rcases effect with rfl | rfl <;> rcases goes with rfl | rfl <;> omega

theorem Costs.bounded (g : AcceptedGraph) (worth : Costs g.graph costs) :
    ∃ most, ∀ m : Message, m.load costs ≤ most := by
  let highest := ((ids g.graph).map costs).sum + 24
  have bound : ∀ n, costs n ≤ highest := by
    intro n
    by_cases known : n ∈ ids g.graph
    · have : costs n ≤ ((ids g.graph).map costs).sum :=
        List.single_le_sum (fun _ _ => Nat.zero_le _) _ (List.mem_map_of_mem known)
      omega
    · have leaf : children g.graph n = [] := by
        apply List.eq_nil_iff_forall_not_mem.mpr
        intro c child
        exact known (g.layered.1 _ ((mem_children g.graph).mp child)).1
      have least := worth n
      simp only [leaf,List.map_nil,List.sum_nil] at least
      omega
  refine ⟨4 * highest,fun m => ?_⟩
  have own := bound m.nodeID
  have retries : m.retries costs ≤ 3 * costs m.nodeID :=
    Nat.mul_le_mul_right _ (Nat.sub_le _ _)
  rw [Message.load]
  omega

theorem load_set (g : WorkflowGraph) (costs : NodeID → Nat) (x : Infra) (pc : Pc)
    (here : s.handlers[i]? = some h) :
    (setHandler s i h x pc).load g costs + h.pc.load costs h.msg + s.infra.load costs =
      s.load g costs + pc.load costs h.msg + x.load costs := by
  have sum := Pool.sum_set (f := fun h : Handler => h.pc.load costs h.msg) here {h with pc := pc}
  simp only at sum
  simp only [State.load,setHandler]
  omega

/-- Each step but the expiry of a key brings the run closer to its end, or is a disturbance. -/
theorem step_closer (worth : Costs g costs) {most : Nat} (bounded : ∀ m : Message, m.load costs ≤ most)
    (step : (system g).step label s = some t) :
    t.load g costs + (if label.works then 1 else 0) ≤ s.load g costs + if label.disturbs then most + 1 else 0 := by
  have least : ∀ n, 24 ≤ costs n := fun n => worth.least
  cases step_cases step with
  | @orchestrate o x q next =>
    have closer := orchestrate_closer worth next
    show (s.handlers.map _).sum + x.load costs + q.load g costs + 1 ≤ s.load g costs + 0
    rw [State.load]
    omega
  | @handle i o now h x pc here next =>
    have moved := load_set g costs x pc here
    rcases next_closer worth next with ⟨rfl,rfl,rfl⟩ | closer
    · have own := bounded h.msg
      rw [requeue_load] at moved
      have done : Pc.load costs h.msg .done = 0 := rfl
      show _ + 1 ≤ _ + (most + 1)
      omega
    · show _ + 1 ≤ _
      omega
  | @finish i r err h here inside =>
    have moved := load_set g costs (s.infra.record (.finished h.msg.nodeID err.isNone)) (.updateStatus r err) here
    have same : (s.infra.record (.finished h.msg.nodeID err.isNone)).load costs = s.infra.load costs := rfl
    have own := least h.msg.nodeID
    simp only [inside,Pc.load] at moved
    show _ + 1 ≤ _ + 0
    omega
  | @deliver m queued =>
    have taken := List.sum_map_erase (fun m : Message => m.load costs) queued
    have own := least m.nodeID
    simp only [State.load,Infra.load,List.map_append,List.sum_append,List.map_cons,List.sum_cons,List.map_nil,
      List.sum_nil,Pc.load,Message.load] at taken ⊢
    show _ + 1 ≤ _ + 0
    omega
  | @mature m waiting =>
    have taken := List.sum_map_erase (fun m : Message => m.load costs + 1) waiting
    simp only [State.load,Infra.load,List.map_append,List.sum_append,List.map_cons,List.sum_cons,List.map_nil,
      List.sum_nil] at taken ⊢
    show _ + 1 ≤ _ + 0
    omega
  | expireSet | expireLock => exact Nat.le_refl _
  | @redeliver m known =>
    have own := bounded m
    simp only [State.load,requeue_load]
    show _ + 1 ≤ _ + (most + 1)
    omega
  | @crash i h here alive =>
    have moved := load_set g costs (s.infra.requeue h.msg) .done here
    have own := bounded h.msg
    have done : Pc.load costs h.msg .done = 0 := rfl
    rw [requeue_load] at moved
    show _ + 1 ≤ _ + (most + 1)
    omega
  | crashOrchestrator =>
    show (s.handlers.map _).sum + s.infra.load costs + 0 + 1 ≤ s.load g costs + (most + 1)
    rw [State.load]
    omega

theorem exists_pays (g : AcceptedGraph) : ∃ costs credit,
    Pays (system g.graph) anything Label.works Label.disturbs (State.load g.graph costs) credit := by
  obtain ⟨costs,worth⟩ := g.exists_costs
  obtain ⟨most,bounded⟩ := worth.bounded
  exact ⟨costs,most + 1,⟨fun s label t _ step => step_closer worth bounded step⟩⟩

/-- Whatever fails and whoever goes first, a run takes only so many steps for each disturbance. -/
theorem steps_bounded (g : AcceptedGraph) : ∃ budget, ∀ labels s,
    Trace (system g.graph) anything (system g.graph).init labels s →
      labels.countP Label.works ≤ budget * (1 + labels.countP Label.disturbs) := by
  obtain ⟨costs,credit,pays⟩ := exists_pays g
  refine ⟨State.load g.graph costs (system g.graph).init + credit,fun labels s trace => ?_⟩
  have paid := pays.trace trace
  have more : credit * labels.countP Label.disturbs ≤
      (State.load g.graph costs (system g.graph).init + credit) * labels.countP Label.disturbs :=
    Nat.mul_le_mul_right _ (Nat.le_add_left _ _)
  rw [Nat.mul_add,Nat.mul_one]
  omega

/-- The trigger is done, the first action is handled twice because its goroutine dies. -/
def chainCrashed : List Label := List.flatten [List.replicate 5 (.orchestrate .ok), [.deliver ⟨2,0⟩],
  List.replicate 4 (.handle 0 .ok 1), [.crash 0,.deliver ⟨2,0⟩]]

theorem chainCrashed_bounded : ∃ budget s,
    Trace (system chain.graph) anything (system chain.graph).init chainCrashed s ∧
      chainCrashed.countP Label.works ≤ budget * (1 + chainCrashed.countP Label.disturbs) := by
  obtain ⟨budget,bound⟩ := steps_bounded chain
  obtain ⟨s,followed⟩ : ∃ s, follow (system chain.graph) anything chainCrashed (system chain.graph).init = some s :=
    Option.isSome_iff_exists.mp (by decide +kernel)
  exact ⟨budget,s,follow_trace followed,bound chainCrashed s (follow_trace followed)⟩

theorem Orchestration.unfailed (orchestration : Orchestration g x q y q') : q' ≠ .failed := by
  have next : ∀ rest, nextRoot rest ≠ .failed := by
    intro rest
    cases rest <;> simp [nextRoot]
  cases orchestration with
  | initSet | inProgress | publishStatus | publishRoot => exact next _
  | _ => simp

/-- OrchestrateWorkflow fails only when a call of it does. -/
theorem reach_unfailed (reach : Reach (system g) faultFree s) : s.orchestrator ≠ .failed := by
  refine Reach.invariant (fun s => s.orchestrator ≠ .failed) (by simp [system]) ?_ reach
  intro s label t _ unfailed fine step
  cases faultless_cases fine step with
  | orchestrate orchestration => exact orchestration.unfailed
  | _ => exact unfailed

theorem orchestrator_alive (g : WorkflowGraph) (x : Infra) (unfailed : q ≠ .failed) (going : q ≠ .returned) :
    ∃ y q', q.next g x .ok = some (y,q') := by
  cases q with
  | enqueueRoot root rest =>
    simp only [OrchestratorPc.next]
    split
    next => exact ⟨_,_,rfl⟩
    next => split <;> exact ⟨_,_,rfl⟩
  | publishChildren root children rest => cases children <;> exact ⟨_,_,rfl⟩
  | returned => exact absurd rfl going
  | failed => exact absurd rfl unfailed
  | _ => exact ⟨_,_,rfl⟩

/-- Someone who attempts a node is never kept waiting, so a goroutine that is not done can
go on, or the one that it waits for can. -/
theorem handler_moves (here : s.handlers[i]? = some h) (alive : h.pc ≠ .done) :
    CanMove (system g) (orderly g) Label.works s := by
  have moves : ∀ (j : Nat) k, s.handlers[j]? = some k → k.pc ≠ .done → k.Exclusive s →
      CanMove (system g) (orderly g) Label.works s := by
    intro j k there alive exclusive
    by_cases inside : ∃ r, k.pc = .inAction r
    · obtain ⟨r,inside⟩ := inside
      exact ⟨.finish j none,_,rfl,⟨⟨trivial,trivial⟩,trivial⟩,finish_step there inside⟩
    · obtain ⟨y,pc,next⟩ := next_alive g s.infra k.msg 0 (fun r same => inside ⟨r,same⟩) alive
      refine ⟨.handle j .ok 0,_,rfl,⟨⟨rfl,?_⟩,trivial⟩,handle_step there next⟩
      intro k' found
      rw [there] at found
      cases found
      exact exclusive
  by_cases waits : ∃ k ∈ s.handlers, Attempts h.msg.nodeID k
  · obtain ⟨k,member,own,attempting⟩ := waits
    obtain ⟨j,there⟩ := List.mem_iff_getElem?.mp member
    refine moves j k there ?_ ?_
    · intro done
      rw [done] at attempting
      exact attempting
    · intro reads
      rw [reads] at attempting
      exact absurd attempting id
  · exact moves i h here alive fun _ k member attempts => waits ⟨k,member,attempts⟩

/-- A run in which nothing can be done any more has nothing left to do. -/
theorem quiescent_of_stuck (reach : Reach (system g) (orderly g) s)
    (stuck : ¬CanMove (system g) (orderly g) Label.works s) : Quiescent s := by
  constructor
  · by_contra going
    obtain ⟨x,q,next⟩ := orchestrator_alive g s.infra (reach_unfailed (reach.mono fun _ _ ok => ok.1.1)) going
    refine stuck ⟨.orchestrate .ok,{s with infra := x, orchestrator := q},rfl,⟨⟨rfl,trivial⟩,trivial⟩,?_⟩
    simp only [system,step,next]
  · cases queue : s.infra.queue with
    | nil => rfl
    | cons m rest =>
      exact absurd ⟨.deliver m,_,rfl,⟨⟨trivial,trivial⟩,trivial⟩,deliver_step queue⟩ stuck
  · cases delayed : s.infra.delayed with
    | nil => rfl
    | cons m rest =>
      exact absurd ⟨.mature m,_,rfl,⟨⟨trivial,trivial⟩,trivial⟩,mature_step delayed⟩ stuck
  · intro h member
    by_contra alive
    obtain ⟨i,here⟩ := List.mem_iff_getElem?.mp member
    exact stuck (handler_moves here alive)

theorem Quiescent.stuck (quiescent : Quiescent s) : ¬CanMove (system g) (orderly g) Label.works s := by
  rintro ⟨label,t,works,allowed,step⟩
  cases faultless_cases allowed.1.1 step with
  | call here call =>
    rw [quiescent.handlers _ (List.mem_of_getElem? here)] at call
    cases call
  | finish here inside =>
    rw [quiescent.handlers _ (List.mem_of_getElem? here)] at inside
    contradiction
  | orchestrate orchestration =>
    rw [quiescent.returned] at orchestration
    cases orchestration
  | deliver queued => simp [quiescent.queue] at queued
  | mature waiting => simp [quiescent.delayed] at waiting
  | expireSet | expireLock => contradiction

theorem Quiescent.ends (g : AcceptedGraph) (completable : Completable g.graph)
    (reach : Reach (system g.graph) (orderly g.graph) s) (quiescent : Quiescent s) : s.Terminal g.graph := by
  have exclusive := reach.mono fun _ _ ok => ok.1
  have context := reach_context g completable.sources exclusive
  have wakeful := reach_wakeful completable.sources (exclusive.mono fun _ _ ok => ok.1)
  have fresh := reach_fresh (reach.mono fun _ _ _ => trivial)
  obtain ⟨accounted,tracked⟩ := reach_accounted g completable reach
  exact quiescent.terminal g fresh context wakeful accounted fun none => (tracked none).finalizing

theorem exists_spends (g : AcceptedGraph) : ∃ costs credit, Pays (system g.graph) (orderly g.graph)
    Label.works (fun _ => false) (State.load g.graph costs) credit := by
  obtain ⟨costs,credit,pays⟩ := exists_pays g
  refine ⟨costs,credit,⟨fun s label t allowed step => ?_⟩⟩
  have paid := pays.step s label t trivial step
  have quiet : label.disturbs = false := by
    have fine := allowed.1.1
    cases label with
    | handle i o now => rw [show o = .ok from fine]; rfl
    | redeliver | crash | crashOrchestrator => exact absurd fine id
    | _ => rfl
  rw [quiet] at paid
  exact paid

/-- An orderly run that goes on while it can comes to rest, and the run's status then says for good
how its node runs ended. -/
theorem orderly_run_ends (g : AcceptedGraph) (completable : Completable g.graph)
    (run : Execution (system g.graph) (orderly g.graph)) (fair : run.Fair Label.works) :
    ∃ i, ∀ j, i ≤ j → Quiescent (run.state j) ∧ (run.state j).Terminal g.graph := by
  obtain ⟨costs,credit,spends⟩ := exists_spends g
  obtain ⟨i,stuck⟩ := run.settles spends fair
  refine ⟨i,fun j later => ?_⟩
  have quiescent := quiescent_of_stuck (run.reach j) (stuck j later)
  exact ⟨quiescent,quiescent.ends g completable (run.reach j)⟩

/-- The run of the chain in which nothing fails. -/
def chainCompleted : List Label := List.flatten [List.replicate 5 (.orchestrate .ok), [.deliver ⟨2,0⟩],
  List.replicate 6 (.handle 0 .ok 1), [.finish 0 none], List.replicate 6 (.handle 0 .ok 2),
  [.deliver ⟨3,0⟩], List.replicate 6 (.handle 1 .ok 3), [.finish 1 none], List.replicate 7 (.handle 1 .ok 9)]

theorem chainCompleted_taken : (follow (system chain.graph) (orderly chain.graph) chainCompleted
    (system chain.graph).init).isSome := by
  decide +kernel

theorem chainCompleted_ends :
    ∃ i, ∀ j, i ≤ j → Quiescent ((followed _ _ chainCompleted chainCompleted_taken).state j) ∧
      ((followed _ _ chainCompleted chainCompleted_taken).state j).Terminal chain.graph := by
  refine orderly_run_ends chain (by decide) _ ?_
  apply followed_fair _ _ (by decide)
  exact Quiescent.stuck (by decide +kernel)

end TinyAutomator.Run
