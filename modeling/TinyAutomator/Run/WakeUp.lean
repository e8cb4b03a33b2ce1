import TinyAutomator.Run.Causality
import TinyAutomator.Run.Attempts

/-! No lost wake-up. A message that arrives before the last parent is done is dropped;
what remains is the parent that has yet to publish the node again. -/
namespace TinyAutomator.Run

open Transition

/-- A node run that only waits for a goroutine. -/
def Infra.Ready (x : Infra) (g : WorkflowGraph) (n : NodeID) : Prop :=
  (x.nodeRuns n).status = .pending ∧ ∀ p ∈ parents g n, (x.nodeRuns p).status = .success

instance (x : Infra) (g : WorkflowGraph) : DecidablePred (x.Ready g) := fun n => inferInstanceAs
  (Decidable ((x.nodeRuns n).status = .pending ∧ ∀ p ∈ parents g n, (x.nodeRuns p).status = .success))

/-- A goroutine of the node itself that will run its action, or one of a parent that
has yet to publish the node. -/
def Pc.Minds (g : WorkflowGraph) (own n : NodeID) : Pc → Prop
  | .getParents | .getNodeRun | .getNode _ | .markRunning _ => own = n
  | .publishStatus _ none | .getChildren => own ∈ parents g n
  | .publishChildren rest => own ∈ parents g n ∧ n ∈ rest
  | _ => False

/-- The roots that OrchestrateWorkflow has yet to take up include the node or a trigger
above it. -/
def Ahead (g : WorkflowGraph) (n : NodeID) (roots : List NodeID) : Prop :=
  n ∈ roots ∨ ∃ p ∈ roots, isTrigger g p = true ∧ p ∈ parents g n

def OrchestratorPc.Minds (g : WorkflowGraph) (n : NodeID) : OrchestratorPc → Prop
  | .initSet => Ahead g n ((getRootNodes g).map (·.id))
  | .enqueueRoot root rest => Ahead g n (root :: rest)
  | .publishChildren _ children rest => n ∈ children ∨ Ahead g n rest
  | .publishStatus _ rest => Ahead g n rest
  | .publishRoot root rest => n = root ∨ Ahead g n rest
  | .returned | .failed => False

/-- Somebody still brings the node up: its message, a goroutine, or OrchestrateWorkflow. -/
def Awake (g : WorkflowGraph) (s : State) (n : NodeID) : Prop :=
  s.infra.Announced n ∨ (∃ h ∈ s.handlers, h.pc.Minds g h.msg.nodeID n) ∨ s.orchestrator.Minds g n

structure Wakeful (g : WorkflowGraph) (s : State) : Prop where
  handled : ∀ n, (s.infra.nodeRuns n).status = .pending → isTrigger g n = false
  awake : ∀ n ∈ ids g, s.infra.Ready g n → Awake g s n

variable {g : WorkflowGraph} {s t : State} {x y : Infra} {m : Message} {now : Int} {pc pc' : Pc}
  {i : Nat} {h : Handler} {n : NodeID} {label : Label} {o o' : OrchestratorPc}

/-- A node run becomes ready only when a parent's success is written, and the goroutine
that writes it publishes the children next. -/
theorem Call.readied (call : Call g x m now pc y pc') (ready : y.Ready g n) :
    x.Ready g n ∨ pc'.Minds g m.nodeID n := by
  obtain ⟨pending,parents⟩ := ready
  have still := call.pending pending
  rcases call.rows with same | ⟨row,wrote,_,succeeds⟩
  · exact .inl ⟨same ▸ pending,same ▸ parents⟩
  · by_cases parent : m.nodeID ∈ Run.parents g n
    · have success := parents _ parent
      rw [wrote,x.setNodeRun_self] at success
      obtain ⟨r,_,rfl⟩ := succeeds success
      exact .inr parent
    · refine .inl ⟨still ▸ pending,?_⟩
      intro p member
      have success := parents p member
      have other : p ≠ m.nodeID := fun same => parent (same ▸ member)
      rwa [wrote,x.setNodeRun_other other] at success

theorem publishing_minds {rest : List NodeID} {own : NodeID} (parent : own ∈ parents g n)
    (member : n ∈ rest) : (publishing rest).Minds g own n := by
  cases rest with
  | nil => simp at member
  | cons c rest => exact ⟨parent,member⟩

/-- A goroutine that minds a ready node goes on minding it or has just published it. -/
theorem Call.minds (call : Call g x m now pc y pc') (before : x.Ready g n) (after : y.Ready g n)
    (fresh : (x.nodeRuns n).retryCount = 0) (minds : pc.Minds g m.nodeID n) :
    pc'.Minds g m.nodeID n ∨ y.Announced n := by
  obtain ⟨pending,parents⟩ := before
  cases call with
  | ready all => exact .inl minds
  | blocked parent behind =>
    have own : m.nodeID = n := minds
    exact absurd (parents _ (own ▸ parent)) behind
  | skip settled =>
    have own : m.nodeID = n := minds
    subst own
    simp [fresh,pending] at settled
  | attempt left unsuccessful => exact .inl minds
  | getNode => exact .inl minds
  | markRunning =>
    have own : m.nodeID = n := minds
    have status := after.1
    rw [← own] at status
    simp [Infra.markWorkflowNodeAsRunning] at status
  | publishSuccess => exact .inl minds
  | getChildren => exact .inl (publishing_minds minds (Infra.mem_pendingChildren.mpr ⟨minds,pending⟩))
  | publishedAll => exact absurd minds.2 (List.not_mem_nil)
  | @publishChild c rest =>
    obtain ⟨parent,member⟩ := minds
    rcases List.mem_cons.mp member with rfl | member
    · right
      exact ⟨⟨n,0⟩,by simp [Infra.publish],rfl⟩
    · exact .inl (publishing_minds parent member)
  | _ => exact absurd minds id

theorem nextRoot_minds {rest : List NodeID} (ahead : Ahead g n rest) : (nextRoot rest).Minds g n := by
  cases rest with
  | nil =>
    rcases ahead with member | ⟨p,member,_⟩
    · simp at member
    · simp at member
  | cons root rest => exact ahead

theorem Ahead.cons {root : NodeID} {rest : List NodeID} (ahead : Ahead g n (root :: rest)) :
    n = root ∨ (isTrigger g root = true ∧ root ∈ parents g n) ∨ Ahead g n rest := by
  rcases ahead with own | ⟨p,member,is,parent⟩
  · rcases List.mem_cons.mp own with same | later
    · exact .inl same
    · exact .inr (.inr (.inl later))
  · rcases List.mem_cons.mp member with same | later
    · exact .inr (.inl ⟨same ▸ is,same ▸ parent⟩)
    · exact .inr (.inr (.inr ⟨p,later,is,parent⟩))

/-- OrchestrateWorkflow goes on minding a pending node or has just published it. -/
theorem Orchestration.minds (orchestration : Orchestration g x o y o') (pending : (x.nodeRuns n).status = .pending)
    (handled : isTrigger g n = false) (minds : o.Minds g n) : o'.Minds g n ∨ y.Announced n := by
  cases orchestration with
  | initSet => exact .inl (nextRoot_minds minds)
  | trigger is =>
    rcases Ahead.cons minds with rfl | ⟨_,parent⟩ | later
    · simp [handled] at is
    · exact .inl (.inl (Infra.mem_pendingChildren.mpr ⟨parent,pending⟩))
    · exact .inl (.inr later)
  | action is _ =>
    rcases Ahead.cons minds with same | ⟨trigger,_⟩ | later
    · exact .inl (.inl same)
    · simp [trigger] at is
    · exact .inl (.inr later)
  | inProgress is begun =>
    rcases Ahead.cons minds with rfl | ⟨trigger,_⟩ | later
    · exact absurd pending begun
    · simp [trigger] at is
    · exact .inl (nextRoot_minds later)
  | publishedAll =>
    rcases minds with member | later
    · simp at member
    · exact .inl later
  | @publishChild root c children rest =>
    rcases minds with member | later
    · rcases List.mem_cons.mp member with rfl | member
      · right
        exact ⟨⟨n,0⟩,by simp [Infra.publish],rfl⟩
      · exact .inl (.inl member)
    · exact .inl (.inr later)
  | publishStatus => exact .inl (nextRoot_minds minds)
  | publishRoot =>
    rcases minds with rfl | later
    · right
      exact ⟨⟨n,0⟩,by simp [Infra.publish],rfl⟩
    · exact .inl (nextRoot_minds later)

/-- The goroutine that moves keeps its node awake; the others and the messages stay. -/
theorem Wakeful.call (wakeful : Wakeful g s) (fresh : s.infra.Fresh) (here : s.handlers[i]? = some h)
    (call : Call g s.infra h.msg now h.pc x pc) : Wakeful g (setHandler s i h x pc) := by
  constructor
  · intro n pending
    have row := call.pending pending
    exact wakeful.handled n (row ▸ pending)
  · intro n member ready
    rcases call.readied ready with before | minds
    · rcases wakeful.awake n member before with announced | found | orchestrator
      · exact .inl (call.announced announced)
      · rcases Pool.exists_set here found {h with pc := pc} with minds | found
        · rcases call.minds before ready (fresh n before.1) minds with minds | announced
          · exact .inr (.inl ⟨_,Pool.mem_set_self here,minds⟩)
          · exact .inl announced
        · exact .inr (.inl found)
      · exact .inr (.inr orchestrator)
    · exact .inr (.inl ⟨_,Pool.mem_set_self here,minds⟩)

theorem Wakeful.same (wakeful : Wakeful g s)
    (awake : ∀ n, (s.infra.nodeRuns n).status = .pending → Awake g s n → Awake g t n)
    (rows : t.infra.nodeRuns = s.infra.nodeRuns) : Wakeful g t := by
  constructor
  · rw [rows]; exact wakeful.handled
  · intro n member ready
    have before : s.infra.Ready g n := by
      rw [Infra.Ready,rows] at ready
      exact ready
    exact awake n before.1 (wakeful.awake n member before)

theorem Wakeful.outside (wakeful : Wakeful g s) (outside : Outside s t)
    (orchestrator : t.orchestrator = s.orchestrator) : Wakeful g t := by
  refine wakeful.same ?_ outside.same.nodeRuns
  rintro n _ (announced | ⟨h,member,minds⟩ | minds)
  · rcases outside.announced n announced with still | ⟨h,member,rfl,begins⟩
    · exact .inl still
    · exact .inr (.inl ⟨h,member,by rw [begins]; rfl⟩)
  · exact .inr (.inl ⟨h,outside.older h member,minds⟩)
  · exact .inr (.inr (orchestrator ▸ minds))

theorem Wakeful.step (wakeful : Wakeful g s) (fresh : s.infra.Fresh) (fine : label.FaultFree)
    (step : (system g).step label s = some t) : Wakeful g t := by
  cases faultless_cases fine step with
  | call here call => exact wakeful.call fresh here call
  | @finish i r err h here inside =>
    refine wakeful.same ?_ rfl
    rintro n _ (announced | found | orchestrator)
    · exact .inl announced
    · rcases Pool.exists_set here found {h with pc := .updateStatus r err} with minds | found
      · rw [inside] at minds
        exact absurd minds id
      · exact .inr (.inl found)
    · exact .inr (.inr orchestrator)
  | orchestrate orchestration =>
    refine wakeful.same ?_ orchestration.same.nodeRuns
    rintro n pending (announced | found | orchestrator)
    · exact .inl (orchestration.announced announced)
    · exact .inr (.inl found)
    · rcases orchestration.minds pending (wakeful.handled n pending) orchestrator with minds | announced
      · exact .inr (.inr minds)
      · exact .inl announced
  | deliver queued => exact wakeful.outside (deliver_outside queued) rfl
  | mature waiting => exact wakeful.outside (mature_outside waiting) rfl
  | expireSet => exact ⟨wakeful.handled,wakeful.awake⟩
  | expireLock => exact ⟨wakeful.handled,wakeful.awake⟩

/-- Before anything happens only triggers have succeeded, so a ready node is a root or
has triggers for parents. -/
theorem wakeful_init (sources : SourceTriggers g) : Wakeful g (system g).init := by
  have status : ∀ n, ((createWorkflowRun g).nodeRuns n).status = .pending → isTrigger g n = false := by
    intro n pending
    by_contra is
    simp [createWorkflowRun,is] at pending
  constructor
  · exact status
  · intro n member ready
    right; right
    show Ahead g n ((getRootNodes g).map (·.id))
    cases above : parents g n with
    | nil => exact .inl ((mem_roots g).mpr ⟨member,above⟩)
    | cons p rest =>
      have parent : p ∈ parents g n := by simp [above]
      have is : isTrigger g p = true := by
        have success := ready.2 p parent
        by_contra not
        simp [system,createWorkflowRun,not] at success
      exact .inr ⟨p,(mem_roots g).mpr ⟨isTrigger_mem g is,sources.parents is⟩,is,parent⟩

theorem reach_wakeful (sources : SourceTriggers g) (reach : Reach (system g) faultFree s) :
    Wakeful g s := by
  refine Reach.invariant (Wakeful g) (wakeful_init sources) ?_ reach
  intro s label t reach wakeful fine step
  exact wakeful.step (reach_fresh (reach.mono fun _ _ _ => trivial)) fine step

/-- Without faults, a node run that waits for nothing but a goroutine gets one. -/
theorem ready_awake (g : AcceptedGraph) (sources : SourceTriggers g.graph)
    (reach : Reach (system g.graph) faultFree s) :
    ∀ n ∈ ids g.graph, s.infra.Ready g.graph n → Awake g.graph s n :=
  (reach_wakeful sources reach).awake

/-- The first action has succeeded and nobody has published the second. -/
theorem chain_ready_awake : ∃ s : State, s.infra.Ready chain.graph 3 ∧ s.infra.published = [⟨2,0⟩] ∧
    Awake chain.graph s 3 := by
  obtain ⟨s,reach,ready,published⟩ : ∃ s, Reach (system chain.graph) faultFree s ∧
      s.infra.Ready chain.graph 3 ∧ s.infra.published = [⟨2,0⟩] :=
    follow_exists (List.flatten [List.replicate 4 (.orchestrate .ok), [.deliver ⟨2,0⟩],
      List.replicate 6 (.handle 0 .ok 1), [.finish 0 none,.handle 0 .ok 2]]) (by decide)
  exact ⟨s,ready,published,ready_awake chain (by decide) reach 3 (by decide) ready⟩

end TinyAutomator.Run
