import TinyAutomator.Run.Roots
import Mathlib.Algebra.Order.BigOperators.Group.List
import Mathlib.Algebra.Order.Ring.Nat

/-! A node run that nobody will bring up. What is under way can go on without a fault until
nothing is left of it, and the run is still running. -/
namespace TinyAutomator.Run

open Transition

/-- Marks the run failed or completes it if its calls go well. -/
def Pc.ends : Pc → Bool
  | .updateStatus retryCount err | .publishStatus retryCount err => retryCount = 3 ∧ err.isSome
  | .completeFailed | .getNodeRuns | .completeRun _ => true
  | _ => false

/-- The run has ended, or a goroutine is on its way to end it. -/
def State.Bound (s : State) : Prop :=
  s.infra.run.status ≠ .running ∨ ∃ h ∈ s.handlers, h.pc.ends = true

instance : DecidablePred State.Bound := fun s => inferInstanceAs
  (Decidable (s.infra.run.status ≠ .running ∨ ∃ h ∈ s.handlers, h.pc.ends = true))

/-- The calls that a message can cause: its own, and those of the messages to the children. -/
def work (g : WorkflowGraph) : Nat → NodeID → Nat
  | 0, _ => 18
  | fuel + 1, n => ((children g n).map fun c => work g fuel c + 1).sum + 18

variable {g : WorkflowGraph} {s t : State} {x y : Infra} {m : Message} {now : Int} {o : Outcome}
  {pc pc' : Pc} {i : Nat} {h : Handler} {n k : NodeID} {label : Label} {q q' : OrchestratorPc}
  {works : NodeID → Nat}

/-- Each message is worth more than all it leads to. -/
def Worth (g : WorkflowGraph) (works : NodeID → Nat) : Prop :=
  ∀ n, works n = ((children g n).map fun c => works c + 1).sum + 18

theorem AcceptedGraph.worth (g : AcceptedGraph) : ∃ works, Worth g.graph works := by
  obtain ⟨depth,below⟩ := g.layered.2
  let deepest := ((ids g.graph).map depth).sum
  have bound : ∀ n, ∀ c ∈ children g.graph n, depth n + 1 = depth c ∧ depth c ≤ deepest := by
    intro n c child
    refine ⟨(below _ ((mem_children g.graph).mp child)).symm,?_⟩
    exact List.single_le_sum (fun _ _ => Nat.zero_le _) _ (List.mem_map_of_mem (g.child_mem child))
  refine ⟨fun n => work g.graph (deepest - depth n) n,fun n => ?_⟩
  show work g.graph (deepest - depth n) n =
    ((children g.graph n).map fun c => work g.graph (deepest - depth c) c + 1).sum + 18
  cases left : deepest - depth n with
  | zero =>
    have leaf : children g.graph n = [] := by
      apply List.eq_nil_iff_forall_not_mem.mpr
      intro c child
      have := bound n c child
      omega
    simp [work,leaf]
  | succ fuel =>
    have same : ∀ c ∈ children g.graph n, work g.graph fuel c + 1 = work g.graph (deepest - depth c) c + 1 := by
      intro c child
      have deeper := bound n c child
      rw [show deepest - depth c = fuel by omega]
    rw [work,List.map_congr_left same]

/-- The calls left to a goroutine, and those of the messages it will publish. -/
def Pc.work (works : NodeID → Nat) (n : NodeID) : Pc → Nat
  | .failed => works n + 4
  | .publishStatus _ (some _) => works n + 5
  | .updateStatus _ (some _) => works n + 6
  | .getParents => works n - 1
  | .getNodeRun => works n - 2
  | .getNode _ => works n - 3
  | .markRunning _ => works n - 4
  | .publishRunning _ => works n - 5
  | .startAction _ => works n - 6
  | .inAction _ => works n - 7
  | .updateStatus _ none => works n - 8
  | .publishStatus _ none => works n - 9
  | .getChildren => works n - 10
  | .publishChildren rest => (rest.map fun c => works c + 1).sum + 7
  | .markComplete => 6
  | .getPending => 5
  | .acquireLock _ => 4
  | .addPending _ => 3
  | .ack | .nack => 1
  | .completeFailed | .getNodeRuns | .completeRun _ | .done => 0

/-- The calls that the messages at the broker can cause. -/
def Infra.work (works : NodeID → Nat) (x : Infra) : Nat :=
  (x.queue.map fun m => works m.nodeID).sum + (x.delayed.map fun m => works m.nodeID + 1).sum

def State.work (works : NodeID → Nat) (s : State) : Nat :=
  (s.handlers.map fun h => h.pc.work works h.msg.nodeID).sum + s.infra.work works

theorem publishing_work {rest : List NodeID} :
    (publishing rest).work works n ≤ (rest.map fun c => works c + 1).sum + 7 := by
  cases rest <;> simp [publishing,Pc.work]

theorem pendingChildren_work (worth : Worth g works) :
    ((x.pendingChildren g n).map fun c => works c + 1).sum + 18 ≤ works n := by
  have less : ((x.pendingChildren g n).map fun c => works c + 1).sum ≤
      ((children g n).map fun c => works c + 1).sum := by
    apply List.Sublist.sum_le_sum
    · exact List.filter_sublist.map _
    · exact fun _ _ => Nat.zero_le _
  have := worth n
  omega

/-- Every call takes the run closer to the point where nothing is left. -/
theorem Call.work (call : Call g x m now pc y pc') (worth : Worth g works) (going : pc.ends = false)
    (set : pc = .markComplete → x.runningSet = ∅) (some : x.pendingNodes g ≠ []) :
    pc'.work works m.nodeID + y.work works < pc.work works m.nodeID + x.work works := by
  have least : 18 ≤ works m.nodeID := by
    rw [worth]
    omega
  cases call with
  | getChildren =>
    have later : (publishing (x.pendingChildren g m.nodeID)).work works m.nodeID ≤ _ := publishing_work
    have less := pendingChildren_work (x := x) (n := m.nodeID) worth
    have before : Pc.work works m.nodeID .getChildren = works m.nodeID - 10 := rfl
    omega
  | @publishChild c rest =>
    have later : (publishing rest).work works m.nodeID ≤ _ := publishing_work
    have before : Pc.work works m.nodeID (.publishChildren (c :: rest)) =
        works c + 1 + (rest.map fun c => works c + 1).sum + 7 := by simp [Pc.work]
    have queued : (x.publish c).work works = x.work works + works c := by
      simp only [Infra.work,Infra.publish,List.map_append,List.sum_append,List.map_cons,List.sum_cons,
        List.map_nil,List.sum_nil]
      omega
    omega
  | retry =>
    simp only [Pc.work,Infra.work,Infra.publishRetry,List.map_append,List.sum_append,List.map_cons,
      List.sum_cons,List.map_nil,List.sum_nil]
    omega
  | markLast present | markOne present => exact absurd (set rfl) present
  | nonePending none => exact absurd none some
  | exhausted | completeFailed | getNodeRuns | completeRun => simp [Pc.ends] at going
  | _ =>
    show _ + x.work works < _
    simp only [Pc.work]
    omega

theorem publishing_ends {rest : List NodeID} : (publishing rest).ends = false := by
  cases rest <;> rfl

theorem Call.going (call : Call g x m now pc y pc') (going : pc.ends = false)
    (set : pc = .markComplete → x.runningSet = ∅) (some : x.pendingNodes g ≠ []) :
    pc'.ends = false ∧ y.run = x.run := by
  cases call with
  | succeed => exact ⟨by simp [Pc.ends],rfl⟩
  | fail => exact ⟨going,rfl⟩
  | getChildren | publishChild => exact ⟨publishing_ends,rfl⟩
  | markLast present | markOne present => exact absurd (set rfl) present
  | nonePending none => exact absurd none some
  | exhausted | completeFailed | getNodeRuns | completeRun => simp [Pc.ends] at going
  | _ => exact ⟨rfl,rfl⟩

/-- Neither the node nor one of its parents. -/
def Apart (g : WorkflowGraph) (n k : NodeID) : Prop := k ≠ n ∧ k ∉ parents g n

/-- The run goes on, and nothing that is under way has to do with the pending node. -/
structure Orphaned (g : WorkflowGraph) (n : NodeID) (s : State) : Prop where
  failed : s.orchestrator = .failed
  running : s.infra.run.status = .running
  nobody : ∀ h ∈ s.handlers, h.pc.ends = false
  pending : n ∈ s.infra.pendingNodes g
  messages : ∀ m ∈ s.infra.messages, Apart g n m.nodeID
  handlers : ∀ h ∈ s.handlers, Apart g n h.msg.nodeID ∧ ∀ c ∈ h.pc.rest, Apart g n c

theorem child_apart (roots : ∀ p ∈ parents g n, parents g p = []) (apart : Apart g n k) {c : NodeID}
    (child : c ∈ children g k) : Apart g n c := by
  have parent : k ∈ parents g c := (mem_parents_iff_children g).mpr child
  constructor
  · rintro rfl
    exact apart.2 parent
  · intro above
    rw [roots c above] at parent
    simp at parent

theorem Orphaned.call (orphaned : Orphaned g n s) (roots : ∀ p ∈ parents g n, parents g p = [])
    (here : s.handlers[i]? = some h) (set : s.infra.runningSet = ∅)
    (call : Call g s.infra h.msg now h.pc x pc) : Orphaned g n (setHandler s i h x pc) := by
  have member := List.mem_of_getElem? here
  have some : s.infra.pendingNodes g ≠ [] := List.ne_nil_of_mem orphaned.pending
  obtain ⟨own,rest⟩ := orphaned.handlers h member
  obtain ⟨going,run⟩ := call.going (orphaned.nobody h member) (fun _ => set) some
  constructor
  · exact orphaned.failed
  · show x.run.status = .running
    rw [run]
    exact orphaned.running
  · exact Pool.forall_set orphaned.nobody going
  · obtain ⟨listed,pending⟩ := Infra.mem_pendingNodes.mp orphaned.pending
    apply Infra.mem_pendingNodes.mpr
    refine ⟨listed,?_⟩
    show (x.nodeRuns n).status = .pending
    rw [call.elsewhere (Ne.symm own.1)]
    exact pending
  · intro k member
    rcases call.messages k member with before | same | child
    · exact orphaned.messages k before
    · rw [same]; exact own
    · exact rest _ child
  · refine Pool.forall_set orphaned.handlers ⟨own,fun c member => ?_⟩
    rcases call.rest member with before | child
    · exact rest c before
    · exact child_apart roots own child

theorem work_set (here : s.handlers[i]? = some h)
    (less : pc.work works h.msg.nodeID + x.work works < h.pc.work works h.msg.nodeID + s.infra.work works) :
    (setHandler s i h x pc).work works < s.work works := by
  have sum := Pool.sum_set (f := fun h : Handler => h.pc.work works h.msg.nodeID) here {h with pc := pc}
  simp only at sum
  simp only [State.work,setHandler]
  omega

/-- Nothing of the run is queued, delayed or being handled. -/
structure State.Emptied (s : State) : Prop where
  queue : s.infra.queue = []
  delayed : s.infra.delayed = []
  handlers : ∀ h ∈ s.handlers, h.pc = .done

/-- A goroutine that is not done gets on, after the running-node set has expired. -/
theorem Orphaned.handle (orphaned : Orphaned g n s) (roots : ∀ p ∈ parents g n, parents g p = [])
    (worth : Worth g works) (here : s.handlers[i]? = some h) (away : ∀ r, h.pc ≠ .inAction r)
    (alive : h.pc ≠ .done) :
    ∃ t, Path (system g) faultFree s t ∧ Orphaned g n t ∧ t.work works < s.work works := by
  let unset : State := {s with infra := {s.infra with runningSet := ∅}}
  have orphaned' : Orphaned g n unset := ⟨orphaned.failed,orphaned.running,orphaned.nobody,
    orphaned.pending,orphaned.messages,orphaned.handlers⟩
  have here' : unset.handlers[i]? = some h := here
  have expires : (system g).step .expireSet s = some unset := rfl
  obtain ⟨x,pc,next⟩ := next_alive g unset.infra h.msg 0 away alive
  have call := call_cases next
  have some : unset.infra.pendingNodes g ≠ [] := List.ne_nil_of_mem orphaned'.pending
  refine ⟨setHandler unset i h x pc,?_,orphaned'.call roots here' rfl call,?_⟩
  · exact (Path.single trivial expires).tail (a := .handle i .ok 0) rfl (handle_step here' next)
  · have less := call.work worth (orphaned.nobody h (List.mem_of_getElem? here)) (fun _ => rfl) some
    exact work_set here' less

theorem Orphaned.finish {r : Nat} (orphaned : Orphaned g n s) (worth : Worth g works)
    (here : s.handlers[i]? = some h) (inside : h.pc = .inAction r) :
    ∃ t, Path (system g) faultFree s t ∧ Orphaned g n t ∧ t.work works < s.work works := by
  obtain ⟨own,_⟩ := orphaned.handlers h (List.mem_of_getElem? here)
  refine ⟨_,Path.single (a := .finish i none) trivial (finish_step here inside),?_,?_⟩
  · refine ⟨orphaned.failed,orphaned.running,?_,orphaned.pending,orphaned.messages,?_⟩
    · exact Pool.forall_set orphaned.nobody (by simp [Pc.ends])
    · exact Pool.forall_set orphaned.handlers ⟨own,by simp [Pc.rest]⟩
  · apply work_set here
    have least := worth h.msg.nodeID
    rw [inside]
    show works h.msg.nodeID - 8 + s.infra.work works < works h.msg.nodeID - 7 + s.infra.work works
    omega

theorem Orphaned.deliver {rest : List Message} (orphaned : Orphaned g n s) (worth : Worth g works)
    (queue : s.infra.queue = m :: rest) :
    ∃ t, Path (system g) faultFree s t ∧ Orphaned g n t ∧ t.work works < s.work works := by
  have own := orphaned.messages m (by simp [Infra.messages,queue])
  refine ⟨_,Path.single (a := .deliver m) trivial (deliver_step queue),?_,?_⟩
  · refine ⟨orphaned.failed,orphaned.running,?_,orphaned.pending,?_,?_⟩
    · exact Pool.forall_append orphaned.nobody rfl
    · intro k member
      apply orphaned.messages k
      simp only [Infra.messages,List.mem_append] at member ⊢
      rcases member with (left | delayed) | published
      · exact .inl (.inl (by rw [queue]; exact List.mem_cons_of_mem _ left))
      · exact .inl (.inr delayed)
      · exact .inr published
    · exact Pool.forall_append orphaned.handlers ⟨own,by simp [Pc.rest]⟩
  · have least := worth m.nodeID
    simp only [State.work,Infra.work,queue,List.map_append,List.sum_append,List.map_cons,List.sum_cons,
      List.map_nil,List.sum_nil,Pc.work]
    omega

theorem Orphaned.mature {rest : List Message} (orphaned : Orphaned g n s)
    (delayed : s.infra.delayed = m :: rest) :
    ∃ t, Path (system g) faultFree s t ∧ Orphaned g n t ∧ t.work works < s.work works := by
  refine ⟨_,Path.single (a := .mature m) trivial (mature_step delayed),?_,?_⟩
  · refine ⟨orphaned.failed,orphaned.running,orphaned.nobody,orphaned.pending,?_,orphaned.handlers⟩
    intro k member
    apply orphaned.messages k
    simp only [Infra.messages,List.mem_append,delayed,List.mem_cons] at member ⊢
    grind
  · simp only [State.work,Infra.work,delayed,List.map_append,List.sum_append,List.map_cons,List.sum_cons,
      List.map_nil,List.sum_nil]
    omega

theorem Orphaned.progress (orphaned : Orphaned g n s) (roots : ∀ p ∈ parents g n, parents g p = [])
    (worth : Worth g works) : s.Emptied ∨
    ∃ t, Path (system g) faultFree s t ∧ Orphaned g n t ∧ t.work works < s.work works := by
  by_cases busy : ∃ h ∈ s.handlers, h.pc ≠ .done
  · right
    obtain ⟨h,member,alive⟩ := busy
    obtain ⟨i,here⟩ := List.mem_iff_getElem?.mp member
    by_cases inside : ∃ r, h.pc = .inAction r
    · obtain ⟨r,inside⟩ := inside
      exact orphaned.finish worth here inside
    · exact orphaned.handle roots worth here (fun r same => inside ⟨r,same⟩) alive
  · have done : ∀ h ∈ s.handlers, h.pc = .done := by
      intro h member
      by_contra alive
      exact busy ⟨h,member,alive⟩
    cases queue : s.infra.queue with
    | cons m rest => exact .inr (orphaned.deliver worth queue)
    | nil =>
      cases delayed : s.infra.delayed with
      | cons m rest => exact .inr (orphaned.mature delayed)
      | nil => exact .inl ⟨queue,delayed,done⟩

theorem Orphaned.empties (g : AcceptedGraph) (orphaned : Orphaned g.graph n s)
    (roots : ∀ p ∈ parents g.graph n, parents g.graph p = []) :
    ∃ t, Path (system g.graph) faultFree s t ∧ t.Emptied ∧ Orphaned g.graph n t := by
  obtain ⟨works,worth⟩ := g.worth
  induction rank : s.work works using Nat.strong_induction_on generalizing s with
  | _ k ih =>
    rcases orphaned.progress roots worth with emptied | ⟨t,path,orphaned,less⟩
    · exact ⟨s,.refl,emptied,orphaned⟩
    · obtain ⟨u,later,emptied,orphaned⟩ := ih (t.work works) (rank ▸ less) orphaned rfl
      exact ⟨u,path.trans later,emptied,orphaned⟩

section Unpublished

/-- No message concerns the node, and nobody is about to publish it. -/
structure Unpublished (n : NodeID) (s : State) : Prop where
  messages : ∀ m ∈ s.infra.messages, m.nodeID ≠ n
  handlers : ∀ h ∈ s.handlers, h.msg.nodeID ≠ n ∧ n ∉ h.pc.rest

theorem Call.sends (call : Call g x m now pc y pc') {k : Message} (member : k ∈ y.messages) :
    k ∈ x.messages ∨ k ∈ y.published := by
  cases call with
  | publishChild | retry =>
    simp only [Infra.messages,Infra.publish,Infra.publishRetry,List.mem_append] at member ⊢
    grind
  | _ => exact .inl member

theorem Orchestration.sends (orchestration : Orchestration g x q y q') {k : Message}
    (member : k ∈ y.messages) : k ∈ x.messages ∨ k ∈ y.published := by
  cases orchestration with
  | publishChild | publishRoot =>
    simp only [Infra.messages,Infra.publish,List.mem_append] at member ⊢
    grind
  | _ => exact .inl member

/-- Every message has been published, or comes back from a goroutine. -/
theorem step_messages (step : (system g).step label s = some t) {k : Message} (member : k ∈ t.infra.messages) :
    k ∈ s.infra.messages ∨ k ∈ t.infra.published ∨ ∃ h ∈ s.handlers, h.msg = k := by
  cases step_cases step with
  | orchestrate next =>
    obtain ⟨z,qz,orchestration,rfl | rfl,_⟩ := orchestrate_outcome next
    · exact .inl member
    · exact (orchestration.sends member).imp_right .inl
  | @handle i o now h x pc here next =>
    obtain ⟨z,pcz,call,rfl | rfl | rfl,_⟩ := next_outcome next
    · exact .inl member
    · exact (call.sends member).imp_right .inl
    · rcases requeue_messages member with before | rfl
      · exact .inl before
      · exact .inr (.inr ⟨h,List.mem_of_getElem? here,rfl⟩)
  | @deliver m queued =>
    left
    simp only [Infra.messages,List.mem_append] at member ⊢
    exact member.imp_left fun waits => waits.imp_left List.mem_of_mem_erase
  | @mature m waiting =>
    left
    simp only [Infra.messages,List.mem_append,List.mem_singleton] at member ⊢
    rcases member with ((queued | rfl) | left) | published
    · exact .inl (.inl queued)
    · exact .inl (.inr waiting)
    · exact .inl (.inr (List.mem_of_mem_erase left))
    · exact .inr published
  | redeliver known =>
    left
    rcases requeue_messages member with before | rfl
    · exact before
    · exact List.mem_append_right _ known
  | @crash i h here alive =>
    rcases requeue_messages member with before | rfl
    · exact .inl before
    · exact .inr (.inr ⟨h,List.mem_of_getElem? here,rfl⟩)
  | finish | expireSet | expireLock | crashOrchestrator => exact .inl member

/-- Goroutines stay with their nodes, and they publish children of these. -/
theorem step_rest (step : (system g).step label s = some t) : ∀ h ∈ t.handlers,
    (∃ k ∈ s.handlers, k.msg = h.msg ∧ ∀ c ∈ h.pc.rest, c ∈ k.pc.rest ∨ c ∈ children g k.msg.nodeID) ∨
    h.msg ∈ s.infra.messages ∧ h.pc.rest = [] := by
  have old : ∀ k ∈ s.handlers, (∃ j ∈ s.handlers, j.msg = k.msg ∧
      ∀ c ∈ k.pc.rest, c ∈ j.pc.rest ∨ c ∈ children g j.msg.nodeID) ∨
      k.msg ∈ s.infra.messages ∧ k.pc.rest = [] :=
    fun k found => .inl ⟨k,found,rfl,fun c rest => .inl rest⟩
  cases step_cases step with
  | @handle i o now k x pc here next =>
    refine Pool.forall_set old (.inl ⟨k,List.mem_of_getElem? here,rfl,fun c rest => ?_⟩)
    obtain ⟨z,pcz,call,_,⟨_,rfl⟩ | leaving⟩ := next_outcome next
    · exact call.rest rest
    · rw [leaving.rest] at rest
      simp at rest
  | @finish i r err k here inside =>
    exact Pool.forall_set old (.inl ⟨k,List.mem_of_getElem? here,rfl,by simp [Pc.rest]⟩)
  | @crash i k here alive =>
    exact Pool.forall_set old (.inl ⟨k,List.mem_of_getElem? here,rfl,by simp [Pc.rest]⟩)
  | @deliver m queued =>
    refine Pool.forall_append old (.inr ⟨?_,rfl⟩)
    exact List.mem_append_left _ (List.mem_append_left _ queued)
  | _ => exact old

/-- A node below triggers at the root only is published by OrchestrateWorkflow, or by nobody. -/
theorem Unpublished.step (unpublished : Unpublished n s) (rooted : Rooted g s)
    (above : ∀ p ∈ parents g n, TriggerRoot g p) (step : (system g).step label s = some t)
    (silent : ∀ m ∈ t.infra.published, m.nodeID ≠ n) : Unpublished n t := by
  constructor
  · intro k member
    rcases step_messages step member with before | published | ⟨h,found,rfl⟩
    · exact unpublished.messages k before
    · exact silent k published
    · exact (unpublished.handlers h found).1
  · intro h member
    rcases step_rest step h member with ⟨k,found,same,rest⟩ | ⟨waits,none⟩
    · refine ⟨same ▸ (unpublished.handlers k found).1,fun publishes => ?_⟩
      rcases rest n publishes with before | child
      · exact (unpublished.handlers k found).2 before
      · have parent := above _ ((mem_parents_iff_children g).mpr child)
        exact (rooted.handlers k found).1 parent
    · refine ⟨unpublished.messages _ waits,?_⟩
      rw [none]
      simp

end Unpublished

end TinyAutomator.Run
