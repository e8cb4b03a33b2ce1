import TinyAutomator.Run.Steps

/-! Triggers at the root have no tasks. Whatever fails, no message concerns one, and its
node run keeps the status 'success' that CreateWorkflowRun gave it. -/
namespace TinyAutomator.Run

open Transition

/-- A trigger that no edge ends in. -/
def TriggerRoot (g : WorkflowGraph) (n : NodeID) : Prop := isTrigger g n = true ∧ parents g n = []

/-- The nodes a goroutine is about to publish. -/
def Pc.rest : Pc → List NodeID
  | .publishChildren rest => rest
  | _ => []

/-- Every message of the run, wherever it is. -/
def Infra.messages (x : Infra) : List Message := x.queue ++ x.delayed ++ x.published

def OrchestratorPc.Rooted (g : WorkflowGraph) : OrchestratorPc → Prop
  | .enqueueRoot root rest => ∀ n ∈ root :: rest, parents g n = []
  | .publishChildren root children rest =>
    TriggerRoot g root ∧ (∀ c ∈ children, ¬TriggerRoot g c) ∧ ∀ n ∈ rest, parents g n = []
  | .publishStatus root rest => TriggerRoot g root ∧ ∀ n ∈ rest, parents g n = []
  | .publishRoot root rest => ¬TriggerRoot g root ∧ ∀ n ∈ rest, parents g n = []
  | .initSet | .returned | .failed => True

structure Rooted (g : WorkflowGraph) (s : State) : Prop where
  messages : ∀ m ∈ s.infra.messages, ¬TriggerRoot g m.nodeID
  handlers : ∀ h ∈ s.handlers, ¬TriggerRoot g h.msg.nodeID ∧ ∀ c ∈ h.pc.rest, ¬TriggerRoot g c
  orchestrator : s.orchestrator.Rooted g
  succeeded : ∀ n, TriggerRoot g n → (s.infra.nodeRuns n).status = .success

variable {g : WorkflowGraph} {s t : State} {x y : Infra} {m k : Message} {now : Int} {o : Outcome}
  {pc pc' : Pc} {i : Nat} {h : Handler} {n c : NodeID} {label : Label} {q q' : OrchestratorPc}

theorem child_not_root (child : c ∈ children g n) : ¬TriggerRoot g c := by
  rintro ⟨_,none⟩
  have parent : n ∈ parents g c := (mem_parents_iff_children g).mpr child
  rw [none] at parent
  simp at parent

/-- The calls that add messages: of children about to be published, or of the own node. -/
theorem Call.messages (call : Call g x m now pc y pc') : ∀ k ∈ y.messages,
    k ∈ x.messages ∨ k.nodeID = m.nodeID ∨ k.nodeID ∈ pc.rest := by
  intro k member
  cases call with
  | @publishChild c rest =>
    simp only [Infra.messages,Infra.publish,List.mem_append,List.mem_singleton] at member ⊢
    rcases member with ((queued | rfl) | delayed) | published | rfl
    · exact .inl (.inl (.inl queued))
    · exact .inr (.inr List.mem_cons_self)
    · exact .inl (.inl (.inr delayed))
    · exact .inl (.inr published)
    · exact .inr (.inr List.mem_cons_self)
  | retry =>
    simp only [Infra.messages,Infra.publishRetry,List.mem_append,List.mem_singleton] at member ⊢
    rcases member with (queued | delayed | rfl) | published | rfl
    · exact .inl (.inl (.inl queued))
    · exact .inl (.inl (.inr delayed))
    · exact .inr (.inl rfl)
    · exact .inl (.inr published)
    · exact .inr (.inl rfl)
  | _ => exact .inl member

theorem requeue_messages {k' : Message} (member : k ∈ (x.requeue k').messages) : k ∈ x.messages ∨ k = k' := by
  simp only [Infra.messages,Infra.requeue,List.mem_append,List.mem_singleton] at member ⊢
  grind

theorem publishing_rest {rest : List NodeID} : (publishing rest).rest = rest := by
  cases rest <;> rfl

theorem Call.rest (call : Call g x m now pc y pc') (member : c ∈ pc'.rest) :
    c ∈ pc.rest ∨ c ∈ children g m.nodeID := by
  cases call with
  | getChildren =>
    rw [publishing_rest] at member
    exact .inr (List.mem_of_mem_filter member)
  | publishChild =>
    rw [publishing_rest] at member
    exact .inl (List.mem_cons_of_mem _ member)
  | _ => simp [Pc.rest] at member

theorem Pc.Leaving.rest (leaving : pc.Leaving) : pc.rest = [] := by
  cases pc <;> first | rfl | exact absurd leaving id

theorem Call.elsewhere (call : Call g x m now pc y pc') (other : n ≠ m.nodeID) :
    y.nodeRuns n = x.nodeRuns n := by
  rcases call.rows with same | ⟨row,wrote,_⟩
  · rw [same]
  · rw [wrote]
    exact x.setNodeRun_other other

theorem Rooted.call (rooted : Rooted g s) (here : s.handlers[i]? = some h)
    (next : h.pc.next g s.infra h.msg o now = some (x,pc)) : Rooted g (setHandler s i h x pc) := by
  obtain ⟨own,rest⟩ := rooted.handlers h (List.mem_of_getElem? here)
  obtain ⟨z,pcz,call,effect,goes⟩ := next_outcome next
  constructor
  · intro k member
    have known : k ∈ s.infra.messages ∨ k.nodeID = h.msg.nodeID ∨ k.nodeID ∈ h.pc.rest := by
      rcases effect with rfl | rfl | rfl
      · exact .inl member
      · exact call.messages k member
      · rcases requeue_messages member with before | rfl
        · exact .inl before
        · exact .inr (.inl rfl)
    rcases known with before | same | child
    · exact rooted.messages k before
    · rw [same]; exact own
    · exact rest _ child
  · refine Pool.forall_set rooted.handlers ⟨own,fun c member => ?_⟩
    rcases goes with ⟨_,rfl⟩ | leaving
    · rcases call.rest member with before | child
      · exact rest c before
      · exact child_not_root child
    · simp [leaving.rest] at member
  · exact rooted.orchestrator
  · intro n root
    have other : n ≠ h.msg.nodeID := by
      rintro rfl
      exact own root
    rcases effect with rfl | rfl | rfl
    · exact rooted.succeeded n root
    · rw [setHandler,call.elsewhere other]
      exact rooted.succeeded n root
    · exact rooted.succeeded n root

theorem nextRoot_rooted {rest : List NodeID} (none : ∀ n ∈ rest, parents g n = []) :
    (nextRoot rest).Rooted g := by
  cases rest with
  | nil => trivial
  | cons root rest => exact none

theorem Orchestration.rooted (orchestration : Orchestration g x q y q') (rooted : q.Rooted g) :
    q'.Rooted g ∧ ∀ k ∈ y.messages, k ∈ x.messages ∨ ¬TriggerRoot g k.nodeID := by
  have old : ∀ k ∈ x.messages, k ∈ x.messages ∨ ¬TriggerRoot g k.nodeID := fun k member => .inl member
  have published : ∀ c, ¬TriggerRoot g c →
      ∀ k ∈ (x.publish c).messages, k ∈ x.messages ∨ ¬TriggerRoot g k.nodeID := by
    intro c task k member
    simp only [Infra.messages,Infra.publish,List.mem_append,List.mem_singleton] at member ⊢
    rcases member with ((queued | rfl) | delayed) | before | rfl
    · exact .inl (.inl (.inl queued))
    · exact .inr task
    · exact .inl (.inl (.inr delayed))
    · exact .inl (.inr before)
    · exact .inr task
  cases orchestration with
  | initSet =>
    refine ⟨nextRoot_rooted ?_,old⟩
    exact fun n root => ((mem_roots g).mp root).2
  | trigger is =>
    refine ⟨⟨⟨is,rooted _ List.mem_cons_self⟩,?_,fun n member => rooted n (List.mem_cons_of_mem _ member)⟩,old⟩
    exact fun c member => child_not_root (List.mem_of_mem_filter member)
  | action is =>
    refine ⟨⟨?_,fun n member => rooted n (List.mem_cons_of_mem _ member)⟩,old⟩
    rintro ⟨trigger,_⟩
    rw [is] at trigger
    contradiction
  | inProgress => exact ⟨nextRoot_rooted fun n member => rooted n (List.mem_cons_of_mem _ member),old⟩
  | publishedAll => exact ⟨⟨rooted.1,rooted.2.2⟩,old⟩
  | publishChild =>
    obtain ⟨root,children,rest⟩ := rooted
    exact ⟨⟨root,fun c member => children c (List.mem_cons_of_mem _ member),rest⟩,
      published _ (children _ List.mem_cons_self)⟩
  | publishStatus => exact ⟨nextRoot_rooted rooted.2,old⟩
  | publishRoot => exact ⟨nextRoot_rooted rooted.2,published _ rooted.1⟩

theorem Rooted.orchestrate (rooted : Rooted g s) (next : s.orchestrator.next g s.infra o = some (x,q)) :
    Rooted g {s with infra := x, orchestrator := q} := by
  obtain ⟨z,qz,orchestration,effect,goes⟩ := orchestrate_outcome next
  obtain ⟨on,messages⟩ := orchestration.rooted rooted.orchestrator
  constructor
  · intro k member
    rcases effect with rfl | rfl
    · exact rooted.messages k member
    · rcases messages k member with before | task
      · exact rooted.messages k before
      · exact task
  · exact rooted.handlers
  · rcases goes with rfl | rfl
    · exact on
    · trivial
  · intro n root
    rw [(orchestrate_same next).nodeRuns]
    exact rooted.succeeded n root

theorem Rooted.same (rooted : Rooted g s) (messages : ∀ k ∈ t.infra.messages, k ∈ s.infra.messages)
    (handlers : ∀ h ∈ t.handlers, ¬TriggerRoot g h.msg.nodeID ∧ ∀ c ∈ h.pc.rest, ¬TriggerRoot g c)
    (orchestrator : t.orchestrator.Rooted g) (rows : t.infra.nodeRuns = s.infra.nodeRuns) : Rooted g t := by
  constructor
  · exact fun k member => rooted.messages k (messages k member)
  · exact handlers
  · exact orchestrator
  · rw [rows]; exact rooted.succeeded

theorem Rooted.step (rooted : Rooted g s) (step : (system g).step label s = some t) : Rooted g t := by
  cases step_cases step with
  | orchestrate next => exact rooted.orchestrate next
  | handle here next => exact rooted.call here next
  | @finish i r err h here inside =>
    have own := (rooted.handlers h (List.mem_of_getElem? here)).1
    exact rooted.same (fun _ member => member)
      (Pool.forall_set rooted.handlers ⟨own,by simp [Pc.rest]⟩) rooted.orchestrator rfl
  | @deliver m queued =>
    have own := rooted.messages m (List.mem_append_left _ (List.mem_append_left _ queued))
    refine rooted.same ?_ (Pool.forall_append rooted.handlers ⟨own,by simp [Pc.rest]⟩) rooted.orchestrator rfl
    intro k member
    simp only [Infra.messages,List.mem_append] at member ⊢
    rcases member with (left | delayed) | published
    · exact .inl (.inl (List.mem_of_mem_erase left))
    · exact .inl (.inr delayed)
    · exact .inr published
  | @mature m waiting =>
    refine rooted.same ?_ rooted.handlers rooted.orchestrator rfl
    intro k member
    simp only [Infra.messages,List.mem_append,List.mem_singleton] at member ⊢
    rcases member with ((queued | rfl) | left) | published
    · exact .inl (.inl queued)
    · exact .inl (.inr waiting)
    · exact .inl (.inr (List.mem_of_mem_erase left))
    · exact .inr published
  | expireSet | expireLock => exact ⟨rooted.messages,rooted.handlers,rooted.orchestrator,rooted.succeeded⟩
  | @redeliver m known =>
    refine rooted.same ?_ rooted.handlers rooted.orchestrator rfl
    intro k member
    rcases requeue_messages member with before | rfl
    · exact before
    · exact List.mem_append_right _ known
  | @crash i h here alive =>
    obtain ⟨own,_⟩ := rooted.handlers h (List.mem_of_getElem? here)
    constructor
    · intro k member
      rcases requeue_messages member with before | rfl
      · exact rooted.messages k before
      · exact own
    · exact Pool.forall_set rooted.handlers ⟨own,by simp [Pc.rest]⟩
    · exact rooted.orchestrator
    · exact rooted.succeeded
  | crashOrchestrator => exact rooted.same (fun _ member => member) rooted.handlers trivial rfl

theorem rooted_init : Rooted g (system g).init := by
  constructor
  · intro m member
    simp [system,createWorkflowRun,Infra.messages] at member
  · intro h member
    simp [system] at member
  · trivial
  · rintro n ⟨is,_⟩
    simp [system,createWorkflowRun,is]

end TinyAutomator.Run
