import TinyAutomator.Run.Steps
import Mathlib.Logic.Relation

/-! Causality: an action starts only after the actions of all its ancestors succeeded.
The status 'success' is the witness that carries this along the edges. -/
namespace TinyAutomator.Run

open Transition

def Ancestor (g : WorkflowGraph) : NodeID → NodeID → Prop :=
  Relation.TransGen fun p c => p ∈ parents g c

/-- Every ancestor of `n` that has an action succeeded in this history. -/
def Caused (g : WorkflowGraph) (history : List Event) (n : NodeID) : Prop :=
  ∀ a, Ancestor g a n → isTrigger g a = false → .finished a true ∈ history

def Causal (g : WorkflowGraph) (history : List Event) : Prop :=
  ∀ pre post n, history = pre ++ .started n :: post → Caused g pre n

/-- Triggers start a run: no edge ends in one. -/
def SourceTriggers (g : WorkflowGraph) : Prop :=
  ∀ node ∈ g.nodes, node.category = .trigger → parents g node.id = []

instance : DecidablePred SourceTriggers := fun g =>
  inferInstanceAs (Decidable (∀ node ∈ g.nodes, node.category = .trigger → parents g node.id = []))

/-- The status 'success' and every event of the history are accounted for. -/
structure Justified (g : WorkflowGraph) (x : Infra) : Prop where
  succeeded : ∀ n, isTrigger g n = false → (x.nodeRuns n).status = .success →
    .finished n true ∈ x.history
  finished : ∀ n, .finished n true ∈ x.history → Caused g x.history n
  causal : Causal g x.history

/-- What a goroutine knows of its node once it has checked the parents. -/
def Pc.Entitled (g : WorkflowGraph) (history : List Event) (n : NodeID) : Pc → Prop
  | .getNodeRun | .getNode _ | .markRunning _ | .publishRunning _ | .startAction _ | .inAction _ =>
    Caused g history n
  | .updateStatus _ none => .finished n true ∈ history
  | _ => True

variable {g : WorkflowGraph} {s t : State} {x y : Infra} {m : Message} {now : Int} {pc pc' : Pc}
  {history : List Event} {e : Event} {n : NodeID}

theorem SourceTriggers.parents (sources : SourceTriggers g) (is : isTrigger g n = true) :
    parents g n = [] := by
  simp only [isTrigger,List.any_eq_true,decide_eq_true_eq] at is
  obtain ⟨node,member,rfl,category⟩ := is
  exact sources node member category

theorem Caused.mono (caused : Caused g history n) (more : List Event) :
    Caused g (history ++ more) n :=
  fun a ancestor action => List.mem_append_left more (caused a ancestor action)

theorem Pc.Entitled.mono (entitled : pc.Entitled g history n) (more : List Event) :
    pc.Entitled g (history ++ more) n := by
  cases pc with
  | updateStatus r err =>
    cases err with
    | none => exact List.mem_append_left more entitled
    | some err => trivial
  | getNodeRun | getNode | markRunning | publishRunning | startAction | inAction =>
    exact Caused.mono entitled more
  | _ => trivial

theorem Pc.Leaving.entitled (leaving : pc.Leaving) : pc.Entitled g history n := by
  cases pc <;> trivial

/-- The parents' statuses speak for all ancestors. -/
theorem Justified.caused (justified : Justified g x) (sources : SourceTriggers g)
    (all : ∀ p ∈ parents g n, (x.nodeRuns p).status = .success) : Caused g x.history n := by
  intro a ancestor action
  cases ancestor with
  | single parent => exact justified.succeeded a action (all a parent)
  | @tail p _ above parent =>
    have handled : isTrigger g p = false := by
      by_contra is
      have none := sources.parents (by simpa using is)
      cases above with
      | single up => simp [none] at up
      | tail _ up => simp [none] at up
    exact justified.finished p (justified.succeeded p handled (all p parent)) a above action

theorem causal_append (causal : Causal g history)
    (new : ∀ n, e = .started n → Caused g history n) : Causal g (history ++ [e]) := by
  intro pre post n split
  rcases List.append_eq_append_iff.mp split with ⟨more,same,rest⟩ | ⟨more,same,rest⟩
  · cases more with
    | nil =>
      simp only [List.nil_append,List.cons.injEq] at rest
      rw [same,List.append_nil]
      exact new n rest.1
    | cons first more => simp at rest
  · cases more with
    | nil =>
      simp only [List.nil_append,List.cons.injEq] at rest
      rw [same,List.append_nil] at new
      exact new n rest.1.symm
    | cons first more =>
      simp only [List.cons_append,List.cons.injEq] at rest
      rw [← rest.1] at same
      exact causal pre more n same

theorem Justified.congr (justified : Justified g x) (rows : y.nodeRuns = x.nodeRuns)
    (history : y.history = x.history) : Justified g y := by
  constructor
  · rw [rows,history]; exact justified.succeeded
  · rw [history]; exact justified.finished
  · rw [history]; exact justified.causal

/-- A start is recorded for a node whose ancestors succeeded, or an action returned. -/
theorem Justified.record (justified : Justified g x) (entitled : ∀ n, e = .started n ∨
    e = .finished n true → Caused g x.history n) : Justified g (x.record e) := by
  constructor
  · intro n action success
    exact List.mem_append_left [e] (justified.succeeded n action success)
  · intro n finished
    rcases List.mem_append.mp finished with old | new
    · exact (justified.finished n old).mono [e]
    · exact (entitled n (.inr (List.mem_singleton.mp new).symm)).mono [e]
  · exact causal_append justified.causal fun n start => entitled n (.inl start)

theorem Justified.setNodeRun (justified : Justified g x) {row : NodeRun}
    (accounted : row.status = .success → .finished n true ∈ x.history) :
    Justified g (x.setNodeRun n row) := by
  constructor
  · intro k action success
    simp only [Infra.setNodeRun] at success
    split at success
    next same => subst same; exact accounted success
    next => exact justified.succeeded k action success
  · exact justified.finished
  · exact justified.causal

/-- One successful call: the shared part stays justified, the goroutine entitled, and
the history only grows. -/
theorem Call.justified (call : Call g x m now pc y pc') (sources : SourceTriggers g)
    (justified : Justified g x) (entitled : pc.Entitled g x.history m.nodeID) :
    Justified g y ∧ pc'.Entitled g y.history m.nodeID ∧ ∃ more, y.history = x.history ++ more := by
  have still : ∃ more, x.history = x.history ++ more := ⟨[],(List.append_nil _).symm⟩
  cases call with
  | ready all => exact ⟨justified,justified.caused sources all,still⟩
  | attempt left unsuccessful => exact ⟨justified,entitled,still⟩
  | getNode => exact ⟨justified,entitled,still⟩
  | markRunning => exact ⟨justified.setNodeRun (fun success => by simp at success),entitled,still⟩
  | publishRunning => exact ⟨justified.congr rfl rfl,entitled,still⟩
  | startAction =>
    refine ⟨justified.record ?_,Caused.mono entitled _,_,rfl⟩
    rintro n (start | finish)
    · cases start; exact entitled
    · cases finish
  | succeed => exact ⟨justified.setNodeRun (fun _ => entitled),trivial,still⟩
  | fail => exact ⟨justified.setNodeRun (fun success => by simp at success),trivial,still⟩
  | getChildren =>
    refine ⟨justified,?_,still⟩
    cases x.pendingChildren g m.nodeID <;> trivial
  | @publishChild c rest =>
    refine ⟨justified.congr rfl rfl,?_,still⟩
    cases rest <;> trivial
  | _ => exact ⟨justified.congr rfl rfl,trivial,still⟩

def Causality (g : WorkflowGraph) (s : State) : Prop :=
  Justified g s.infra ∧ ∀ h ∈ s.handlers, h.pc.Entitled g s.infra.history h.msg.nodeID

/-- The goroutine that moves re-establishes its own part; the others keep theirs because
the history only grows. -/
theorem causality_set {i : Nat} {h : Handler} (causality : Causality g s)
    (justified : Justified g x) (entitled : pc.Entitled g x.history h.msg.nodeID)
    (grows : ∃ more, x.history = s.infra.history ++ more) : Causality g (setHandler s i h x pc) := by
  obtain ⟨more,history⟩ := grows
  refine ⟨justified,Pool.forall_set ?_ entitled⟩
  intro k member
  show k.pc.Entitled g x.history k.msg.nodeID
  rw [history]
  exact (causality.2 k member).mono more

theorem causality_step (sources : SourceTriggers g) {label : Label} (causality : Causality g s)
    (step : (system g).step label s = some t) : Causality g t := by
  cases step_moves step with
  | @call i o now h x pc here next =>
    have entitled := causality.2 h (List.mem_of_getElem? here)
    obtain ⟨z,pcz,call,outcome⟩ := next_cases next
    obtain ⟨justified,after,more,grows⟩ := call.justified sources causality.1 entitled
    rcases outcome with ⟨same,rfl⟩ | ⟨leaving,same | same⟩
    · exact causality_set causality (justified.congr same.nodeRuns same.history) (by rw [same.history]; exact after)
        ⟨more,by rw [same.history,grows]⟩
    · exact causality_set causality (causality.1.congr same.nodeRuns same.history) leaving.entitled
        ⟨[],by rw [same.history,List.append_nil]⟩
    · exact causality_set causality (justified.congr same.nodeRuns same.history) leaving.entitled
        ⟨more,by rw [same.history,grows]⟩
  | @finish i r err h here inside =>
    have entitled := causality.2 h (List.mem_of_getElem? here)
    rw [inside] at entitled
    refine causality_set causality (causality.1.record ?_) ?_ ⟨_,rfl⟩
    · rintro n (start | finish)
      · contradiction
      · obtain ⟨rfl,_⟩ := Event.finished.inj finish
        exact entitled
    · cases err with
      | none => exact List.mem_append_right _ (List.mem_singleton_self _)
      | some err => trivial
  | quiet same handlers =>
    refine ⟨causality.1.congr same.nodeRuns same.history,?_⟩
    intro h member
    rw [same.history]
    rcases handlers h member with old | new | ended
    · exact causality.2 h old
    · rw [new]; trivial
    · rw [ended]; trivial

theorem reach_causality (sources : SourceTriggers g) (reach : Reach (system g) anything s) :
    Causality g s := by
  refine Reach.invariant (Causality g) ?_ ?_ reach
  · refine ⟨⟨?_,?_,?_⟩,?_⟩
    · intro n action success
      simp [system,createWorkflowRun,action] at success
    · intro n finished
      simp [system,createWorkflowRun] at finished
    · intro pre post n split
      simp [system,createWorkflowRun] at split
    · intro h member
      simp [system] at member
  · intro s label t _ causality _ step
    exact causality_step sources causality step

/-- Whatever fails, repeats or crashes, an action starts after all its ancestors' actions. -/
theorem starts_after_ancestors (g : AcceptedGraph) (sources : SourceTriggers g.graph)
    (reach : Reach (system g.graph) anything s) : Causal g.graph s.infra.history :=
  (reach_causality sources reach).1.causal

def chainRun : List Label :=
  List.replicate 4 (.orchestrate .ok) ++ [.deliver ⟨2,0⟩,.redeliver ⟨2,0⟩] ++
  List.replicate 6 (.handle 0 .ok 1) ++ [.finish 0 none] ++ List.replicate 4 (.handle 0 .ok 2) ++
  [.deliver ⟨3,0⟩] ++ List.replicate 6 (.handle 1 .ok 3)

theorem chain_starts_after_ancestors :
    ∃ s : State, Causal chain.graph s.infra.history ∧ .started 3 ∈ s.infra.history := by
  obtain ⟨s,reach,started⟩ : ∃ s, Reach (system chain.graph) anything s ∧
      Event.started 3 ∈ s.infra.history := follow_exists chainRun (by decide +kernel)
  exact ⟨s,starts_after_ancestors chain (by decide) reach,started⟩

end TinyAutomator.Run
