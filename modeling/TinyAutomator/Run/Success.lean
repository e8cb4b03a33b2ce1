import TinyAutomator.Run.Attempts

/-! What a run's status 'success' says about its node runs. The finalizer takes every run
without a failed node for a success, so the counting before it has to see every node: the
running-node set leaves the roots out, and the fallback reads the pending nodes only. -/
namespace TinyAutomator.Run

open Transition

def Infra.AllSucceeded (x : Infra) (g : WorkflowGraph) : Prop :=
  ∀ n ∈ ids g, (x.nodeRuns n).status = .success

instance (g : WorkflowGraph) : DecidablePred fun x : Infra => x.AllSucceeded g := fun x =>
  inferInstanceAs (Decidable (∀ n ∈ ids g, (x.nodeRuns n).status = .success))

instance : DecidablePred NodeRun.Settled := fun row =>
  inferInstanceAs (Decidable (row.status = .success ∨ row.status = .failed ∧ row.retryCount = 3))

/-- A node has failed for good: no final status is 'success' from here on. -/
def Infra.Doomed (x : Infra) (g : WorkflowGraph) : Prop := ∃ n ∈ ids g, x.Exhausted n

/-- A node run that says 'running', or 'failed' with attempts left. -/
def NodeRun.UnderWay (row : NodeRun) : Prop := row.status ≠ .pending ∧ ¬row.Settled

instance (g : WorkflowGraph) : DecidablePred fun x : Infra => x.Doomed g := fun x =>
  inferInstanceAs (Decidable (∃ n ∈ ids g, x.Exhausted n))

instance : DecidablePred NodeRun.UnderWay := fun row =>
  inferInstanceAs (Decidable (row.status ≠ .pending ∧ ¬row.Settled))

/-- Where OrchestrateWorkflow counts any node, a root action that it leaves out has a child. -/
def RootsCounted (g : WorkflowGraph) : Prop :=
  nonRoots g = [] ∨ ∀ n ∈ ids g, parents g n = [] → isTrigger g n = false → children g n ≠ []

instance : DecidablePred RootsCounted := fun g => inferInstanceAs (Decidable
  (nonRoots g = [] ∨ ∀ n ∈ ids g, parents g n = [] → isTrigger g n = false → children g n ≠ []))

/-- At the read of its node run a goroutine is the only one at work on the node, and a third
attempt has left its outcome. At the read of the pending nodes, a node under way has a pending
child to stand for it. -/
def Handler.Finds (g : WorkflowGraph) (s : State) (h : Handler) : Prop :=
  (h.pc = .getNodeRun → (∀ k ∈ s.handlers, ¬Attempts h.msg.nodeID k) ∧
    ((s.infra.nodeRuns h.msg.nodeID).retryCount = 3 →
      (s.infra.nodeRuns h.msg.nodeID).status ≠ .running)) ∧
  (h.pc = .getPending → s.infra.Doomed g ∨
    ∀ n ∈ ids g, (s.infra.nodeRuns n).UnderWay → s.infra.pendingChildren g n ≠ [])

instance (g : WorkflowGraph) (s : State) : DecidablePred (Handler.Finds g s) := fun h =>
  inferInstanceAs (Decidable ((h.pc = .getNodeRun → (∀ k ∈ s.handlers, ¬Attempts h.msg.nodeID k) ∧
    ((s.infra.nodeRuns h.msg.nodeID).retryCount = 3 →
      (s.infra.nodeRuns h.msg.nodeID).status ≠ .running)) ∧
  (h.pc = .getPending → s.infra.Doomed g ∨
    ∀ n ∈ ids g, (s.infra.nodeRuns n).UnderWay → s.infra.pendingChildren g n ≠ [])))

/-- The counting loses no node; anything may fail, repeat or crash. -/
def Thorough (g : WorkflowGraph) (s : State) : Label → Prop
  | .orchestrate o => o.applied = true → s.orchestrator = .initSet → RootsCounted g
  | .handle i .ok _ => ∀ h ∈ s.handlers[i]?, h.Finds g s
  | _ => True

def thorough (g : WorkflowGraph) : Guard State Label := Thorough g

instance (g : WorkflowGraph) : ∀ s label, Decidable (thorough g s label)
  | s, .orchestrate o =>
    inferInstanceAs (Decidable (o.applied = true → s.orchestrator = .initSet → RootsCounted g))
  | s, .handle i .ok _ => inferInstanceAs (Decidable (∀ h ∈ s.handlers[i]?, h.Finds g s))
  | _, .handle _ .fail _ | _, .handle _ .lost _ | _, .finish .. | _, .deliver _ | _, .mature _
  | _, .expireSet | _, .expireLock | _, .redeliver _ | _, .crash _ | _, .crashOrchestrator =>
    inferInstanceAs (Decidable True)

/-- Every node run that is not settled is in the set, or a child of it is: the child cannot
be marked before its parent succeeded. -/
def Infra.Covers (x : Infra) (g : WorkflowGraph) (set : Finset NodeID) : Prop :=
  x.Doomed g ∨ ∀ n ∈ ids g, (x.nodeRuns n).Settled ∨ n ∈ set ∨ ∃ c ∈ children g n, c ∈ set

def Infra.Unblocked (x : Infra) (g : WorkflowGraph) (n : NodeID) : Prop :=
  ∀ p ∈ parents g n, (x.nodeRuns p).status = .success

/-- What a goroutine at work on node `n` may rely on. -/
def Pc.Knows (g : WorkflowGraph) (x : Infra) (n : NodeID) : Pc → Prop
  | .getNodeRun => x.Unblocked g n
  | .getNode _ | .markRunning _ | .publishRunning _ | .startAction _ | .inAction _
  | .updateStatus _ _ => x.Unblocked g n ∧ ¬(x.nodeRuns n).Settled
  | .publishStatus _ none | .getChildren | .publishChildren _ | .markComplete =>
    x.Unblocked g n ∧ (x.nodeRuns n).Settled
  | .acquireLock pending | .addPending pending => x.Covers g pending.toFinset
  | .getNodeRuns => x.Covers g ∅
  | .completeRun .success => x.AllSucceeded g
  | _ => True

structure Sound (g : WorkflowGraph) (s : State) : Prop where
  alone : ∀ n, Pool.Alone (Attempts n) s.handlers
  triggers : ∀ n, isTrigger g n = true → (s.infra.nodeRuns n).status = .success
  knows : ∀ h ∈ s.handlers, h.pc.Knows g s.infra h.msg.nodeID
  covered : s.infra.runningSet = ∅ ∨ s.infra.Covers g s.infra.runningSet
  sound : s.infra.run.status = .success → s.infra.AllSucceeded g

/-- A settled node run stays as it is. -/
def Infra.Settles (x y : Infra) : Prop := ∀ n, (x.nodeRuns n).Settled → y.nodeRuns n = x.nodeRuns n

variable {g : WorkflowGraph} {s t : State} {x y : Infra} {m : Message} {now : Int} {pc pc' : Pc}
  {i : Nat} {h : Handler} {n : NodeID} {label : Label} {set set' : Finset NodeID}

theorem publishing_ne_completeRun {rest : List NodeID} {status : RunStatus} :
    publishing rest ≠ .completeRun status := by
  cases rest <;> simp [publishing]

theorem Call.completeRun_cases {status : RunStatus} (call : Call g x m now pc y pc')
    (decides : pc' = .completeRun status) : pc = .getNodeRuns ∧ y = x ∧ status = x.finalStatus g := by
  cases call with
  | getNodeRuns => cases decides; exact ⟨rfl,rfl,rfl⟩
  | getChildren => exact absurd decides publishing_ne_completeRun
  | publishChild => exact absurd decides publishing_ne_completeRun
  | _ => contradiction

/-- Only a successful read of the node runs leads to the write of a final status. -/
theorem next_completeRun {o : Outcome} {status : RunStatus}
    (next : pc.next g x m o now = some (y,pc')) (decides : pc' = .completeRun status) :
    o = .ok ∧ pc = .getNodeRuns ∧ y = x ∧ status = x.finalStatus g := by
  cases o with
  | ok => exact ⟨rfl,(call_cases next).completeRun_cases decides⟩
  | fail | lost =>
    obtain ⟨z,pcz,call,⟨_,same⟩ | ⟨leaving,_⟩⟩ := next_cases next
    · obtain ⟨rfl,_⟩ := call.completeRun_cases (same.symm.trans decides)
      cases next
      contradiction
    · rw [decides] at leaving
      exact absurd leaving id


theorem Infra.Settles.success (settles : x.Settles y) (success : (x.nodeRuns n).status = .success) :
    (y.nodeRuns n).status = .success := by
  rw [settles n (.inl success)]
  exact success

theorem Infra.Settles.settled (settles : x.Settles y) (settled : (x.nodeRuns n).Settled) :
    (y.nodeRuns n).Settled := by
  rw [settles n settled]
  exact settled

theorem Infra.Settles.ready (settles : x.Settles y) (ready : x.Unblocked g n) : y.Unblocked g n :=
  fun p parent => settles.success (ready p parent)

theorem Infra.Settles.allSucceeded (settles : x.Settles y) (all : x.AllSucceeded g) :
    y.AllSucceeded g :=
  fun n member => settles.success (all n member)

theorem Infra.Settles.covers (settles : x.Settles y) (covers : x.Covers g set) (more : set ⊆ set') :
    y.Covers g set' := by
  rcases covers with ⟨n,member,exhausted⟩ | all
  · left
    refine ⟨n,member,?_⟩
    rw [Infra.Exhausted,settles n (.inr exhausted)]
    exact exhausted
  · right
    intro n member
    rcases all n member with settled | own | ⟨c,child,counted⟩
    · exact .inl (settles.settled settled)
    · exact .inr (.inl (more own))
    · exact .inr (.inr ⟨c,child,more counted⟩)

theorem settles_of_rows (rows : y.nodeRuns = x.nodeRuns) : x.Settles y := fun n _ => by rw [rows]

/-- What a goroutine knows survives the moves of others that leave its attempt alone. -/
theorem Pc.Knows.kept (knows : pc.Knows g x n) (settles : x.Settles y)
    (own : pc.Attempting → y.nodeRuns n = x.nodeRuns n) : pc.Knows g y n := by
  cases pc with
  | getNodeRun => exact settles.ready knows
  | getNode | markRunning | publishRunning | startAction | inAction | updateStatus =>
    refine ⟨settles.ready knows.1,?_⟩
    rw [own trivial]
    exact knows.2
  | publishStatus r err =>
    cases err with
    | none => exact ⟨settles.ready knows.1,settles.settled knows.2⟩
    | some err => trivial
  | getChildren | publishChildren | markComplete =>
    exact ⟨settles.ready knows.1,settles.settled knows.2⟩
  | acquireLock | addPending | getNodeRuns => exact settles.covers knows (Finset.Subset.refl _)
  | completeRun status =>
    cases status with
    | success => exact settles.allSucceeded knows
    | _ => trivial
  | _ => trivial

theorem Pc.Leaving.knows (leaving : pc.Leaving) : pc.Knows g x n := by
  cases pc <;> trivial

theorem Pc.Knows.unsettled (knows : pc.Knows g x n) (attempting : pc.Attempting) :
    ¬(x.nodeRuns n).Settled := by
  cases pc <;> first | exact knows.2 | exact absurd attempting id

/-- A goroutine writes its own row, and not once that is settled. -/
theorem Call.settles (call : Call g x m now pc y pc') (knows : pc.Knows g x m.nodeID) : x.Settles y := by
  intro n settled
  by_cases attempting : pc.Attempting
  · have other : n ≠ m.nodeID := by
      rintro rfl
      exact knows.unsettled attempting settled
    exact (Act.call call).elsewhere other
  · rw [(Act.call call).unwritten attempting]

/-- Taking the goroutine's own node out of the set: it is settled and its parents succeeded. -/
theorem Infra.Covers.erase (covers : x.Covers g set) (ready : x.Unblocked g n)
    (settled : (x.nodeRuns n).Settled) : x.Covers g (set.erase n) := by
  rcases covers with doomed | all
  · exact .inl doomed
  · right
    intro k member
    rcases all k member with done | own | ⟨c,child,counted⟩
    · exact .inl done
    · by_cases same : k = n
      · subst same
        exact .inl settled
      · exact .inr (.inl (Finset.mem_erase.mpr ⟨same,own⟩))
    · by_cases same : c = n
      · subst same
        exact .inl (.inl (ready k ((mem_parents_iff_children g).mpr child)))
      · exact .inr (.inr ⟨c,child,Finset.mem_erase.mpr ⟨same,counted⟩⟩)

/-- The pending nodes cover the run when every node under way has a pending child. -/
theorem pendingNodes_cover (child : ∀ n, ∀ c ∈ children g n, c ∈ ids g)
    (stands : x.Doomed g ∨ ∀ n ∈ ids g, (x.nodeRuns n).UnderWay → x.pendingChildren g n ≠ []) :
    x.Covers g (x.pendingNodes g).toFinset := by
  rcases stands with doomed | all
  · exact .inl doomed
  · right
    intro n member
    by_cases settled : (x.nodeRuns n).Settled
    · exact .inl settled
    · by_cases pending : (x.nodeRuns n).status = .pending
      · exact .inr (.inl (List.mem_toFinset.mpr (Infra.mem_pendingNodes.mpr ⟨member,pending⟩)))
      · obtain ⟨c,waiting⟩ := List.exists_mem_of_ne_nil _ (all n member ⟨pending,settled⟩)
        obtain ⟨parent,pending⟩ := Infra.mem_pendingChildren.mp waiting
        have below := (mem_parents_iff_children g).mp parent
        exact .inr (.inr ⟨c,below,List.mem_toFinset.mpr
          (Infra.mem_pendingNodes.mpr ⟨child n c below,pending⟩)⟩)

/-- The nodes that OrchestrateWorkflow counts cover the run from the start. -/
theorem nonRoots_cover (child : ∀ n, ∀ c ∈ children g n, c ∈ ids g)
    (triggers : ∀ n, isTrigger g n = true → (x.nodeRuns n).status = .success)
    (counted : ∀ n ∈ ids g, parents g n = [] → isTrigger g n = false → children g n ≠ []) :
    x.Covers g (nonRoots g).toFinset := by
  have below : ∀ n ∈ ids g, parents g n ≠ [] → n ∈ (nonRoots g).toFinset := by
    intro n member up
    apply List.mem_toFinset.mpr
    refine List.mem_filter.mpr ⟨member,decide_eq_true ?_⟩
    exact fun root => up ((mem_roots g).mp root).2
  right
  intro n member
  by_cases root : parents g n = []
  · by_cases trigger : isTrigger g n = true
    · exact .inl (.inl (triggers n trigger))
    · obtain ⟨c,edge⟩ := List.exists_mem_of_ne_nil _ (counted n member root (by simpa using trigger))
      have parent := (mem_parents_iff_children g).mpr edge
      exact .inr (.inr ⟨c,edge,below c (child n c edge) (List.ne_nil_of_mem parent)⟩)
  · exact .inr (.inl (below n member root))

/-- With no node left to count, a final status 'success' is right. -/
theorem Infra.Covers.allSucceeded (covers : x.Covers g ∅) (final : x.finalStatus g = .success) :
    x.AllSucceeded g := by
  have unfailed : ∀ n ∈ ids g, (x.nodeRuns n).status ≠ .failed := by
    intro n member failed
    rw [Infra.finalStatus,if_pos ⟨n,member,failed⟩] at final
    contradiction
  rcases covers with ⟨n,member,failed,_⟩ | all
  · exact absurd failed (unfailed n member)
  · intro n member
    rcases all n member with (success | ⟨failed,_⟩) | counted | ⟨c,_,counted⟩
    · exact success
    · exact absurd failed (unfailed n member)
    · exact absurd counted (Finset.notMem_empty n)
    · exact absurd counted (Finset.notMem_empty c)

theorem publishing_knows {rest : List NodeID} (ready : x.Unblocked g n)
    (settled : (x.nodeRuns n).Settled) : (publishing rest).Knows g x n := by
  cases rest <;> exact ⟨ready,settled⟩

/-- What the goroutine that moves knows afterwards. -/
theorem Call.knows (call : Call g x m now pc y pc') (child : ∀ n, ∀ c ∈ children g n, c ∈ ids g)
    (fresh : x.Fresh) (knows : pc.Knows g x m.nodeID)
    (covered : x.runningSet = ∅ ∨ x.Covers g x.runningSet)
    (wrote : pc = .getNodeRun → (x.nodeRuns m.nodeID).retryCount = 3 →
      (x.nodeRuns m.nodeID).status ≠ .running)
    (stands : pc = .getPending → x.Doomed g ∨
      ∀ n ∈ ids g, (x.nodeRuns n).UnderWay → x.pendingChildren g n ≠ []) :
    pc'.Knows g y m.nodeID := by
  have settles := call.settles knows
  cases call with
  | ready all => exact all
  | skip settled =>
    refine ⟨knows,?_⟩
    rcases settled with three | success
    · cases status : (x.nodeRuns m.nodeID).status with
      | pending => rw [fresh _ status] at three; contradiction
      | running => exact absurd status (wrote rfl three)
      | success => exact .inl status
      | failed => exact .inr ⟨status,three⟩
    · exact .inl success
  | attempt left unsuccessful =>
    refine ⟨knows,?_⟩
    rintro (success | ⟨_,three⟩)
    · exact unsuccessful success
    · exact left three
  | getNode | publishRunning | startAction => exact knows
  | markRunning =>
    refine ⟨settles.ready knows.1,?_⟩
    simp [NodeRun.Settled,Infra.markWorkflowNodeAsRunning]
  | succeed =>
    refine ⟨settles.ready knows.1,?_⟩
    simp [NodeRun.Settled,Infra.updateWorkflowNodeRunStatus]
  | publishSuccess | publishedAll => exact knows
  | getChildren | publishChild => exact publishing_knows knows.1 knows.2
  | markLast present last =>
    have erased := (covered.resolve_left present).erase knows.1 knows.2
    rw [last] at erased
    exact erased
  | nonePending none =>
    have cover := pendingNodes_cover child (stands rfl)
    rw [none] at cover
    exact cover
  | somePending => exact pendingNodes_cover child (stands rfl)
  | lock => exact knows
  | getNodeRuns =>
    cases final : x.finalStatus g with
    | success => exact Infra.Covers.allSucceeded knows final
    | _ => trivial
  | _ => trivial

theorem Call.covered (call : Call g x m now pc y pc') (knows : pc.Knows g x m.nodeID)
    (covered : x.runningSet = ∅ ∨ x.Covers g x.runningSet) :
    y.runningSet = ∅ ∨ y.Covers g y.runningSet := by
  have settles := call.settles knows
  have same : y.runningSet = x.runningSet → y.runningSet = ∅ ∨ y.Covers g y.runningSet := by
    intro eq
    rw [eq]
    exact covered.imp_right fun covers => settles.covers covers (Finset.Subset.refl _)
  cases call with
  | markLast present | markOne present =>
    exact .inr ((covered.resolve_left present).erase knows.1 knows.2)
  | addPending =>
    have pending : x.Covers g _ := knows
    exact .inr (settles.covers pending Finset.subset_union_right)
  | _ => exact same rfl

theorem Call.sound (call : Call g x m now pc y pc') (knows : pc.Knows g x m.nodeID)
    (sound : x.run.status = .success → x.AllSucceeded g) (success : y.run.status = .success) :
    y.AllSucceeded g := by
  have settles := call.settles knows
  rcases call.run with same | ⟨status,rfl,wrote⟩ | ⟨_,wrote⟩
  · rw [same] at success
    exact settles.allSucceeded (sound success)
  · rw [wrote] at success
    have decided : status = .success := success
    subst decided
    exact settles.allSucceeded knows
  · rw [wrote] at success
    contradiction

theorem next_reads {o : Outcome} (next : pc.next g x m o now = some (y,pc'))
    (reads : pc = .getNodeRun ∨ pc = .getPending) : o = .ok ∨ pc'.Leaving := by
  cases o with
  | ok => exact .inl rfl
  | fail | lost => rcases reads with rfl | rfl <;> (cases next; exact .inr trivial)

theorem Sound.call {o : Outcome} (inv : Sound g s)
    (child : ∀ n, ∀ c ∈ children g n, c ∈ ids g) (fresh : s.infra.Fresh)
    (here : s.handlers[i]? = some h) (finds : o = .ok → h.Finds g s)
    (next : h.pc.next g s.infra h.msg o now = some (x,pc)) : Sound g (setHandler s i h x pc) := by
  have knows := inv.knows h (List.mem_of_getElem? here)
  obtain ⟨z,pcz,call,effect,goes⟩ := next_outcome next
  have settles : s.infra.Settles z := call.settles knows
  -- the call has no effect that the node runs or the set can see, or it has the whole effect
  have either : (x.Same s.infra ∧ x.runningSet = s.infra.runningSet) ∨ x = z := by
    rcases effect with rfl | rfl | rfl
    · exact .inl ⟨.refl _,rfl⟩
    · exact .inr rfl
    · exact .inl ⟨⟨rfl,rfl,rfl⟩,rfl⟩
  have kept : s.infra.Settles x := by
    rcases either with ⟨same,_⟩ | rfl
    · exact settles_of_rows same.nodeRuns
    · exact settles
  have after : ¬pc.Leaving → x.Same z ∧ pc = pcz ∧
      (h.pc = .getNodeRun ∨ h.pc = .getPending → h.Finds g s) := by
    intro stays
    obtain ⟨same,rfl⟩ := goes.resolve_right stays
    exact ⟨same,rfl,fun reads => finds ((next_reads next reads).resolve_right stays)⟩
  constructor
  · intro n
    apply (inv.alone n).set here
    rintro ⟨rfl,attempting⟩
    have stays : ¬pc.Leaving := by
      intro leaving
      cases pc <;> first | exact leaving | exact attempting
    obtain ⟨_,rfl,found⟩ := after stays
    rcases call.attempting attempting with before | reads
    · exact .inl ⟨rfl,before⟩
    · right
      intro j k there _
      exact ((found (.inl reads)).1 reads).1 k (List.mem_of_getElem? there)
  · exact fun n is => kept.success (inv.triggers n is)
  · intro k member
    rcases Pool.mem_set_cases member with rfl | ⟨j,different,there⟩
    · show pc.Knows g x h.msg.nodeID
      by_cases leaving : pc.Leaving
      · exact leaving.knows
      · obtain ⟨same,rfl,found⟩ := after leaving
        have known := call.knows child fresh knows inv.covered
          (fun reads => ((found (.inl reads)).1 reads).2) fun reads => (found (.inr reads)).2 reads
        exact known.kept (settles_of_rows same.nodeRuns) fun _ => by rw [same.nodeRuns]
    · apply (inv.knows k (List.mem_of_getElem? there)).kept kept
      intro attempting
      show x.nodeRuns k.msg.nodeID = s.infra.nodeRuns k.msg.nodeID
      rcases either with ⟨same,_⟩ | rfl
      · rw [same.nodeRuns]
      · by_cases own : h.pc.Attempting
        · apply (Act.call call).elsewhere
          intro same
          exact different (inv.alone _ j i k h there here ⟨same,attempting⟩ ⟨rfl,own⟩)
        · rw [(Act.call call).unwritten own]
  · rcases either with ⟨same,set⟩ | rfl
    · show x.runningSet = ∅ ∨ x.Covers g x.runningSet
      rw [set]
      exact inv.covered.imp_right fun covers => kept.covers covers (Finset.Subset.refl _)
    · exact call.covered knows inv.covered
  · intro success
    rcases either with ⟨same,_⟩ | rfl
    · exact kept.allSucceeded (inv.sound (same.run ▸ success))
    · exact call.sound knows inv.sound success

theorem Sound.outside (inv : Sound g s) (rows : t.infra.nodeRuns = s.infra.nodeRuns)
    (run : t.infra.run = s.infra.run) (alone : ∀ n, Pool.Alone (Attempts n) t.handlers)
    (handlers : ∀ h ∈ t.handlers, h.pc.Knows g s.infra h.msg.nodeID)
    (covered : t.infra.runningSet = ∅ ∨ s.infra.Covers g t.infra.runningSet) : Sound g t := by
  have settles := settles_of_rows rows
  constructor
  · exact alone
  · exact fun n is => settles.success (inv.triggers n is)
  · exact fun h member => (handlers h member).kept settles fun _ => by rw [rows]
  · exact covered.imp_right fun covers => settles.covers covers (Finset.Subset.refl _)
  · exact fun success => settles.allSucceeded (inv.sound (run ▸ success))

theorem Sound.orchestrate {o : Outcome} {q : OrchestratorPc} (inv : Sound g s)
    (child : ∀ n, ∀ c ∈ children g n, c ∈ ids g)
    (counted : o.applied = true → s.orchestrator = .initSet → RootsCounted g)
    (next : s.orchestrator.next g s.infra o = some (x,q)) :
    Sound g {s with infra := x, orchestrator := q} := by
  have same := orchestrate_same next
  refine inv.outside same.nodeRuns same.run inv.alone inv.knows ?_
  show x.runningSet = ∅ ∨ s.infra.Covers g x.runningSet
  by_cases first : s.orchestrator = .initSet
  · have set : x.runningSet = if o.applied then s.infra.runningSet ∪ (nonRoots g).toFinset
        else s.infra.runningSet := by
      rw [first] at next
      cases next
      cases o <;> rfl
    rw [set]
    split
    next applied =>
      rcases counted applied first with none | reaches
      · rw [none,List.toFinset_nil,Finset.union_empty]
        exact inv.covered
      · have settles : s.infra.Settles s.infra := fun _ _ => rfl
        exact .inr (settles.covers (nonRoots_cover child inv.triggers reaches)
          Finset.subset_union_right)
    next => exact inv.covered
  · obtain ⟨z,qz,orchestration,effect,_⟩ := orchestrate_outcome next
    have set : x.runningSet = s.infra.runningSet := by
      rcases effect with rfl | rfl
      · rfl
      · exact orchestration.set first
    rw [set]
    exact inv.covered

theorem Sound.step (inv : Sound g s) (child : ∀ n, ∀ c ∈ children g n, c ∈ ids g)
    (fresh : s.infra.Fresh) (allowed : thorough g s label) (step : (system g).step label s = some t) :
    Sound g t := by
  cases step_cases step with
  | orchestrate next => exact inv.orchestrate child allowed next
  | @handle i o now h x pc here next =>
    refine inv.call child fresh here ?_ next
    rintro rfl
    exact allowed h here
  | @finish i r err h here inside =>
    have knows := inv.knows h (List.mem_of_getElem? here)
    rw [inside] at knows
    refine inv.outside rfl rfl ?_ (Pool.forall_set inv.knows knows) inv.covered
    intro n
    apply (inv.alone n).set here
    exact fun attempts => .inl ⟨attempts.1,by rw [inside]; trivial⟩
  | deliver queued =>
    refine inv.outside rfl rfl ?_ (Pool.forall_append inv.knows trivial) inv.covered
    exact fun n => (inv.alone n).append fun attempts => attempts.2
  | expireSet => exact inv.outside rfl rfl inv.alone inv.knows (.inl rfl)
  | @crash i h here alive =>
    refine inv.outside rfl rfl ?_ (Pool.forall_set inv.knows trivial) inv.covered
    exact fun n => (inv.alone n).set here fun attempts => absurd attempts.2 id
  | mature | expireLock | redeliver | crashOrchestrator =>
    exact inv.outside rfl rfl inv.alone inv.knows inv.covered

theorem reach_sound (g : AcceptedGraph) (reach : Reach (system g.graph) (thorough g.graph) s) :
    Sound g.graph s := by
  refine Reach.invariant (Sound g.graph) ?_ ?_ reach
  · constructor
    · intro n i j a b here
      simp [system] at here
    · intro n is
      simp [system,createWorkflowRun,is]
    · intro h member
      simp [system] at member
    · exact .inl rfl
    · intro success
      contradiction
  · intro s label t reach inv allowed step
    exact inv.step (fun n c => g.child_mem) (reach_fresh (reach.mono fun _ _ _ => trivial))
      allowed step

/-- While the counting loses no node, a run that succeeded has only node runs that succeeded,
whatever fails or repeats. -/
theorem success_sound (g : AcceptedGraph) (reach : Reach (system g.graph) (thorough g.graph) s)
    (success : s.infra.run.status = .success) : s.infra.AllSucceeded g.graph :=
  (reach_sound g reach).sound success

theorem chain_success_sound : ∃ s : State, s.infra.run = ⟨.success,some 9⟩ ∧
    s.infra.AllSucceeded chain.graph := by
  obtain ⟨s,reach,run⟩ : ∃ s, Reach (system chain.graph) (thorough chain.graph) s ∧
      s.infra.run = ⟨.success,some 9⟩ :=
    follow_exists (List.flatten [List.replicate 4 (.orchestrate .ok), [.deliver ⟨2,0⟩],
      List.replicate 6 (.handle 0 .ok 1), [.finish 0 none], List.replicate 6 (.handle 0 .ok 2),
      [.deliver ⟨3,0⟩], List.replicate 6 (.handle 1 .ok 3), [.finish 1 none],
      List.replicate 6 (.handle 1 .ok 9)]) (by decide +kernel)
  exact ⟨s,run,success_sound chain reach (by rw [run])⟩

/-- No node is in the running-node set, and the fallback counts pending node runs only:
the run succeeds while an action is running. Nothing fails. -/
theorem apart_success_while_running : ¬∀ (g : AcceptedGraph) (s : State),
    Reach (system g.graph) anything s → s.infra.run.status = .success → s.infra.AllSucceeded g.graph := by
  intro claim
  obtain ⟨s,reach,success,running⟩ : ∃ s, Reach (system apart.graph) anything s ∧
      s.infra.run.status = .success ∧ (s.infra.nodeRuns 2).status = .running :=
    follow_exists (List.flatten [List.replicate 5 (.orchestrate .ok), [.deliver ⟨1,0⟩,.deliver ⟨2,0⟩],
      List.replicate 6 (.handle 1 .ok 1), List.replicate 6 (.handle 0 .ok 1), [.finish 0 none],
      List.replicate 7 (.handle 0 .ok 2)]) (by decide +kernel)
  have succeeded := claim apart s reach success 2 (by decide)
  rw [running] at succeeded
  contradiction

end TinyAutomator.Run
