import TinyAutomator.Run.Steps

/-! Overlapping attempts. A goroutine reads the status of its node, decides, and writes
'running' later, so two goroutines of one node can both decide to run the action. -/
namespace TinyAutomator.Run

open Transition

/-- Between the read of the node run and the write of its outcome. -/
def Pc.Attempting : Pc → Prop
  | .getNode _ | .markRunning _ | .publishRunning _ | .startAction _ | .inAction _
  | .updateStatus _ _ => True
  | _ => False

instance : DecidablePred Pc.Attempting
  | .getNode _ | .markRunning _ | .publishRunning _ | .startAction _ | .inAction _
  | .updateStatus _ _ => inferInstanceAs (Decidable True)
  | .getParents | .getNodeRun | .publishStatus _ _ | .completeFailed | .getChildren
  | .publishChildren _ | .markComplete | .getPending | .acquireLock _ | .addPending _
  | .getNodeRuns | .completeRun _ | .failed | .ack | .nack | .done => inferInstanceAs (Decidable False)

def Attempts (n : NodeID) (h : Handler) : Prop := h.msg.nodeID = n ∧ h.pc.Attempting

instance (n : NodeID) : DecidablePred (Attempts n) := fun h =>
  inferInstanceAs (Decidable (h.msg.nodeID = n ∧ h.pc.Attempting))

def Handler.Exclusive (s : State) (h : Handler) : Prop :=
  h.pc = .getNodeRun → ∀ k ∈ s.handlers, ¬Attempts h.msg.nodeID k

/-- Nobody reads a node run while another goroutine attempts the same node. -/
def Exclusive (s : State) : Label → Prop
  | .handle i _ _ => ∀ h ∈ s.handlers[i]?, h.Exclusive s
  | _ => True

def Label.Succeeds : Label → Prop
  | .finish _ err => err = none
  | _ => True

def successful : Guard State Label := fun _ label => label.FaultFree ∧ label.Succeeds

/-- No fault, every action succeeds, and attempts do not overlap. -/
def undisturbed : Guard State Label := fun s label => successful s label ∧ Exclusive s label

instance (s : State) : DecidablePred (Handler.Exclusive s) := fun h =>
  inferInstanceAs (Decidable (h.pc = .getNodeRun → ∀ k ∈ s.handlers, ¬Attempts h.msg.nodeID k))

instance : ∀ s label, Decidable (Exclusive s label)
  | s, .handle i _ _ => inferInstanceAs (Decidable (∀ h ∈ s.handlers[i]?, h.Exclusive s))
  | _, .orchestrate _ | _, .finish .. | _, .deliver _ | _, .mature _ | _, .expireSet | _, .expireLock
  | _, .redeliver _ | _, .crash _ | _, .crashOrchestrator => inferInstanceAs (Decidable True)

instance : DecidablePred Label.Succeeds
  | .finish _ err => inferInstanceAs (Decidable (err = none))
  | .orchestrate _ | .handle .. | .deliver _ | .mature _ | .expireSet | .expireLock
  | .redeliver _ | .crash _ | .crashOrchestrator => inferInstanceAs (Decidable True)

instance : ∀ s label, Decidable (successful s label) := fun _ label =>
  inferInstanceAs (Decidable (label.FaultFree ∧ label.Succeeds))

instance : ∀ s label, Decidable (undisturbed s label) := fun s label =>
  inferInstanceAs (Decidable (successful s label ∧ Exclusive s label))

/-- The number of times the action handler of `n` was invoked. -/
def starts (history : List Event) (n : NodeID) : Nat := history.count (.started n)

/-- How often the node of an attempting goroutine was started so far. -/
def Pc.Once (count : Nat) : Pc → Prop
  | .getNode _ | .markRunning _ | .publishRunning _ | .startAction _ => count = 0
  | .inAction _ | .updateStatus _ none => count = 1
  | .updateStatus _ (some _) => False
  | _ => True

structure AtMostOnce (s : State) : Prop where
  alone : ∀ n, Pool.Alone (Attempts n) s.handlers
  once : ∀ h ∈ s.handlers, h.pc.Once (starts s.infra.history h.msg.nodeID)
  idle : ∀ n, (∀ h ∈ s.handlers, ¬Attempts n h) → (s.infra.nodeRuns n).status ≠ .success →
    starts s.infra.history n = 0
  bound : ∀ n, starts s.infra.history n ≤ 1

variable {g : WorkflowGraph} {s t : State} {x y : Infra} {m : Message} {now : Int} {pc pc' : Pc}
  {i : Nat} {h : Handler} {n : NodeID} {label : Label}

theorem starts_started (history : List Event) (n k : NodeID) :
    starts (history ++ [.started n]) k = starts history k + if n = k then 1 else 0 := by
  simp only [starts,List.count_append,List.count_singleton,beq_iff_eq,Event.started.injEq]

theorem starts_finished (history : List Event) (n k : NodeID) (succeeded : Bool) :
    starts (history ++ [.finished n succeeded]) k = starts history k := by
  simp [starts]

theorem Call.attempting (call : Call g x m now pc y pc') (attempting : pc'.Attempting) :
    pc.Attempting ∨ pc = .getNodeRun := by
  cases call with
  | attempt => exact .inr rfl
  | getNode | markRunning | publishRunning | startAction => exact .inl trivial
  | getChildren => cases h : x.pendingChildren g m.nodeID <;> rw [h] at attempting <;> exact absurd attempting id
  | @publishChild c rest => cases rest <;> exact absurd attempting id
  | _ => exact absurd attempting id

/-- Attempts stay alone when a goroutine that moves entered alone. -/
theorem alone_call (alone : ∀ n, Pool.Alone (Attempts n) s.handlers) (here : s.handlers[i]? = some h)
    (call : Call g s.infra h.msg now h.pc x pc) (exclusive : h.Exclusive s) :
    ∀ n, Pool.Alone (Attempts n) (s.handlers.set i {h with pc := pc}) := by
  intro n
  apply (alone n).set here
  rintro ⟨same,attempting⟩
  rcases call.attempting attempting with before | reads
  · exact .inl ⟨same,before⟩
  · right
    intro j k there _
    rw [← same]
    exact exclusive reads k (List.mem_of_getElem? there)

theorem alone_faultless (alone : ∀ n, Pool.Alone (Attempts n) s.handlers)
    (step : Faultless g s label t) (exclusive : Exclusive s label) :
    ∀ n, Pool.Alone (Attempts n) t.handlers := by
  cases step with
  | call here call => exact alone_call alone here call (exclusive _ here)
  | @finish i r err h here inside =>
    intro n
    apply (alone n).set here
    exact fun attempts => .inl ⟨attempts.1,by rw [inside]; trivial⟩
  | deliver queued => exact fun n => (alone n).append fun attempts => attempts.2
  | _ => exact alone

theorem Pc.Once.of_not_attempting {count : Nat} (away : ¬pc.Attempting) : pc.Once count := by
  cases pc <;> first | trivial | exact absurd trivial away

/-- A goroutine that moves touches its own node only, and restarts the count only while
it attempts the node, so that no other goroutine counts on it. -/
theorem AtMostOnce.set (inv : AtMostOnce s) (here : s.handlers[i]? = some h)
    (alone : ∀ n, Pool.Alone (Attempts n) (s.handlers.set i {h with pc := pc}))
    (others : ∀ k, k ≠ h.msg.nodeID → starts x.history k = starts s.infra.history k ∧
      (x.nodeRuns k).status = (s.infra.nodeRuns k).status)
    (own : pc.Once (starts x.history h.msg.nodeID))
    (idle : (∀ k ∈ s.handlers.set i {h with pc := pc}, ¬Attempts h.msg.nodeID k) →
      (x.nodeRuns h.msg.nodeID).status ≠ .success → starts x.history h.msg.nodeID = 0)
    (bound : starts x.history h.msg.nodeID ≤ 1)
    (moved : starts x.history h.msg.nodeID = starts s.infra.history h.msg.nodeID ∨ h.pc.Attempting) :
    AtMostOnce (setHandler s i h x pc) := by
  constructor
  · exact alone
  · intro k member
    rcases Pool.mem_set_cases member with rfl | ⟨j,different,there⟩
    · exact own
    · have before := inv.once k (List.mem_of_getElem? there)
      show k.pc.Once (starts x.history k.msg.nodeID)
      by_cases same : k.msg.nodeID = h.msg.nodeID
      · rcases moved with kept | attempting
        · rw [same,kept,← same]; exact before
        · apply Pc.Once.of_not_attempting
          exact fun too => different (inv.alone _ j i k h there here ⟨same,too⟩ ⟨rfl,attempting⟩)
      · rw [(others _ same).1]; exact before
  · intro k none unsuccessful
    by_cases same : k = h.msg.nodeID
    · subst same; exact idle none unsuccessful
    · show starts x.history k = 0
      rw [(others k same).1]
      apply inv.idle k
      · intro old member attempts
        have other : old ≠ h := fun eq => same (eq ▸ attempts.1.symm)
        exact none old (Pool.mem_set_of_ne here member other _) attempts
      · exact (others k same).2 ▸ unsuccessful
  · intro k
    by_cases same : k = h.msg.nodeID
    · subst same; exact bound
    · show starts x.history k ≤ 1
      rw [(others k same).1]; exact inv.bound k

theorem AtMostOnce.quiet (inv : AtMostOnce s) (here : s.handlers[i]? = some h)
    (alone : ∀ n, Pool.Alone (Attempts n) (s.handlers.set i {h with pc := pc}))
    (history : x.history = s.infra.history) (rows : x.nodeRuns = s.infra.nodeRuns)
    (own : pc.Once (starts s.infra.history h.msg.nodeID)) (stays : h.pc.Attempting → pc.Attempting) :
    AtMostOnce (setHandler s i h x pc) := by
  apply inv.set here alone
  · intro k _; rw [history,rows]; exact ⟨rfl,rfl⟩
  · rw [history]; exact own
  · intro none unsuccessful
    rw [history]
    rw [rows] at unsuccessful
    apply inv.idle _ _ unsuccessful
    intro k member attempts
    by_cases same : k = h
    · subst same
      exact none _ (Pool.mem_set_self here) ⟨rfl,stays attempts.2⟩
    · exact none k (Pool.mem_set_of_ne here member same _) attempts
  · rw [history]; exact inv.bound _
  · exact .inl (by rw [history])

theorem AtMostOnce.call (inv : AtMostOnce s) (here : s.handlers[i]? = some h)
    (call : Call g s.infra h.msg now h.pc x pc) (exclusive : h.Exclusive s) :
    AtMostOnce (setHandler s i h x pc) := by
  have alone := alone_call inv.alone here call exclusive
  have own := inv.once h (List.mem_of_getElem? here)
  obtain ⟨m,at_⟩ := h
  dsimp only at call own alone
  cases call with
  | attempt left unsuccessful =>
    exact inv.quiet here alone rfl rfl (inv.idle _ (exclusive rfl) unsuccessful) fun _ => trivial
  | getNode => exact inv.quiet here alone rfl rfl own fun _ => trivial
  | publishRunning => exact inv.quiet here alone rfl rfl own fun _ => trivial
  | markRunning =>
    apply inv.set here alone
    · intro k different
      exact ⟨rfl,by rw [Infra.markWorkflowNodeAsRunning,Infra.setNodeRun_other _ different]⟩
    · exact own
    · exact fun none => absurd ⟨rfl,trivial⟩ (none _ (Pool.mem_set_self here))
    · exact inv.bound _
    · exact .inl rfl
  | startAction =>
    have count : starts s.infra.history m.nodeID = 0 := own
    apply inv.set here alone
    · intro k different
      simp [Infra.record,starts_started,Ne.symm different]
    · simp [Pc.Once,Infra.record,starts_started,count]
    · exact fun none => absurd ⟨rfl,trivial⟩ (none _ (Pool.mem_set_self here))
    · simp [Infra.record,starts_started,count]
    · exact .inr trivial
  | succeed =>
    apply inv.set here alone
    · intro k different
      exact ⟨rfl,by rw [Infra.updateWorkflowNodeRunStatus,Infra.setNodeRun_other _ different]⟩
    · trivial
    · intro _ unsuccessful
      simp [Infra.updateWorkflowNodeRunStatus] at unsuccessful
    · exact inv.bound _
    · exact .inl rfl
  | fail => exact absurd own id
  | getChildren =>
    refine inv.quiet here alone rfl rfl ?_ fun attempting => absurd attempting id
    cases s.infra.pendingChildren g m.nodeID <;> trivial
  | @publishChild c rest =>
    refine inv.quiet here alone rfl rfl ?_ fun attempting => absurd attempting id
    cases rest <;> trivial
  | _ => exact inv.quiet here alone rfl rfl trivial id

theorem AtMostOnce.outside (inv : AtMostOnce s) (same : t.infra.Same s.infra)
    (alone : ∀ n, Pool.Alone (Attempts n) t.handlers)
    (newer : ∀ h ∈ t.handlers, h ∈ s.handlers ∨ h.pc = .getParents)
    (older : ∀ h ∈ s.handlers, h ∈ t.handlers) : AtMostOnce t := by
  obtain ⟨_,rows,history⟩ := same
  constructor
  · exact alone
  · intro h member
    rw [history]
    rcases newer h member with old | fresh
    · exact inv.once h old
    · rw [fresh]; trivial
  · intro n none unsuccessful
    rw [history]
    rw [rows] at unsuccessful
    exact inv.idle n (fun h member => none h (older h member)) unsuccessful
  · rw [history]; exact inv.bound

theorem AtMostOnce.step (inv : AtMostOnce s) (allowed : undisturbed s label)
    (step : (system g).step label s = some t) : AtMostOnce t := by
  obtain ⟨⟨fine,succeeds⟩,exclusive⟩ := allowed
  have alone := alone_faultless inv.alone (faultless_cases fine step) exclusive
  cases faultless_cases fine step with
  | call here call => exact inv.call here call (exclusive _ here)
  | @finish i r err h here inside =>
    cases succeeds
    have own := inv.once h (List.mem_of_getElem? here)
    rw [inside] at own
    apply inv.set here alone
    · intro k _; exact ⟨starts_finished _ _ _ _,rfl⟩
    · exact (starts_finished _ _ _ _).trans own
    · exact fun none => absurd ⟨rfl,trivial⟩ (none _ (Pool.mem_set_self here))
    · rw [Infra.record,starts_finished]; exact inv.bound _
    · exact .inl (starts_finished _ _ _ _)
  | orchestrate orchestration =>
    exact inv.outside orchestration.same alone (fun h member => .inl member) fun h member => member
  | deliver queued =>
    apply inv.outside _ alone
    · exact Pool.forall_append (fun h member => .inl member) (.inr rfl)
    · exact fun h member => List.mem_append_left _ member
    · exact ⟨rfl,rfl,rfl⟩
  | mature waiting => exact ⟨alone,inv.once,inv.idle,inv.bound⟩
  | expireSet => exact ⟨alone,inv.once,inv.idle,inv.bound⟩
  | expireLock => exact ⟨alone,inv.once,inv.idle,inv.bound⟩

theorem reach_atMostOnce (reach : Reach (system g) undisturbed s) : AtMostOnce s := by
  refine Reach.invariant AtMostOnce ?_ ?_ reach
  · constructor
    · intro n i j a b here
      simp [system] at here
    · intro h member
      simp [system] at member
    · intro n _ _
      rfl
    · intro n
      simp [system,createWorkflowRun,starts]
  · intro s label t _ inv allowed step
    exact inv.step allowed step

/-- While attempts do not overlap, no action is started twice. -/
theorem started_at_most_once (g : AcceptedGraph) (reach : Reach (system g.graph) undisturbed s) :
    ∀ n, isTrigger g.graph n = false → starts s.infra.history n ≤ 1 :=
  fun n _ => (reach_atMostOnce reach).bound n

/-- Two triggers start one action. -/
def join : AcceptedGraph where
  graph := bare [(1,.trigger),(2,.trigger),(3,.action)] [(1,3),(2,3)]
  nonempty := by decide
  distinct := by decide
  simple := by decide
  accepted := ⟨.insertion,rfl⟩

/-- Both triggers publish the action while it is pending. -/
def joinPublished : List Label :=
  List.replicate 9 (.orchestrate .ok) ++ [.deliver ⟨3,0⟩,.deliver ⟨3,0⟩]

theorem join_started_once : ∃ s : State, (∀ n, isTrigger join.graph n = false →
    starts s.infra.history n ≤ 1) ∧ s.infra.history = [.started 3,.finished 3 true] ∧
    s.handlers.map (·.pc) = [.publishStatus 1 none,.getChildren] := by
  obtain ⟨s,reach,history,pcs⟩ : ∃ s, Reach (system join.graph) undisturbed s ∧
      s.infra.history = [.started 3,.finished 3 true] ∧
      s.handlers.map (·.pc) = [.publishStatus 1 none,.getChildren] :=
    follow_exists (List.flatten [joinPublished, List.replicate 6 (.handle 0 .ok 1),
      [.finish 0 none,.handle 0 .ok 2,.handle 1 .ok 3,.handle 1 .ok 3]]) (by decide)
  exact ⟨s,started_at_most_once join reach,history,pcs⟩

/-- Both goroutines read 'pending' before either writes 'running'. -/
theorem join_started_twice : ¬∀ (g : AcceptedGraph) (s : State), Reach (system g.graph) successful s →
    ∀ n, isTrigger g.graph n = false → starts s.infra.history n ≤ 1 := by
  intro claim
  obtain ⟨s,reach,twice⟩ : ∃ s, Reach (system join.graph) successful s ∧
      starts s.infra.history 3 = 2 :=
    follow_exists (List.flatten [joinPublished,
      [.handle 0 .ok 1,.handle 0 .ok 1,.handle 1 .ok 1,.handle 1 .ok 1],
      List.replicate 4 (.handle 0 .ok 1), List.replicate 4 (.handle 1 .ok 1)]) (by decide)
  have once := claim join s reach 3 (by decide)
  omega

end TinyAutomator.Run
