import TinyAutomator.Run.Overlap

/-! Attempts that do not overlap: what a goroutine that attempts a node knows about the
node run, and that a node run that is settled stays as it is. -/
namespace TinyAutomator.Run

open Transition

/-- A move of a goroutine when nothing fails: a call, or the return of its action. -/
inductive Act (g : WorkflowGraph) (x : Infra) (m : Message) (now : Int) : Pc → Infra → Pc → Prop where
  | call {y : Infra} {pc pc' : Pc} (call : Call g x m now pc y pc') : Act g x m now pc y pc'
  | finish {r : Nat} {err : Option String} :
      Act g x m now (.inAction r) (x.record (.finished m.nodeID err.isNone)) (.updateStatus r err)

/-- A step outside the goroutines, the running-node set apart. -/
structure Outside (s t : State) : Prop where
  same : t.infra.Same s.infra
  older : ∀ h ∈ s.handlers, h ∈ t.handlers
  newer : ∀ h ∈ t.handlers, h ∈ s.handlers ∨ h.pc = .getParents ∧ h.msg ∈ s.infra.queue
  messages : ∀ m ∈ t.infra.queue ++ t.infra.delayed,
    m ∈ s.infra.queue ++ s.infra.delayed ∨ m.retryCount = 0
  announced : ∀ n, s.infra.Announced n →
    t.infra.Announced n ∨ ∃ h ∈ t.handlers, h.msg.nodeID = n ∧ h.pc = .getParents

/-- A step of a run in which nothing fails, from the node runs' point of view. -/
inductive Turn (g : WorkflowGraph) (s : State) (label : Label) : State → Prop where
  | act {i : Nat} {now : Int} {h : Handler} {x : Infra} {pc : Pc} (here : s.handlers[i]? = some h)
      (act : Act g s.infra h.msg now h.pc x pc) (exclusive : Exclusive s label → h.Exclusive s) :
      Turn g s label (setHandler s i h x pc)
  | outside {t : State} (outside : Outside s t) : Turn g s label t

/-- Settled for good: success, or failed with no attempt left. -/
def NodeRun.Settled (row : NodeRun) : Prop :=
  row.status = .success ∨ row.status = .failed ∧ row.retryCount = 3

/-- What can become of a node run in the course of a run. -/
structure NodeRun.Later (row row' : NodeRun) : Prop where
  count : row.retryCount ≤ row'.retryCount
  settled : row.Settled → row' = row

/-- What a goroutine knows about its node run; `header` is its message's retry count. -/
def Pc.Agrees (row : NodeRun) (header : Nat) : Pc → Prop
  | .getParents | .getNodeRun => header ≤ row.retryCount
  | .getNode r => row.status ≠ .success ∧ row.retryCount = r ∧ r < 3 ∧ header ≤ r
  | .markRunning r => row.status ≠ .success ∧ row.retryCount + 1 = r ∧ r ≤ 3 ∧ header < r
  | .publishRunning r | .startAction r | .inAction r | .updateStatus r _ =>
    row.status = .running ∧ row.retryCount = r ∧ r ≤ 3 ∧ header < r
  | .publishStatus r (some _) =>
    header < row.retryCount ∧ (r = 3 → row.status = .failed ∧ row.retryCount = 3)
  | .completeFailed => header < row.retryCount ∧ row.status = .failed ∧ row.retryCount = 3
  | .failed => header < row.retryCount
  | .publishStatus _ none | .getChildren | .publishChildren _ | .markComplete => row.Settled
  | _ => True

/-- Between the write of 'running' and the write of the outcome. -/
def Pc.Executing : Pc → Prop
  | .publishRunning _ | .startAction _ | .inAction _ | .updateStatus _ _ => True
  | _ => False

structure Paced (s : State) : Prop where
  alone : ∀ n, Pool.Alone (Attempts n) s.handlers
  agrees : ∀ h ∈ s.handlers, h.pc.Agrees (s.infra.nodeRuns h.msg.nodeID) h.msg.retryCount
  headers : ∀ m ∈ s.infra.queue ++ s.infra.delayed, m.retryCount ≤ (s.infra.nodeRuns m.nodeID).retryCount
  bounded : ∀ n, (s.infra.nodeRuns n).retryCount ≤ 3
  running : ∀ n, (s.infra.nodeRuns n).status = .running →
    ∃ h ∈ s.handlers, h.msg.nodeID = n ∧ h.pc.Executing

/-- No fault, and attempts do not overlap. -/
def exclusive : Guard State Label := fun s label => label.FaultFree ∧ Exclusive s label

instance : ∀ s label, Decidable (exclusive s label) := fun s label =>
  inferInstanceAs (Decidable (label.FaultFree ∧ Exclusive s label))

variable {g : WorkflowGraph} {s t : State} {x y : Infra} {m : Message} {now : Int} {pc pc' : Pc}
  {i : Nat} {h : Handler} {n : NodeID} {label : Label} {o o' : OrchestratorPc} {row row' : NodeRun}
  {header : Nat}

theorem Call.announced (call : Call g x m now pc y pc') (announced : x.Announced n) :
    y.Announced n := by
  obtain ⟨message,member,rfl⟩ := announced
  refine ⟨message,?_,rfl⟩
  rcases List.mem_append.mp member with queued | waiting
  · apply List.mem_append_left
    cases call with
    | publishChild => exact List.mem_append_left _ queued
    | _ => exact queued
  · apply List.mem_append_right
    cases call with
    | retry => exact List.mem_append_left _ waiting
    | _ => exact waiting

theorem Act.announced (act : Act g x m now pc y pc') (announced : x.Announced n) : y.Announced n := by
  cases act with
  | call call => exact call.announced announced
  | finish => exact announced

theorem Orchestration.announced (orchestration : Orchestration g x o y o') (announced : x.Announced n) :
    y.Announced n := by
  obtain ⟨message,member,rfl⟩ := announced
  refine ⟨message,?_,rfl⟩
  rcases List.mem_append.mp member with queued | waiting
  · apply List.mem_append_left
    cases orchestration with
    | publishChild => exact List.mem_append_left _ queued
    | publishRoot => exact List.mem_append_left _ queued
    | _ => exact queued
  · apply List.mem_append_right
    cases orchestration <;> exact waiting

theorem Orchestration.messages (orchestration : Orchestration g x o y o') :
    ∀ m ∈ y.queue ++ y.delayed, m ∈ x.queue ++ x.delayed ∨ m.retryCount = 0 := by
  intro m member
  cases orchestration with
  | publishChild | publishRoot =>
    simp only [Infra.publish,List.mem_append,List.mem_singleton] at member ⊢
    rcases member with (old | rfl) | old
    · exact .inl (.inl old)
    · exact .inr rfl
    · exact .inl (.inr old)
  | _ => exact .inl member

theorem deliver_outside (queued : m ∈ s.infra.queue) : Outside s
    {s with
      infra := {s.infra with queue := s.infra.queue.erase m}
      handlers := s.handlers ++ [⟨m,.getParents⟩]} := by
  constructor
  · exact ⟨rfl,rfl,rfl⟩
  · exact fun h member => List.mem_append_left _ member
  · exact Pool.forall_append (fun h member => .inl member) (.inr ⟨rfl,queued⟩)
  · intro k member
    left
    rcases List.mem_append.mp member with queued | waiting
    · exact List.mem_append_left _ (List.mem_of_mem_erase queued)
    · exact List.mem_append_right _ waiting
  · rintro n ⟨message,member,rfl⟩
    by_cases taken : message = m
    · subst taken
      exact .inr ⟨_,List.mem_append_right _ (List.mem_singleton_self _),rfl,rfl⟩
    · refine .inl ⟨message,?_,rfl⟩
      rcases List.mem_append.mp member with waiting | waiting
      · exact List.mem_append_left _ ((List.mem_erase_of_ne taken).mpr waiting)
      · exact List.mem_append_right _ waiting

theorem mature_outside (waiting : m ∈ s.infra.delayed) : Outside s
    {s with infra := {s.infra with
      delayed := s.infra.delayed.erase m, queue := s.infra.queue ++ [m]}} := by
  have shown : ∀ message, message ∈ s.infra.queue ++ s.infra.delayed ↔
      message ∈ (s.infra.queue ++ [m]) ++ s.infra.delayed.erase m := by
    intro message
    by_cases taken : message = m
    · subst taken
      simp [waiting]
    · simp [taken,List.mem_erase_of_ne taken]
  constructor
  · exact ⟨rfl,rfl,rfl⟩
  · exact fun h member => member
  · exact fun h member => .inl member
  · exact fun k member => .inl ((shown k).mpr member)
  · rintro n ⟨message,member,rfl⟩
    exact .inl ⟨message,(shown message).mp member,rfl⟩

theorem orchestrate_outside (orchestration : Orchestration g s.infra s.orchestrator x o') :
    Outside s {s with infra := x, orchestrator := o'} := by
  constructor
  · exact orchestration.same
  · exact fun h member => member
  · exact fun h member => .inl member
  · exact orchestration.messages
  · exact fun n announced => .inl (orchestration.announced announced)

theorem expire_outside (set : Finset NodeID) (lock : Bool) : Outside s
    {s with infra := {s.infra with runningSet := set, finalizeLock := lock}} := by
  constructor
  · exact ⟨rfl,rfl,rfl⟩
  · exact fun h member => member
  · exact fun h member => .inl member
  · exact fun m member => .inl member
  · exact fun n announced => .inl announced

theorem faultless_turn (step : Faultless g s label t) : Turn g s label t := by
  cases step with
  | call here call => exact .act here (.call call) fun exclusive => exclusive _ here
  | @finish i r err h here inside =>
    have act : Act g s.infra h.msg 0 h.pc (s.infra.record (.finished h.msg.nodeID err.isNone))
        (.updateStatus r err) := by
      rw [inside]
      exact .finish
    refine .act here act ?_
    intro _ reads
    rw [inside] at reads
    contradiction
  | orchestrate orchestration => exact .outside (orchestrate_outside orchestration)
  | deliver queued => exact .outside (deliver_outside queued)
  | mature waiting => exact .outside (mature_outside waiting)
  | expireSet => exact .outside (expire_outside ∅ _)
  | expireLock => exact .outside (expire_outside _ false)

theorem NodeRun.Later.refl (row : NodeRun) : row.Later row := ⟨Nat.le_refl _,fun _ => rfl⟩

/-- What a goroutine knows outside an attempt survives the moves of the others. -/
theorem Pc.Agrees.later (agrees : pc.Agrees row header) (later : row.Later row')
    (away : ¬pc.Attempting) : pc.Agrees row' header := by
  have count := later.count
  cases pc with
  | getParents | getNodeRun | failed => simp only [Pc.Agrees] at agrees ⊢; omega
  | publishStatus r err =>
    cases err with
    | none => exact later.settled agrees ▸ agrees
    | some err =>
      obtain ⟨behind,last⟩ := agrees
      refine ⟨by omega,fun three => ?_⟩
      have same := later.settled (.inr (last three))
      rw [same]
      exact last three
  | completeFailed =>
    obtain ⟨behind,exhausted⟩ := agrees
    rw [later.settled (.inr exhausted)]
    exact ⟨behind,exhausted⟩
  | getChildren | publishChildren | markComplete => exact later.settled agrees ▸ agrees
  | getNode | markRunning | publishRunning | startAction | inAction | updateStatus =>
    exact absurd trivial away
  | _ => trivial

/-- Only the node run of the goroutine's own node moves, and never once it is settled. -/
theorem Act.later (act : Act g x m now pc y pc') (agrees : pc.Agrees (x.nodeRuns m.nodeID) m.retryCount)
    (n : NodeID) : (x.nodeRuns n).Later (y.nodeRuns n) := by
  have written : ∀ row : NodeRun, (x.nodeRuns m.nodeID).Later row →
      (x.nodeRuns n).Later ((x.setNodeRun m.nodeID row).nodeRuns n) := by
    intro row later
    by_cases own : n = m.nodeID
    · subst own
      rw [x.setNodeRun_self]
      exact later
    · rw [x.setNodeRun_other own]
      exact .refl _
  have executing : (x.nodeRuns m.nodeID).status = .running → ¬(x.nodeRuns m.nodeID).Settled := by
    rintro running (success | ⟨failed,_⟩)
    · rw [running] at success; contradiction
    · rw [running] at failed; contradiction
  cases act with
  | finish => exact .refl _
  | call call =>
    cases call with
    | @markRunning r =>
      obtain ⟨unsuccessful,count,bound,_⟩ := agrees
      apply written
      refine ⟨by simp; omega,?_⟩
      rintro (success | ⟨_,three⟩)
      · exact absurd success unsuccessful
      · omega
    | succeed => exact written _ ⟨by simp,fun settled => absurd settled (executing agrees.1)⟩
    | fail => exact written _ ⟨by simp,fun settled => absurd settled (executing agrees.1)⟩
    | _ => exact .refl _

theorem publishing_agrees {rest : List NodeID} (settled : row.Settled) :
    (publishing rest).Agrees row header := by
  cases rest with
  | nil => exact settled
  | cons c rest => exact settled

/-- The goroutine that moves knows its node run afterwards; when it reads the node run,
nobody may be executing the node. -/
theorem Act.agrees (act : Act g x m now pc y pc')
    (agrees : pc.Agrees (x.nodeRuns m.nodeID) m.retryCount) (fresh : x.Fresh)
    (bounded : (x.nodeRuns m.nodeID).retryCount ≤ 3)
    (quiet : pc = .getNodeRun → (x.nodeRuns m.nodeID).status ≠ .running) :
    pc'.Agrees (y.nodeRuns m.nodeID) m.retryCount := by
  cases act with
  | finish => exact agrees
  | call call =>
    cases call with
    | ready => exact agrees
    | skip settled =>
      rcases settled with three | success
      · cases status : (x.nodeRuns m.nodeID).status with
        | pending => rw [fresh _ status] at three; contradiction
        | running => exact absurd status (quiet rfl)
        | success => exact .inl status
        | failed => exact .inr ⟨status,three⟩
      · exact .inl success
    | attempt left unsuccessful =>
      have header : m.retryCount ≤ (x.nodeRuns m.nodeID).retryCount := agrees
      exact ⟨unsuccessful,rfl,by omega,header⟩
    | getNode =>
      obtain ⟨unsuccessful,count,bound,header⟩ := agrees
      exact ⟨unsuccessful,by omega,by omega,by omega⟩
    | markRunning =>
      obtain ⟨_,count,bound,header⟩ := agrees
      simp only [Infra.markWorkflowNodeAsRunning,Infra.setNodeRun_self]
      exact ⟨rfl,rfl,bound,header⟩
    | publishRunning | startAction => exact agrees
    | succeed =>
      simp only [Infra.updateWorkflowNodeRunStatus,Infra.setNodeRun_self]
      exact .inl rfl
    | fail =>
      obtain ⟨_,count,bound,header⟩ := agrees
      simp only [Infra.updateWorkflowNodeRunStatus,Infra.setNodeRun_self]
      refine ⟨?_,fun three => ⟨rfl,?_⟩⟩
      · show m.retryCount < (x.nodeRuns m.nodeID).retryCount
        omega
      · show (x.nodeRuns m.nodeID).retryCount = 3
        omega
    | publishSuccess => exact agrees
    | publishFailure => exact agrees.1
    | exhausted => exact ⟨agrees.1,agrees.2 rfl⟩
    | completeFailed => exact agrees.1
    | getChildren => exact publishing_agrees agrees
    | publishedAll => exact agrees
    | publishChild => exact publishing_agrees agrees
    | _ => trivial

/-- What a goroutine publishes: a child, or its own message once more. -/
theorem Act.messages (act : Act g x m now pc y pc') : ∀ k ∈ y.queue ++ y.delayed,
    k ∈ x.queue ++ x.delayed ∨ k.retryCount = 0 ∨ pc = .failed ∧ k = ⟨m.nodeID,m.retryCount + 1⟩ := by
  intro k member
  cases act with
  | finish => exact .inl member
  | call call =>
    cases call with
    | publishChild =>
      simp only [Infra.publish,List.mem_append,List.mem_singleton] at member ⊢
      rcases member with (old | rfl) | old
      · exact .inl (.inl old)
      · exact .inr (.inl rfl)
      · exact .inl (.inr old)
    | retry =>
      simp only [Infra.publishRetry,List.mem_append,List.mem_singleton] at member ⊢
      rcases member with old | old | rfl
      · exact .inl (.inl old)
      · exact .inl (.inr old)
      · exact .inr (.inr ⟨by trivial,rfl⟩)
    | _ => exact .inl member

/-- Whoever executes goes on, and a node run says 'running' only while somebody executes. -/
theorem Act.executing (act : Act g x m now pc y pc') (running : (y.nodeRuns m.nodeID).status = .running) :
    pc'.Executing ∨ (x.nodeRuns m.nodeID).status = .running ∧ ¬pc.Executing := by
  cases act with
  | finish => exact .inl trivial
  | call call =>
    cases call with
    | markRunning | publishRunning | startAction => exact .inl trivial
    | succeed => simp [Infra.updateWorkflowNodeRunStatus] at running
    | fail => simp [Infra.updateWorkflowNodeRunStatus] at running
    | _ => exact .inr ⟨running,id⟩

theorem Act.elsewhere (act : Act g x m now pc y pc') (other : n ≠ m.nodeID) :
    y.nodeRuns n = x.nodeRuns n := by
  cases act with
  | finish => rfl
  | call call =>
    rcases call.rows with same | ⟨row,wrote,_⟩
    · rw [same]
    · rw [wrote,x.setNodeRun_other other]

/-- A goroutine writes its node run only while it attempts the node. -/
theorem Act.unwritten (act : Act g x m now pc y pc') (away : ¬pc.Attempting) :
    y.nodeRuns = x.nodeRuns := by
  cases act with
  | finish => rfl
  | call call =>
    cases call with
    | markRunning | succeed | fail => exact absurd trivial away
    | _ => rfl

theorem Pc.Executing.attempting (executing : pc.Executing) : pc.Attempting := by
  cases pc <;> trivial

theorem Act.bounded (act : Act g x m now pc y pc') (agrees : pc.Agrees (x.nodeRuns m.nodeID) m.retryCount)
    (bounded : ∀ n, (x.nodeRuns n).retryCount ≤ 3) (n : NodeID) : (y.nodeRuns n).retryCount ≤ 3 := by
  by_cases own : n = m.nodeID
  · subst own
    have before := bounded m.nodeID
    cases act with
    | finish => exact before
    | call call =>
      cases call with
      | markRunning =>
        simp only [Infra.markWorkflowNodeAsRunning,Infra.setNodeRun_self]
        exact agrees.2.2.1
      | succeed | fail =>
        simp only [Infra.updateWorkflowNodeRunStatus,Infra.setNodeRun_self]
        exact before
      | _ => exact before
  · rw [act.elsewhere own]
    exact bounded n

theorem Paced.act (paced : Paced s) (fresh : s.infra.Fresh) (here : s.handlers[i]? = some h)
    (act : Act g s.infra h.msg now h.pc x pc) (exclusive : h.Exclusive s)
    (alone : ∀ n, Pool.Alone (Attempts n) (s.handlers.set i {h with pc := pc})) :
    Paced (setHandler s i h x pc) := by
  have member := List.mem_of_getElem? here
  have agrees := paced.agrees h member
  have quiet : h.pc = .getNodeRun → (s.infra.nodeRuns h.msg.nodeID).status ≠ .running := by
    intro reads running
    obtain ⟨k,found,same,executing⟩ := paced.running _ running
    exact exclusive reads k found ⟨same,executing.attempting⟩
  constructor
  · exact alone
  · intro k found
    rcases Pool.mem_set_cases found with rfl | ⟨j,different,there⟩
    · exact act.agrees agrees fresh (paced.bounded _) quiet
    · have before := paced.agrees k (List.mem_of_getElem? there)
      show k.pc.Agrees (x.nodeRuns k.msg.nodeID) k.msg.retryCount
      by_cases attempting : h.pc.Attempting
      · by_cases same : k.msg.nodeID = h.msg.nodeID
        · apply before.later (act.later agrees _)
          exact fun too => different (paced.alone _ j i k h there here ⟨same,too⟩ ⟨rfl,attempting⟩)
        · rw [act.elsewhere same]
          exact before
      · rw [act.unwritten attempting]
        exact before
  · intro k waits
    show k.retryCount ≤ (x.nodeRuns k.nodeID).retryCount
    rcases act.messages k waits with old | zero | ⟨failing,rfl⟩
    · exact Nat.le_trans (paced.headers k old) (act.later agrees _).count
    · omega
    · have count := (act.later agrees h.msg.nodeID).count
      rw [failing] at agrees
      have behind : h.msg.retryCount < (s.infra.nodeRuns h.msg.nodeID).retryCount := agrees
      show h.msg.retryCount + 1 ≤ (x.nodeRuns h.msg.nodeID).retryCount
      omega
  · exact act.bounded agrees paced.bounded
  · intro n running
    by_cases own : n = h.msg.nodeID
    · subst own
      rcases act.executing running with executing | ⟨before,idle⟩
      · exact ⟨_,Pool.mem_set_self here,rfl,executing⟩
      · obtain ⟨k,found,same,executing⟩ := paced.running _ before
        have other : k ≠ h := fun eq => idle (eq ▸ executing)
        exact ⟨k,Pool.mem_set_of_ne here found other _,same,executing⟩
    · have before : (s.infra.nodeRuns n).status = .running := by
        rw [← act.elsewhere own]
        exact running
      obtain ⟨k,found,same,executing⟩ := paced.running n before
      have other : k ≠ h := fun eq => own (same.symm.trans (by rw [eq]))
      exact ⟨k,Pool.mem_set_of_ne here found other _,same,executing⟩

theorem Paced.outside (paced : Paced s) (outside : Outside s t)
    (alone : ∀ n, Pool.Alone (Attempts n) t.handlers) : Paced t := by
  constructor
  · exact alone
  · intro h member
    rw [outside.same.nodeRuns]
    rcases outside.newer h member with old | ⟨begins,queued⟩
    · exact paced.agrees h old
    · rw [begins]
      exact paced.headers h.msg (List.mem_append_left _ queued)
  · intro m member
    rw [outside.same.nodeRuns]
    rcases outside.messages m member with old | zero
    · exact paced.headers m old
    · omega
  · rw [outside.same.nodeRuns]
    exact paced.bounded
  · intro n running
    rw [outside.same.nodeRuns] at running
    obtain ⟨h,member,same,executing⟩ := paced.running n running
    exact ⟨h,outside.older h member,same,executing⟩

theorem Paced.step (paced : Paced s) (fresh : s.infra.Fresh) (allowed : exclusive s label)
    (step : (system g).step label s = some t) : Paced t := by
  obtain ⟨fine,exclusive⟩ := allowed
  have faultless := faultless_cases fine step
  have alone := alone_faultless paced.alone faultless exclusive
  cases faultless_turn faultless with
  | act here act reads => exact paced.act fresh here act (reads exclusive) alone
  | outside outside => exact paced.outside outside alone

theorem reach_paced (reach : Reach (system g) exclusive s) : Paced s := by
  refine Reach.invariant Paced ?_ ?_ reach
  · constructor
    · intro n i j a b here
      simp [system] at here
    · intro h member
      simp [system] at member
    · intro m member
      simp [system,createWorkflowRun] at member
    · intro n
      simp [system,createWorkflowRun]
    · intro n running
      simp only [system,createWorkflowRun] at running
      split at running <;> contradiction
  · intro s label t reach paced allowed step
    exact paced.step (reach_fresh (reach.mono fun _ _ _ => trivial)) allowed step

end TinyAutomator.Run
