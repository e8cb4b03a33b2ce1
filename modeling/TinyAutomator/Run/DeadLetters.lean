import TinyAutomator.Run.Success

/-! Task messages that handleFailedMessage gives up, and the run they leave behind. The
header of the message counts every error, the column retry_count only executions: a message
may be given up before anybody has marked the run failed. -/
namespace TinyAutomator.Run

open Transition

/-- Dead-letters its message when the call is applied. -/
def Pc.givesUp (m : Message) : Pc → Bool
  | .failed => maxRetries ≤ m.retryCount
  | .nack => true
  | _ => false

/-- Goes on to mark the run failed: the third execution has failed. -/
def Pc.marksFailed : Pc → Bool
  | .publishStatus retryCount err => retryCount = 3 ∧ err.isSome
  | .completeFailed => true
  | _ => false

/-- The run has ended, or a goroutine is about to mark it failed. -/
def State.Ending (s : State) : Prop :=
  s.infra.run.status ≠ .running ∨ ∃ h ∈ s.handlers, h.pc.marksFailed = true

instance : DecidablePred State.Ending := fun s => inferInstanceAs
  (Decidable (s.infra.run.status ≠ .running ∨ ∃ h ∈ s.handlers, h.pc.marksFailed = true))

/-- A task has been dead-lettered, nothing else of the run is queued, delayed or being
handled, and the run is 'running'. -/
def State.LeftRunning (s : State) : Prop :=
  s.infra.deadLetters ≠ [] ∧ s.infra.queue = [] ∧ s.infra.delayed = [] ∧
  (∀ h ∈ s.handlers, h.pc = .done) ∧ s.infra.run.status = .running

instance : DecidablePred State.LeftRunning := fun s => inferInstanceAs
  (Decidable (s.infra.deadLetters ≠ [] ∧ s.infra.queue = [] ∧ s.infra.delayed = [] ∧
    (∀ h ∈ s.handlers, h.pc = .done) ∧ s.infra.run.status = .running))

/-- Any call may fail but the write that marks the run failed; goroutines do not crash. -/
def OperationsFail (s : State) : Label → Prop
  | .handle i o _ => ∀ h ∈ s.handlers[i]?, h.pc = .completeFailed → o.applied = true
  | .crash _ => False
  | _ => True

def operationsFail : Guard State Label := OperationsFail

instance : ∀ s label, Decidable (operationsFail s label)
  | s, .handle i o _ => inferInstanceAs
      (Decidable (∀ h ∈ s.handlers[i]?, h.pc = .completeFailed → o.applied = true))
  | _, .crash _ => inferInstanceAs (Decidable False)
  | _, .orchestrate _ | _, .finish .. | _, .deliver _ | _, .mature _ | _, .expireSet | _, .expireLock
  | _, .redeliver _ | _, .crashOrchestrator => inferInstanceAs (Decidable True)

/-- A message is given up only when the run has ended or is about to be marked failed. -/
def GivesUpEnding (s : State) : Label → Prop
  | .handle i o _ => ∀ h ∈ s.handlers[i]?, h.pc.givesUp h.msg = true → o.applied = true → s.Ending
  | _ => True

instance : ∀ s label, Decidable (GivesUpEnding s label)
  | s, .handle i o _ => inferInstanceAs (Decidable
      (∀ h ∈ s.handlers[i]?, h.pc.givesUp h.msg = true → o.applied = true → s.Ending))
  | _, .crash _ | _, .orchestrate _ | _, .finish .. | _, .deliver _ | _, .mature _ | _, .expireSet
  | _, .expireLock | _, .redeliver _ | _, .crashOrchestrator => inferInstanceAs (Decidable True)

def givesUpEnding : Guard State Label := fun s label => operationsFail s label ∧ GivesUpEnding s label

instance : ∀ s label, Decidable (givesUpEnding s label) := fun s label =>
  inferInstanceAs (Decidable (operationsFail s label ∧ GivesUpEnding s label))

variable {g : WorkflowGraph} {s t : State} {x y : Infra} {m : Message} {now : Int} {o : Outcome}
  {pc pc' : Pc} {i : Nat} {h : Handler} {label : Label}

/-- Only a goroutine that gives its message up adds a dead letter. -/
theorem next_deadLetters (next : pc.next g x m o now = some (y,pc')) :
    y.deadLetters = x.deadLetters ∨ pc.givesUp m = true ∧ o.applied = true := by
  cases pc with
  | failed =>
    simp only [Pc.next] at next
    split at next
    next retried =>
      cases o with
      | fail => cases next; exact .inl rfl
      | ok | lost => exact .inr ⟨decide_eq_true retried,rfl⟩
    next => cases o <;> cases next <;> exact .inl rfl
  | nack =>
    cases o with
    | fail => cases next; exact .inl rfl
    | ok | lost => exact .inr ⟨rfl,rfl⟩
  | inAction r => simp [Pc.next] at next
  | done => simp [Pc.next] at next
  | publishChildren rest => cases rest <;> cases o <;> cases next <;> exact .inl rfl
  | markComplete =>
    simp only [Pc.next] at next
    split at next
    next => cases next; exact .inl rfl
    next => cases o <;> cases next <;> exact .inl rfl
  | acquireLock pending =>
    simp only [Pc.next] at next
    split at next
    next => cases next; exact .inl rfl
    next => cases o <;> cases next <;> exact .inl rfl
  | _ => cases o <;> cases next <;> exact .inl rfl

theorem next_givesUp (up : pc.givesUp m = true) (applied : o.applied = true)
    (next : pc.next g x m o now = some (y,pc')) :
    pc' = .done ∧ y.run = x.run ∧ y.deadLetters ≠ [] := by
  cases pc with
  | failed =>
    have retried : maxRetries ≤ m.retryCount := of_decide_eq_true up
    simp only [Pc.next,retried,applied,if_true,Option.some.injEq,Prod.mk.injEq] at next
    obtain ⟨rfl,rfl⟩ := next
    exact ⟨rfl,rfl,by simp [Infra.deadLetter]⟩
  | nack =>
    simp only [Pc.next,applied,if_true,Option.some.injEq,Prod.mk.injEq] at next
    obtain ⟨rfl,rfl⟩ := next
    exact ⟨rfl,rfl,by simp [Infra.deadLetter]⟩
  | _ => simp [Pc.givesUp] at up

theorem orchestrate_deadLetters {pc pc' : OrchestratorPc} (next : pc.next g x o = some (y,pc')) :
    y.deadLetters = x.deadLetters := by
  obtain ⟨z,pcz,orchestration,rfl | rfl,_⟩ := orchestrate_outcome next
  · rfl
  · cases orchestration <;> rfl

/-- The goroutine that marks the run failed does so unless its write fails. -/
theorem next_marksFailed (marks : pc.marksFailed = true) (writes : pc = .completeFailed → o.applied = true)
    (next : pc.next g x m o now = some (y,pc')) :
    y.run.status ≠ .running ∨ pc'.marksFailed = true := by
  cases pc with
  | publishStatus r err =>
    simp only [Pc.marksFailed,Bool.decide_and,Bool.and_eq_true,decide_eq_true_eq] at marks
    obtain ⟨rfl,failed⟩ := marks
    simp only [Pc.next,failed,if_true,call,ite_self,Option.some.injEq,Prod.mk.injEq] at next
    obtain ⟨_,rfl⟩ := next
    exact .inr rfl
  | completeFailed =>
    simp only [Pc.next,call,writes rfl,if_true,ite_self,Option.some.injEq,Prod.mk.injEq] at next
    obtain ⟨rfl,_⟩ := next
    exact .inl (by simp [Infra.completeWorkflowRun])
  | _ => simp [Pc.marksFailed] at marks

theorem next_ended (ended : x.run.status ≠ .running) (decided : pc ≠ .completeRun .running)
    (next : pc.next g x m o now = some (y,pc')) : y.run.status ≠ .running := by
  rcases next_effect next with same | ⟨z,pcz,call,same⟩
  · rw [same.run]; exact ended
  · rw [same.run]
    rcases call.run with kept | ⟨status,rfl,wrote⟩ | ⟨_,wrote⟩
    · rw [kept]; exact ended
    · rw [wrote]
      intro same
      exact decided (congrArg Pc.completeRun same)
    · rw [wrote]
      simp

/-- A run that has ended, or has a goroutine that will end it, stays so with each call that does
not keep that goroutine from it. -/
theorem ending_call {ends : Pc → Bool}
    (ending : s.infra.run.status ≠ .running ∨ ∃ h ∈ s.handlers, ends h.pc = true)
    (here : s.handlers[i]? = some h) (decided : h.pc ≠ .completeRun .running)
    (next : h.pc.next g s.infra h.msg o now = some (x,pc))
    (own : ends h.pc = true → x.run.status ≠ .running ∨ ends pc = true) :
    x.run.status ≠ .running ∨ ∃ k ∈ s.handlers.set i {h with pc := pc}, ends k.pc = true := by
  rcases ending with ended | found
  · exact .inl (next_ended ended decided next)
  · rcases Pool.exists_set here found {h with pc := pc} with mine | other
    · exact (own mine).imp_right fun still => ⟨_,Pool.mem_set_self here,still⟩
    · exact .inr other

/-- The invariant of the runs that give a message up only when the run is ending. -/
structure Marked (s : State) : Prop where
  decided : ∀ h ∈ s.handlers, h.pc ≠ .completeRun .running
  marked : s.infra.deadLetters ≠ [] → s.Ending

theorem finalStatus_ended : x.finalStatus g ≠ .running := by
  rw [Infra.finalStatus]
  split <;> simp

theorem Marked.call (marked : Marked s) (here : s.handlers[i]? = some h)
    (writes : h.pc = .completeFailed → o.applied = true)
    (gives : h.pc.givesUp h.msg = true → o.applied = true → s.Ending)
    (next : h.pc.next g s.infra h.msg o now = some (x,pc)) : Marked (setHandler s i h x pc) := by
  have kept : s.Ending → (setHandler s i h x pc).Ending := fun ending =>
    ending_call ending here (marked.decided h (List.mem_of_getElem? here)) next
      fun marks => next_marksFailed marks writes next
  constructor
  · apply Pool.forall_set marked.decided
    intro decides
    obtain ⟨_,_,_,status⟩ := next_completeRun next decides
    exact finalStatus_ended status.symm
  · intro dead
    rcases next_deadLetters next with same | ⟨up,applied⟩
    · rw [setHandler,same] at dead
      exact kept (marked.marked dead)
    · exact kept (gives up applied)

theorem Marked.same (marked : Marked s) (run : t.infra.run = s.infra.run)
    (dead : t.infra.deadLetters = s.infra.deadLetters)
    (decided : ∀ h ∈ t.handlers, h.pc ≠ .completeRun .running)
    (marking : (∃ h ∈ s.handlers, h.pc.marksFailed = true) → ∃ h ∈ t.handlers, h.pc.marksFailed = true) :
    Marked t := by
  refine ⟨decided,fun letters => ?_⟩
  rw [dead] at letters
  rcases marked.marked letters with ended | found
  · exact .inl (run ▸ ended)
  · exact .inr (marking found)

theorem Marked.step (marked : Marked s) (allowed : givesUpEnding s label)
    (step : (system g).step label s = some t) : Marked t := by
  obtain ⟨fails,gives⟩ := allowed
  cases step_cases step with
  | orchestrate next =>
    exact marked.same (orchestrate_same next).run (orchestrate_deadLetters next) marked.decided id
  | handle here next => exact marked.call here (fails _ here) (gives _ here) next
  | @finish i r err h here inside =>
    refine marked.same rfl rfl ?_ ?_
    · exact Pool.forall_set marked.decided (by simp)
    · intro found
      rcases Pool.exists_set here found {h with pc := .updateStatus r err} with own | other
      · simp [inside,Pc.marksFailed] at own
      · exact other
  | deliver queued =>
    refine marked.same rfl rfl ?_ ?_
    · exact Pool.forall_append marked.decided (by simp)
    · rintro ⟨h,member,marks⟩
      exact ⟨h,List.mem_append_left _ member,marks⟩
  | crash here alive => exact absurd fails id
  | mature | expireSet | expireLock | redeliver | crashOrchestrator => exact ⟨marked.decided,marked.marked⟩

theorem reach_marked (reach : Reach (system g) givesUpEnding s) : Marked s := by
  refine Reach.invariant Marked ?_ ?_ reach
  · constructor
    · intro h member
      simp [system] at member
    · intro dead
      simp [system,createWorkflowRun] at dead
  · exact fun _ _ _ _ marked allowed step => marked.step allowed step

/-- The calls left to a goroutine whose calls all fail. -/
def Pc.rank : Pc → Nat
  | .done => 0
  | .ack | .nack => 1
  | .failed | .acquireLock _ | .addPending _ => 2
  | .markComplete | .inAction _ | .publishStatus _ _ => 4
  | .publishChildren _ | .startAction _ => 5
  | .publishRunning _ => 6
  | _ => 3

/-- The steps left until nothing of the run is queued, delayed or being handled. -/
def State.rank (s : State) : Nat :=
  (s.handlers.map (·.pc.rank)).sum + 5 * s.infra.queue.length + 7 * s.infra.delayed.length

/-- Running, and nobody is about to change that. -/
structure Unmarked (s : State) : Prop where
  running : s.infra.run.status = .running
  nobody : ∀ h ∈ s.handlers, h.pc.marksFailed = false

/-- What a failing call leaves in place. -/
structure Infra.Kept (x y : Infra) : Prop where
  run : y.run = x.run
  queue : y.queue = x.queue
  delayed : y.delayed = x.delayed
  dead : x.deadLetters ≠ [] → y.deadLetters ≠ []

theorem Infra.Kept.refl (x : Infra) : x.Kept x := ⟨rfl,rfl,rfl,id⟩

theorem fail_next (away : ∀ r, pc ≠ .inAction r) (alive : pc ≠ .done) (unmarked : pc.marksFailed = false) :
    ∃ o y pc', pc.next g x m o now = some (y,pc') ∧ pc'.rank < pc.rank ∧ pc'.marksFailed = false ∧
      x.Kept y := by
  cases pc with
  | inAction r => exact absurd rfl (away r)
  | done => exact absurd rfl alive
  | completeFailed => simp [Pc.marksFailed] at unmarked
  | publishStatus r err =>
    cases err with
    | none => exact ⟨.fail,_,_,rfl,by simp [Pc.rank],rfl,.refl x⟩
    | some err =>
      have left : r ≠ 3 := by simpa [Pc.marksFailed] using unmarked
      exact ⟨.fail,x,.failed,by simp [Pc.next,call,left,Outcome.applied],by simp [Pc.rank],rfl,.refl x⟩
  | publishChildren rest =>
    cases rest with
    | nil => exact ⟨.fail,_,_,rfl,by simp [Pc.rank],rfl,.refl x⟩
    | cons c rest => exact ⟨.fail,_,_,rfl,by simp [Pc.rank,Outcome.reported],rfl,.refl x⟩
  | markComplete =>
    refine ⟨.fail,x,.getPending,?_,by simp [Pc.rank],rfl,.refl x⟩
    simp only [Pc.next]
    split <;> rfl
  | acquireLock pending =>
    refine ⟨.fail,x,.ack,?_,by simp [Pc.rank],rfl,.refl x⟩
    simp only [Pc.next]
    split <;> rfl
  | failed =>
    by_cases retried : maxRetries ≤ m.retryCount
    · refine ⟨.ok,x.deadLetter m,.done,?_,by simp [Pc.rank],rfl,⟨rfl,rfl,rfl,by simp [Infra.deadLetter]⟩⟩
      simp [Pc.next,retried,Outcome.applied]
    · refine ⟨.fail,x,.nack,?_,by simp [Pc.rank],rfl,.refl x⟩
      simp [Pc.next,retried,call,Outcome.applied,Outcome.reported]
  | ack => exact ⟨.ok,_,_,rfl,by simp [Pc.rank],rfl,.refl x⟩
  | nack => exact ⟨.ok,_,_,rfl,by simp [Pc.rank],rfl,⟨rfl,rfl,rfl,by simp [Outcome.applied,Infra.deadLetter]⟩⟩
  | startAction r => exact ⟨.fail,_,_,rfl,by simp [Pc.rank],rfl,⟨rfl,rfl,rfl,id⟩⟩
  | _ => exact ⟨.fail,_,_,rfl,by simp [Pc.rank,Outcome.reported],rfl,.refl x⟩

theorem Unmarked.set (unmarked : Unmarked s) (kept : s.infra.Kept x) (clear : pc.marksFailed = false) :
    Unmarked (setHandler s i h x pc) :=
  ⟨kept.run ▸ unmarked.running,Pool.forall_set unmarked.nobody clear⟩

theorem rank_set (here : s.handlers[i]? = some h) (kept : s.infra.Kept x) (less : pc.rank < h.pc.rank) :
    (setHandler s i h x pc).rank < s.rank := by
  have sum := Pool.sum_set_lt (f := fun h : Handler => h.pc.rank) (b := {h with pc := pc}) here less
  simp only [State.rank,setHandler,kept.queue,kept.delayed]
  omega

theorem Unmarked.progress (g : WorkflowGraph) (unmarked : Unmarked s) (dead : s.infra.deadLetters ≠ []) :
    s.LeftRunning ∨ ∃ label t, operationsFail s label ∧ (system g).step label s = some t ∧
      t.rank < s.rank ∧ Unmarked t ∧ t.infra.deadLetters ≠ [] := by
  by_cases busy : ∃ h ∈ s.handlers, h.pc ≠ .done
  · obtain ⟨h,member,alive⟩ := busy
    obtain ⟨i,here⟩ := List.mem_iff_getElem?.mp member
    have clear := unmarked.nobody h member
    by_cases inside : ∃ r, h.pc = .inAction r
    · obtain ⟨r,inside⟩ := inside
      have kept : s.infra.Kept (s.infra.record (.finished h.msg.nodeID true)) := ⟨rfl,rfl,rfl,id⟩
      have less : (setHandler s i h _ (.updateStatus r none)).rank < s.rank :=
        rank_set here kept (by simp [inside,Pc.rank])
      exact .inr ⟨.finish i none,_,trivial,finish_step here inside,less,unmarked.set kept rfl,kept.dead dead⟩
    · obtain ⟨o,y,pc,next,less,unmarking,kept⟩ : ∃ o y pc', h.pc.next g s.infra h.msg o 0 = some (y,pc') ∧
          pc'.rank < h.pc.rank ∧ pc'.marksFailed = false ∧ s.infra.Kept y :=
        fail_next (fun r same => inside ⟨r,same⟩) alive clear
      have allowed : operationsFail s (.handle i o 0) := by
        intro k there marks
        rw [here] at there
        cases there
        simp [marks,Pc.marksFailed] at clear
      exact .inr ⟨.handle i o 0,_,allowed,handle_step here next,rank_set here kept less,
        unmarked.set kept unmarking,kept.dead dead⟩
  · have done : ∀ h ∈ s.handlers, h.pc = .done := by
      intro h member
      by_contra alive
      exact busy ⟨h,member,alive⟩
    cases queue : s.infra.queue with
    | cons m rest =>
      refine .inr ⟨.deliver m,_,trivial,deliver_step queue,?_,?_,dead⟩
      · simp [State.rank,queue,Pc.rank]
        omega
      · exact ⟨unmarked.running,Pool.forall_append unmarked.nobody rfl⟩
    | nil =>
      cases delayed : s.infra.delayed with
      | cons m rest =>
        refine .inr ⟨.mature m,_,trivial,mature_step delayed,?_,⟨unmarked.running,unmarked.nobody⟩,dead⟩
        simp [State.rank,queue,delayed]
        omega
      | nil => exact .inl ⟨dead,queue,delayed,done,unmarked.running⟩

theorem Unmarked.drains (g : WorkflowGraph) (unmarked : Unmarked s) (dead : s.infra.deadLetters ≠ []) :
    ∃ u, Path (system g) operationsFail s u ∧ u.LeftRunning := by
  induction rank : s.rank using Nat.strong_induction_on generalizing s with
  | _ n ih =>
    rcases unmarked.progress g dead with left | ⟨label,t,allowed,step,less,unmarked,dead⟩
    · exact ⟨s,.refl,left⟩
    · obtain ⟨u,path,left⟩ := ih t.rank (rank ▸ less) unmarked dead rfl
      exact ⟨u,(Path.single allowed step).trans path,left⟩

/-- A goroutine that gives up while the run is not ending leaves nobody to end it. -/
theorem givesUp_unmarked (early : ¬GivesUpEnding s label) (step : (system g).step label s = some t) :
    Unmarked t ∧ t.infra.deadLetters ≠ [] := by
  cases step_cases step with
  | @handle i o now h x pc here next =>
    have gives : h.pc.givesUp h.msg = true ∧ o.applied = true ∧ ¬s.Ending := by
      simpa [GivesUpEnding,here] using early
    obtain ⟨up,applied,going⟩ := gives
    obtain ⟨rfl,run,dead⟩ := next_givesUp up applied next
    rw [State.Ending] at going
    push Not at going
    obtain ⟨running,nobody⟩ := going
    refine ⟨⟨run ▸ running,Pool.forall_set (fun k member => ?_) rfl⟩,dead⟩
    simpa using nobody k member
  | _ => exact absurd trivial early

/-- No run is left running by a task that was given up, as long as tasks are given up only
when the run is ending; and a task given up before that may leave it running. -/
theorem dead_letters_agree (g : AcceptedGraph) :
    (∀ s, Reach (system g.graph) givesUpEnding s → ¬s.LeftRunning) ∧
    ∀ s label t, Reach (system g.graph) operationsFail s → ¬GivesUpEnding s label →
      operationsFail s label → (system g.graph).step label s = some t →
      ∃ u, Path (system g.graph) operationsFail t u ∧ u.LeftRunning := by
  constructor
  · rintro s reach ⟨dead,_,_,done,running⟩
    rcases (reach_marked reach).marked dead with ended | ⟨h,member,marks⟩
    · exact ended running
    · simp [done h member,Pc.marksFailed] at marks
  · intro s label t _ early _ step
    obtain ⟨unmarked,dead⟩ := givesUp_unmarked early step
    exact unmarked.drains g.graph dead

/-- The action of node 2 fails three times; then its message cannot even be looked at. -/
theorem chain_marked_before : ∃ s : State, s.infra.deadLetters = [⟨2,3⟩] ∧ s.infra.run = ⟨.failed,some 3⟩ ∧
    ¬s.LeftRunning := by
  obtain ⟨s,reach,dead,run⟩ : ∃ s, Reach (system chain.graph) givesUpEnding s ∧
      s.infra.deadLetters = [⟨2,3⟩] ∧ s.infra.run = ⟨.failed,some 3⟩ :=
    follow_exists (List.flatten [List.replicate 5 (.orchestrate .ok),
      .deliver ⟨2,0⟩ :: List.replicate 6 (.handle 0 .ok 1),
      .finish 0 (some "timeout") :: List.replicate 4 (.handle 0 .ok 1),
      .mature ⟨2,1⟩ :: .deliver ⟨2,1⟩ :: List.replicate 6 (.handle 1 .ok 2),
      .finish 1 (some "timeout") :: List.replicate 4 (.handle 1 .ok 2),
      .mature ⟨2,2⟩ :: .deliver ⟨2,2⟩ :: List.replicate 6 (.handle 2 .ok 3),
      .finish 2 (some "timeout") :: List.replicate 5 (.handle 2 .ok 3),
      [.mature ⟨2,3⟩,.deliver ⟨2,3⟩,.handle 3 .fail 4,.handle 3 .ok 4]]) (by decide +kernel)
  exact ⟨s,dead,run,(dead_letters_agree chain).1 s reach⟩

/-- The parents of node 2 cannot be read four times: its message is given up before the
action has been called once. -/
theorem chain_left_running : ¬∀ (g : AcceptedGraph) (s : State),
    Reach (system g.graph) operationsFail s → s.infra.deadLetters ≠ [] → s.infra.queue = [] →
    s.infra.delayed = [] → (∀ h ∈ s.handlers, h.pc = .done) → s.infra.run.status ≠ .running := by
  intro claim
  obtain ⟨s,reach,_,dead,queue,delayed,done,running⟩ :
      ∃ s, Reach (system chain.graph) operationsFail s ∧ s.orchestrator = .returned ∧ s.LeftRunning :=
    follow_exists (List.flatten [List.replicate 5 (.orchestrate .ok),
      [.deliver ⟨2,0⟩,.handle 0 .fail 1,.handle 0 .ok 1,.handle 0 .ok 1,.mature ⟨2,1⟩],
      [.deliver ⟨2,1⟩,.handle 1 .fail 2,.handle 1 .ok 2,.handle 1 .ok 2,.mature ⟨2,2⟩],
      [.deliver ⟨2,2⟩,.handle 2 .fail 3,.handle 2 .ok 3,.handle 2 .ok 3,.mature ⟨2,3⟩],
      [.deliver ⟨2,3⟩,.handle 3 .fail 4,.handle 3 .ok 4]]) (by decide +kernel)
  exact claim chain s reach dead queue delayed done running

end TinyAutomator.Run
