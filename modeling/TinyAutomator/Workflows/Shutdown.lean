import TinyAutomator.Workflows.Polls
import TinyAutomator.Lib.Pool

/-! The poll loop of one scheduler process and its end. A poll takes its rows in one
statement and handles them one by one, so a shutdown can fall between any two of them. -/
namespace TinyAutomator.Workflows

open Transition

/-- `batch` are the rows of the last poll that the loop has not come to, `admitted` the one
that it has checked and not yet handed to a goroutine; the jobs of `polls` are the
goroutines. `claimed` collects what the polls have taken. -/
structure Process where
  polls : Polls
  batch : List (Claimed ScheduleRow)
  admitted : Option (Claimed ScheduleRow)
  cancelled : Bool
  returned : Bool
  ensured : Bool
  claimed : List (WorkflowID × Nat)

inductive ProcessLabel where
  | poll (now : Int) (keys : List (WorkflowID × Nat))
  | cancel
  | check
  | spawn
  | runSchedule (job : Nat) (env : Env)
  | reschedule (job : Nat) (date now : Int)
  | stop
  | ensure

/-- PollAndRunScheduledWorkflows and the goroutines of RunScheduledWorkflow, where every
statement succeeds. A claimed row is running, so only a date that carbon cannot read fails
its check. `ensure` is EnsureInFlightEnqueued, which sees the goroutines that there are. -/
def processStep (isInvalid : Int → Bool) : ProcessLabel → Process → Option Process
  | .poll now keys, p =>
    if p.cancelled = false ∧ p.batch = [] ∧ p.admitted = none ∧
        Returned (p.polls.claimSchedule now) keys then some { p with
      polls := { p.polls with store := p.polls.store.runSchedules keys }
      batch := keys.filterMap (p.polls.claimSchedule now)
      claimed := keys ++ p.claimed }
    else none
  | .cancel, p => some { p with cancelled := true }
  | .check, p =>
    match p.batch, p.admitted with
    | ws :: rest, none =>
      if p.cancelled = true ∨ isInvalid (ws.row.nextRunAt.getD 0) = true then
        some { p with batch := rest }
      else some { p with batch := rest, admitted := some ws }
    | _, _ => none
  | .spawn, p =>
    match p.admitted with
    | some ws => some { p with
        admitted := none, polls := { p.polls with jobs := p.polls.jobs ++ [ws] } }
    | none => none
  | .runSchedule i env, p => (pollStep (.runSchedule i env) p.polls).map fun polls => { p with polls }
  | .reschedule i date now, p =>
    (pollStep (.reschedule i date now) p.polls).map fun polls => { p with polls }
  | .stop, p =>
    if p.cancelled = true ∧ p.batch = [] ∧ p.admitted = none then some { p with returned := true }
    else none
  | .ensure, p =>
    if p.cancelled = true ∧ ∀ job ∈ p.polls.jobs, job.progress = .done then
      some { p with ensured := true }
    else none

/-- A process that starts on any database. -/
def process (isInvalid : Int → Bool) (store : Store) : System Process ProcessLabel :=
  ⟨⟨⟨store,[],[],[],[]⟩,[],none,false,false,false,[]⟩,processStep isInvalid⟩

def Process.Settled (p : Process) : Prop :=
  ∀ key ∈ p.claimed, ∀ wf, p.polls.store.workflows key.1 = some wf → ∀ row ∈ wf.schedules,
    row.id = key.2 → row.executionState ≠ .running

def Lossless (p : Process) : Prop := p.returned = true → p.ensured = true → p.Settled

/-- The context is cancelled between two batches, the goroutine of an admitted row starts
before EnsureInFlightEnqueued returns, and carbon reads the dates of the claimed rows. -/
def Prompt (isInvalid : Int → Bool) (p : Process) : ProcessLabel → Prop
  | .cancel => p.batch = []
  | .ensure => p.admitted = none
  | .check => ∀ ws ∈ p.batch.head?, isInvalid (ws.row.nextRunAt.getD 0) = false
  | .poll .. | .spawn | .runSchedule .. | .reschedule .. | .stop => True

section Invariant

variable {isInvalid : Int → Bool} {p q : Process} {label : ProcessLabel} {store : Store}
  {keys : List (WorkflowID × Nat)} {w : WorkflowID}

/-- What the process has claimed, wherever it is by now. -/
def Process.held (p : Process) : List (Claimed ScheduleRow) :=
  p.batch ++ p.admitted.toList ++ p.polls.jobs

/-- A write-back to the rows of a workflow is still to come. -/
def Process.Pending (p : Process) (w : WorkflowID) : Prop :=
  ∃ x ∈ p.held, x.workflowID = w ∧ x.progress ≠ .done

/-- A claimed row that is running has somebody who will write to it. -/
structure Tracked (p : Process) : Prop where
  rows : ∀ key ∈ p.claimed, ∀ row, p.polls.store.Has key.1 row → row.id = key.2 →
    row.executionState = .running → p.Pending key.1
  batch : p.cancelled = true → p.batch = []
  ensured : p.ensured = true → p.cancelled = true ∧ p.admitted = none ∧
    ∀ job ∈ p.polls.jobs, job.progress = .done

theorem Tracked.poll {now : Int} (tracked : Tracked p) (empty : p.batch = [])
    (running : p.cancelled = false) (returned : Returned (p.polls.claimSchedule now) keys) :
    Tracked { p with
      polls := { p.polls with store := p.polls.store.runSchedules keys }
      batch := keys.filterMap (p.polls.claimSchedule now)
      claimed := keys ++ p.claimed } := by
  have taken : ∀ key ∈ keys, ∃ x ∈ keys.filterMap (p.polls.claimSchedule now),
      x.workflowID = key.1 ∧ x.progress ≠ .done := by
    intro key member
    obtain ⟨x,claimed⟩ := Option.isSome_iff_exists.mp (returned.2.2 key member)
    obtain ⟨owner,fresh,_⟩ := claimSchedule_some claimed
    exact ⟨x,List.mem_filterMap.mpr ⟨key,member,claimed⟩,owner,by rw [fresh]; nofun⟩
  refine ⟨fun key member row has same state => ?_,?_,tracked.ensured⟩
  · by_cases new : key ∈ keys
    · obtain ⟨x,inside,holds⟩ := taken key new
      exact ⟨x,List.mem_append_left _ (List.mem_append_left _ inside),holds⟩
    · have claimed := (List.mem_append.mp member).resolve_left new
      obtain ⟨old,has,⟨taken,rfl⟩ | ⟨_,rfl⟩⟩ := runSchedules_has has
      · exact absurd ((Prod.ext rfl same : (key.1,old.id) = key) ▸ taken) new
      · obtain ⟨x,inside,holds⟩ := tracked.rows key claimed row has same state
        rw [Process.held,empty,List.nil_append] at inside
        refine ⟨x,?_,holds⟩
        rw [Process.held,List.append_assoc]
        exact List.mem_append_right _ inside
  · intro cancelled
    rw [running] at cancelled
    contradiction

theorem Tracked.move (tracked : Tracked p) (claimed : q.claimed = p.claimed)
    (same : q.polls.store = p.polls.store) (pending : ∀ w, p.Pending w → q.Pending w)
    (batch : q.cancelled = true → q.batch = [])
    (ensured : q.ensured = true → q.cancelled = true ∧ q.admitted = none ∧
      ∀ job ∈ q.polls.jobs, job.progress = .done) : Tracked q := by
  refine ⟨fun key member row has id state => ?_,batch,ensured⟩
  rw [claimed] at member
  rw [same] at has
  exact pending _ (tracked.rows key member row has id state)

theorem Pending.of_held (same : ∀ x ∈ p.held, x ∈ q.held) (pending : p.Pending w) : q.Pending w := by
  obtain ⟨x,inside,holds⟩ := pending
  exact ⟨x,same x inside,holds⟩

theorem Pending.set {i : Nat} {job job' : Claimed ScheduleRow} {polls : Polls}
    (at_ : p.polls.jobs[i]? = some job) (jobs : polls.jobs = p.polls.jobs.set i job')
    (owner : job'.workflowID = job.workflowID) (owes : job'.progress ≠ .done)
    (pending : p.Pending w) : ({ p with polls } : Process).Pending w := by
  obtain ⟨x,inside,holds⟩ := pending
  rcases List.mem_append.mp inside with early | inside
  · exact ⟨x,List.mem_append_left _ early,holds⟩
  · have old : ∃ x ∈ p.polls.jobs, x.workflowID = w ∧ x.progress ≠ .done := ⟨x,inside,holds⟩
    have found : ∃ x ∈ polls.jobs, x.workflowID = w ∧ x.progress ≠ .done := by
      rw [jobs]
      rcases Pool.exists_set at_ old job' with ⟨same,_⟩ | found
      · exact ⟨job',Pool.mem_set_self at_,owner.trans same,owes⟩
      · exact found
    obtain ⟨y,inside,holds⟩ := found
    exact ⟨y,List.mem_append_right _ inside,holds⟩

theorem Tracked.reschedule {i : Nat} {job : Claimed ScheduleRow} {scheduleType : ScheduleType}
    {nextRunAt lastRunAt : Option Int} {updatedAt : Int} (tracked : Tracked p) (at_ : p.polls.jobs[i]? = some job)
    (owes : job.progress ≠ .done) : Tracked { p with polls := { p.polls with
      store := p.polls.store.amend job.workflowID fun wf => wf.updateSchedules scheduleType nextRunAt lastRunAt updatedAt
      jobs := p.polls.jobs.set i { job with progress := .done } } } := by
  refine ⟨fun key member row has same state => ?_,tracked.batch,fun ensured => ?_⟩
  · rcases amend_has has with ⟨own,has⟩ | ⟨_,old,_,rfl⟩
    · obtain ⟨x,inside,mine,unfinished⟩ := tracked.rows key member row has same state
      refine ⟨x,?_,mine,unfinished⟩
      rcases List.mem_append.mp inside with early | inside
      · exact List.mem_append_left _ early
      · have other : x ≠ job := by
          rintro rfl
          exact own mine.symm
        exact List.mem_append_right _ (Pool.mem_set_of_ne at_ inside other _)
    · dsimp only at state
      split at state <;> contradiction
  · exact absurd ((tracked.ensured ensured).2.2 job (List.mem_of_getElem? at_)) owes

theorem Tracked.step (tracked : Tracked p) (prompt : Prompt isInvalid p label)
    (step : processStep isInvalid label p = some q) : Tracked q := by
  cases label with
  | poll now keys =>
    simp only [processStep] at step
    split at step
    next allowed =>
      cases step
      obtain ⟨running,empty,_,returned⟩ := allowed
      exact tracked.poll empty running returned
    next => contradiction
  | cancel =>
    cases step
    refine tracked.move rfl rfl (fun _ pending => pending) (fun _ => prompt) fun ensured => ?_
    exact ⟨rfl,(tracked.ensured ensured).2⟩
  | check =>
    simp only [processStep] at step
    split at step
    next ws rest batch admitted =>
      have running : p.cancelled ≠ true := by
        intro cancelled
        rw [tracked.batch cancelled] at batch
        contradiction
      have valid : isInvalid (ws.row.nextRunAt.getD 0) = false := prompt ws (by rw [batch]; rfl)
      rw [if_neg (by simp [running,valid])] at step
      cases step
      refine tracked.move rfl rfl ?_ (fun cancelled => absurd cancelled running) fun ensured =>
        absurd (tracked.ensured ensured).1 running
      refine fun w => Pending.of_held fun x inside => ?_
      simp only [Process.held,batch,admitted,Option.toList,List.mem_append,List.mem_cons] at inside ⊢
      tauto
    next => contradiction
  | spawn =>
    simp only [processStep] at step
    split at step
    next ws admitted =>
      cases step
      refine tracked.move rfl rfl ?_ tracked.batch fun ensured => ?_
      · refine fun w => Pending.of_held fun x inside => ?_
        simp only [Process.held,admitted,Option.toList,List.mem_append,List.mem_singleton] at inside ⊢
        tauto
      · obtain ⟨_,none,_⟩ := tracked.ensured ensured
        rw [admitted] at none
        contradiction
    next => contradiction
  | runSchedule i env =>
    obtain ⟨polls,moved,rfl⟩ := Option.map_eq_some_iff.mp step
    obtain ⟨job,at_,fresh,rfl⟩ := runSchedule_some moved
    refine tracked.move rfl rfl (fun w => Pending.set at_ rfl rfl nofun) tracked.batch fun ensured => ?_
    have finished := (tracked.ensured ensured).2.2 job (List.mem_of_getElem? at_)
    rw [fresh] at finished
    contradiction
  | reschedule i date now =>
    obtain ⟨polls,moved,rfl⟩ := Option.map_eq_some_iff.mp step
    obtain ⟨job,at_,ran,rfl⟩ := reschedule_some moved
    exact tracked.reschedule at_ (by rw [ran]; nofun)
  | stop =>
    simp only [processStep] at step
    split at step
    next allowed =>
      cases step
      exact tracked.move rfl rfl (fun _ pending => pending) tracked.batch tracked.ensured
    next => contradiction
  | ensure =>
    simp only [processStep] at step
    split at step
    next allowed =>
      cases step
      exact tracked.move rfl rfl (fun _ pending => pending) tracked.batch fun _ =>
        ⟨allowed.1,prompt,allowed.2⟩
    next => contradiction

theorem reach_tracked (reach : Reach (process isInvalid store) (Prompt isInvalid) p) : Tracked p := by
  have initial : Tracked (process isInvalid store).init := by
    constructor <;> simp [process]
  refine reach.invariant Tracked initial ?_
  intro p label q _ tracked prompt step
  exact tracked.step prompt step

/-- A shutdown between two batches loses nothing. -/
theorem prompt_lossless (isInvalid : Int → Bool) (store : Store) (p : Process)
    (reach : Reach (process isInvalid store) (Prompt isInvalid) p) : Lossless p := by
  intro returned ensured key member wf stored row within same state
  have tracked := reach_tracked reach
  obtain ⟨cancelled,admitted,finished⟩ := tracked.ensured ensured
  obtain ⟨x,inside,_,unfinished⟩ := tracked.rows key member row ⟨wf,stored,within⟩ same state
  rw [Process.held,tracked.batch cancelled,admitted] at inside
  exact unfinished (finished x inside)

end Invariant

section Runs

instance (isInvalid : Int → Bool) (p : Process) : (label : ProcessLabel) → Decidable (Prompt isInvalid p label)
  | .cancel => inferInstanceAs (Decidable (p.batch = []))
  | .ensure => inferInstanceAs (Decidable (p.admitted = none))
  | .check => inferInstanceAs (Decidable (∀ ws ∈ p.batch.head?, _ = false))
  | .poll .. | .spawn | .runSchedule .. | .reschedule .. | .stop => isTrue trivial

instance (p : Process) : Decidable p.Settled :=
  inferInstanceAs (Decidable (∀ key ∈ p.claimed, ∀ wf ∈ p.polls.store.workflows key.1,
    ∀ row ∈ wf.schedules, row.id = key.2 → row.executionState ≠ .running))

/-- A daily schedule that is due after one second. -/
def oneDue : Store := (Store.fresh fun _ => false).put 1
  ⟨"alice","reminder","a mail",.active,.empty,[⟨1,.daily,some 1000,none,.queued,0⟩],[],0,0⟩

/-- The goroutine of a claimed row finishes after the context is cancelled. -/
theorem late_goroutine_lossless : ∃ p, Reach (process (fun _ => false) oneDue) (Prompt fun _ => false) p ∧
    (p.returned = true ∧ p.ensured = true ∧ p.claimed = [(1,1)]) ∧ Lossless p := by
  have run : ∃ p, Reach (process (fun _ => false) oneDue) (Prompt fun _ => false) p ∧
      (p.returned = true ∧ p.ensured = true ∧ p.claimed = [(1,1)]) :=
    follow_exists [.poll 1000 [(1,1)],.check,.spawn,.cancel,.runSchedule 0 .dated,
      .reschedule 0 86401000 1000,.stop,.ensure] (by decide +kernel)
  obtain ⟨p,reach,shape⟩ := run
  exact ⟨p,reach,shape,prompt_lossless _ _ p reach⟩

/-- A row that was claimed just before the context is cancelled is skipped and stays running. -/
theorem skipped_running : ¬∀ isInvalid store p, Reach (process isInvalid store) (fun _ _ => True) p →
    Lossless p := by
  intro lossless
  have run : ∃ p, Reach (process (fun _ => false) oneDue) (fun _ _ => True) p ∧
      (p.returned = true ∧ p.ensured = true ∧ ¬p.Settled) :=
    follow_exists [.poll 1000 [(1,1)],.cancel,.check,.stop,.ensure] (by decide +kernel)
  obtain ⟨p,reach,returned,ensured,lost⟩ := run
  exact lost (lossless _ _ p reach returned ensured)

end Runs

end TinyAutomator.Workflows
