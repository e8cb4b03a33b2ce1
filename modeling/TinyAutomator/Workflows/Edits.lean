import TinyAutomator.Workflows.Fleet
import TinyAutomator.Workflows.Silence

/-! Whether a user's edit of a schedule stays. A goroutine writes back the type and the next
date of the row that it has claimed, whatever has happened to the row since. -/
namespace TinyAutomator.Workflows

open Transition

/-- The edited date and the dates that CalculateNextRun comes to from it. -/
inductive Occurs (scheduleType : ScheduleType) (date : Int) : Int → Prop where
  | edited : Occurs scheduleType date date
  | later {old now clock run : Int} : Occurs scheduleType date old →
      CalculateNextRun scheduleType old now clock = some run → Occurs scheduleType date run

/-- A row holds an edit: a row without a next date has run once, on the edited date. -/
def Holds (s : Fleet) (w : WorkflowID) (scheduleType : ScheduleType) (date : Int) (row : ScheduleRow) : Prop :=
  row.scheduleType = scheduleType ∧
  match row.nextRunAt with
  | some run => Occurs scheduleType date run
  | none => scheduleType = .once ∧ (w,date) ∈ s.orchestrated

/-- No goroutine of a workflow is between its claim and its write-back. -/
def Idle (s : Fleet) (w : WorkflowID) : Prop :=
  ∀ job ∈ s.polls.jobs, job.workflowID = w → job.progress = .done

/-- Once all goroutines of an edited workflow have finished, its row holds the last edit. -/
def EditsKept (s : Fleet) : Prop :=
  ∀ w scheduleType date, s.edited w = some (scheduleType,date) → Idle s w →
    ∀ row, s.polls.store.Has w row → Holds s w scheduleType date row

/-- An edit does not fall between a claim and its write-back. -/
def Uncrossed (s : Fleet) : FleetLabel → Prop
  | .edit w _ _ => Idle s w
  | .tick _ | .poll _ | .orchestrate .. | .calculate _ | .reschedule _ => True

section Invariant

variable {s t : Fleet} {i : Nat} {w : WorkflowID}
  {job : Claimed ScheduleRow} {scheduleType : ScheduleType} {date run : Int}

theorem occurs_once (occurs : Occurs .once date run) : run = date := by
  cases occurs with
  | edited => rfl
  | later _ computed => contradiction

/-- A goroutine at work has claimed a row that holds the edit. -/
def Carries (s : Fleet) (scheduleType : ScheduleType) (date : Int) (job : Claimed ScheduleRow) : Prop :=
  job.row.scheduleType = scheduleType ∧ job.row.nextRunAt = some job.row.time ∧
    Occurs scheduleType date job.row.time ∧
    (job.progress = .orchestrated → (job.workflowID,job.row.time) ∈ s.orchestrated)

structure Preserved (s : Fleet) : Prop where
  rows : ∀ w scheduleType date, s.edited w = some (scheduleType,date) →
    ∀ row, s.polls.store.Has w row → Holds s w scheduleType date row
  jobs : ∀ job ∈ s.polls.jobs, job.progress ≠ .done → ∀ scheduleType date,
    s.edited job.workflowID = some (scheduleType,date) → Carries s scheduleType date job

theorem Holds.of_row {old row : ScheduleRow} (holds : Holds s w scheduleType date old)
    (type : row.scheduleType = old.scheduleType) (time : row.nextRunAt = old.nextRunAt)
    (fired : ∀ x ∈ s.orchestrated, x ∈ t.orchestrated) : Holds t w scheduleType date row := by
  obtain ⟨same,kept⟩ := holds
  refine ⟨type.trans same,?_⟩
  rw [time]
  cases known : old.nextRunAt with
  | some run => rw [known] at kept; exact kept
  | none => rw [known] at kept; exact ⟨kept.1,fired _ kept.2⟩

theorem Preserved.poll (preserved : Preserved s) (keys : List (WorkflowID × Nat)) :
    Preserved { s with polls := { s.polls with
      store := s.polls.store.runSchedules keys
      jobs := s.polls.jobs ++ keys.filterMap (s.polls.claimSchedule s.now) } } where
  rows := by
    intro w scheduleType date edited row has
    obtain ⟨old,before,⟨_,rfl⟩ | ⟨_,rfl⟩⟩ := runSchedules_has has
    · exact (preserved.rows w scheduleType date edited old before).of_row rfl rfl fun _ fired => fired
    · exact (preserved.rows w scheduleType date edited row before).of_row rfl rfl fun _ fired => fired
  jobs := by
    intro job member active scheduleType date edited
    rcases List.mem_append.mp member with old | new
    · exact preserved.jobs job old active scheduleType date edited
    · obtain ⟨key,_,claimed⟩ := List.mem_filterMap.mp new
      obtain ⟨owner,fresh,row,has,_,_,⟨run,scheduled,_⟩,same⟩ := claimSchedule_some claimed
      obtain ⟨type,kept⟩ := preserved.rows _ scheduleType date edited row (owner ▸ has)
      rw [scheduled] at kept
      have known : job.row.nextRunAt = some run := by rw [same]; exact scheduled
      have time : job.row.time = run := by rw [ScheduleRow.time,known]; rfl
      refine ⟨by rw [same]; exact type,by rw [time]; exact known,time ▸ kept,fun ran => ?_⟩
      rw [fresh] at ran
      contradiction

theorem Preserved.orchestrate (preserved : Preserved s) {log : List Firing}
    (at_ : s.polls.jobs[i]? = some job) (fresh : job.progress = .claimed) : Preserved { s with
      polls := { s.polls with jobs := s.polls.jobs.set i { job with progress := .orchestrated }, log }
      orchestrated := (job.workflowID,job.row.time) :: s.orchestrated } where
  rows := fun w scheduleType date edited row has =>
    (preserved.rows w scheduleType date edited row has).of_row rfl rfl fun _ fired =>
      List.mem_cons_of_mem _ fired
  jobs := by
    intro x member active scheduleType date edited
    rcases Pool.mem_set_cases member with rfl | ⟨j,_,get⟩
    · obtain ⟨type,known,occurs,_⟩ := preserved.jobs job (List.mem_of_getElem? at_)
        (by rw [fresh]; nofun) scheduleType date edited
      exact ⟨type,known,occurs,fun _ => List.mem_cons_self⟩
    · obtain ⟨type,known,occurs,fired⟩ := preserved.jobs x (List.mem_of_getElem? get) active
        scheduleType date edited
      exact ⟨type,known,occurs,fun ran => List.mem_cons_of_mem _ (fired ran)⟩

theorem Carries.written {nextRun lastRun : Option Int} {clock updatedAt : Int} {state : ExecutionState}
    (row : ScheduleRow) (carries : Carries s scheduleType date job) (ran : job.progress = .orchestrated)
    (computed : nextRun = CalculateNextRun job.row.scheduleType job.row.time clock clock) :
    Holds s job.workflowID scheduleType date
      ⟨row.id,job.row.scheduleType,nextRun,lastRun,state,updatedAt⟩ := by
  obtain ⟨type,known,occurs,fired⟩ := carries
  refine ⟨type,?_⟩
  cases result : nextRun with
  | some run =>
    rw [result,type] at computed
    exact .later occurs computed.symm
  | none =>
    rw [result,type] at computed
    have once : scheduleType = .once := by
      by_contra recurring
      rw [CalculateNextRun_recurring recurring] at computed
      contradiction
    subst once
    exact ⟨rfl,occurs_once occurs ▸ fired ran⟩

theorem Preserved.reschedule (preserved : Preserved s) (known : Known s) {nextRun : Option Int} {clock : Int}
    (at_ : s.polls.jobs[i]? = some job) (ran : job.progress = .orchestrated)
    (calculated : s.calculated i = some (nextRun,clock)) : Preserved { s with
      polls := { s.polls with
        store := s.polls.store.amend job.workflowID fun wf => wf.updateSchedules job.row.scheduleType
          (calculateNextRun job.row.scheduleType (nextRun.getD 0)) (some clock) clock
        jobs := s.polls.jobs.set i { job with progress := .done } }
      dates := fun w => if w = job.workflowID then s.dates w ++ nextRun.toList else s.dates w } where
  rows := by
    intro w scheduleType date edited row has
    rw [known.written at_ calculated] at has
    rcases amend_has has with ⟨_,before⟩ | ⟨rfl,old,_,rfl⟩
    · exact (preserved.rows w scheduleType date edited row before).of_row rfl rfl fun _ fired => fired
    · have carries := preserved.jobs job (List.mem_of_getElem? at_) (by rw [ran]; nofun)
        scheduleType date edited
      exact (carries.written old ran (known.computed i job nextRun clock at_ calculated)).of_row
        rfl rfl fun _ fired => fired
  jobs := by
    intro x member active scheduleType date edited
    rcases Pool.mem_set_cases member with rfl | ⟨j,_,get⟩
    · exact absurd rfl active
    · exact preserved.jobs x (List.mem_of_getElem? get) active scheduleType date edited

theorem Preserved.edit (preserved : Preserved s) (idle : Idle s w) : Preserved { s with
    polls := { s.polls with
      store := s.polls.store.amend w fun wf => wf.updateSchedules scheduleType (some date) none s.now }
    edited := fun x => if x = w then some (scheduleType,date) else s.edited x } where
  rows := by
    intro x scheduleType' date' edited row has
    dsimp only at edited
    rcases amend_has has with ⟨other,before⟩ | ⟨rfl,old,_,rfl⟩
    · rw [if_neg other] at edited
      exact (preserved.rows x scheduleType' date' edited row before).of_row rfl rfl fun _ fired => fired
    · rw [if_pos rfl] at edited
      cases edited
      exact ⟨rfl,.edited⟩
  jobs := by
    intro job member active scheduleType' date' edited
    dsimp only at edited
    have other : job.workflowID ≠ w := fun own => active (idle job member own)
    rw [if_neg other] at edited
    exact preserved.jobs job member active scheduleType' date' edited

theorem Preserved.step {label : FleetLabel} (preserved : Preserved s) (known : Known s)
    (uncrossed : Uncrossed s label) (step : fleetStep label s = some t) : Preserved t := by
  cases label with
  | tick now =>
    simp only [fleetStep] at step
    split at step
    next => cases step; exact ⟨preserved.rows,preserved.jobs⟩
    next => contradiction
  | poll keys =>
    obtain ⟨polls,moved,rfl⟩ := Option.map_eq_some_iff.mp step
    obtain ⟨_,rfl⟩ := pollSchedules_some moved
    exact preserved.poll keys
  | orchestrate i env =>
    obtain ⟨job,at_,fresh,rfl⟩ := orchestrate_some step
    exact preserved.orchestrate at_ fresh
  | calculate i =>
    obtain ⟨job,_,_,rfl⟩ := calculate_some step
    exact ⟨preserved.rows,preserved.jobs⟩
  | reschedule i =>
    obtain ⟨job,nextRun,clock,at_,ran,calculated,rfl⟩ := fleet_reschedule_some step
    exact preserved.reschedule known at_ ran calculated
  | edit w scheduleType date =>
    cases step
    exact preserved.edit uncrossed

theorem uncrossed_kept (store : Store) (now : Int) (s : Fleet)
    (reach : Reach (fleet store now) Uncrossed s) : EditsKept s := by
  have preserved : Preserved s := by
    have initial : Preserved (fleet store now).init := by
      constructor <;> simp [fleet]
    refine reach.invariant Preserved initial ?_
    intro s label t reach preserved uncrossed step
    exact preserved.step (reach_known reach) uncrossed step
  intro w scheduleType date edited _
  exact preserved.rows w scheduleType date edited

end Invariant

section Requests

variable {env : Env} {r : UpdateRequest} {s t u : Store}

/-- The schedule rows are the same. -/
def SameSchedules (s t : Store) : Prop :=
  ∀ w, (s.workflows w).map (·.schedules) = (t.workflows w).map (·.schedules)

/-- Edits of the schedule of one workflow, one statement each. -/
def Store.edits (s : Store) (w : WorkflowID) (now : Int) (edits : List (ScheduleType × Int)) : Store :=
  edits.foldl (fun s edit => s.amend w fun wf => wf.updateSchedules edit.1 (some edit.2) none now) s

theorem SameSchedules.edit (same : SameSchedules s t) (w : WorkflowID) (scheduleType : ScheduleType)
    (date now : Int) : SameSchedules (s.amend w fun wf => wf.updateSchedules scheduleType (some date) none now)
      (t.amend w fun wf => wf.updateSchedules scheduleType (some date) none now) := by
  intro x
  by_cases own : x = w
  · subst own
    have same := same x
    rw [Store.amend_self,Store.amend_self]
    cases before : s.workflows x with
    | none =>
      rw [before] at same
      rw [Option.map_eq_none_iff.mp same.symm]
    | some wf =>
      rw [before] at same
      obtain ⟨wf',before',rows⟩ := Option.map_eq_some_iff.mp same.symm
      rw [before']
      simp only [Option.map_some,Workflow.updateSchedules,rows]
  · rw [Store.amend_other _ _ own,Store.amend_other _ _ own]
    exact same x

theorem SameSchedules.edits (same : SameSchedules s t) (w : WorkflowID) (now : Int)
    (edits : List (ScheduleType × Int)) : SameSchedules (s.edits w now edits) (t.edits w now edits) := by
  induction edits generalizing s t with
  | nil => exact same
  | cons edit rest ih => exact ih (same.edit w edit.1 edit.2 now)

/-- A date that a request asks for. -/
def Asked (env : Env) (r : UpdateRequest) (edit : ScheduleType × Int) : Prop :=
  ∃ d ∈ r.nodes, ∃ config c, d.config = some config ∧
    buildScheduleConfig env.parseRFC3339 config = .ok c ∧ edit = (c.scheduleType,c.scheduledDate)

/-- Up to its transaction a request is a sequence of edits. -/
theorem planUpdate_edits (env : Env) (r : UpdateRequest) (s : Store) :
    ∃ edits, (∀ edit ∈ edits, Asked env r edit) ∧
      SameSchedules (planUpdate env r s).1 (s.edits r.workflowID env.now edits) := by
  apply planUpdate_rel fun s t => ∃ edits, (∀ edit ∈ edits, Asked env r edit) ∧
    SameSchedules t (s.edits r.workflowID env.now edits)
  case reflexive => exact fun s => ⟨[],nofun,fun _ => rfl⟩
  case transitive =>
    rintro s t u ⟨first,asked,same⟩ ⟨second,asked',same'⟩
    refine ⟨first ++ second,fun edit member => ?_,fun w => ?_⟩
    · rcases List.mem_append.mp member with early | late
      · exact asked edit early
      · exact asked' edit late
    · rw [Store.edits,List.foldl_append]
      exact (same' w).trans (same.edits r.workflowID env.now second w)
  case turn =>
    intro d member config handler change given rewrite s
    cases rewrite with
    | schedule built =>
      refine ⟨[(_,_)],fun edit single => ?_,fun _ => rfl⟩
      exact ⟨d,member,config,_,given,built,List.mem_singleton.mp single⟩
    | calendar =>
      refine ⟨[],nofun,fun w => ?_⟩
      by_cases own : w = r.workflowID
      · subst own
        rw [Store.amend_self,Option.map_map]
        rfl
      · rw [Store.amend_other _ _ own]
        rfl

/-- To the schedule rows an UpdateWorkflow request is a sequence of edits. -/
theorem updateWorkflow_edits (env : Env) (r : UpdateRequest) (s : Store) :
    ∃ edits, (∀ edit ∈ edits, Asked env r edit) ∧
      SameSchedules (updateWorkflow env r s).1 (s.edits r.workflowID env.now edits) := by
  obtain ⟨edits,asked,same⟩ := planUpdate_edits env r s
  refine ⟨edits,asked,fun w => ?_⟩
  unfold updateWorkflow
  split
  next planned => rw [planned] at same; exact same w
  next t plan planned =>
    rw [planned] at same
    have kept := congrArg (Option.map Prod.fst) (writeUpdate_triggers env r plan t w)
    rw [Option.map_map,Option.map_map] at kept
    exact kept.trans (same w)

end Requests

section Runs

instance (s : Fleet) (w : WorkflowID) : Decidable (Idle s w) :=
  inferInstanceAs (Decidable (∀ job ∈ s.polls.jobs, _ → _))

instance (s : Fleet) : (label : FleetLabel) → Decidable (Uncrossed s label)
  | .edit w _ _ => inferInstanceAs (Decidable (Idle s w))
  | .tick _ | .poll _ | .orchestrate .. | .calculate _ | .reschedule _ => isTrue trivial

/-- The daily schedule becomes a weekly one between two runs. -/
theorem weekly_kept : ∃ s, Reach (fleet daily 1893456000000) Uncrossed s ∧
    (s.edited 1 = some (.weekly,1893888000000) ∧ s.dates 1 =
      [1893456000000,1893542400000,1894492800000]) ∧ EditsKept s := by
  have run : ∃ s, Reach (fleet daily 1893456000000) Uncrossed s ∧
      (s.edited 1 = some (.weekly,1893888000000) ∧ s.dates 1 =
        [1893456000000,1893542400000,1894492800000]) :=
    follow_exists [.poll [(1,1)],.orchestrate 0 .dated,.calculate 0,.reschedule 0,.edit 1 .weekly 1893888000000,
      .tick 1893888000000,.poll [(1,1)],.orchestrate 1 .dated,.calculate 1,.reschedule 1] (by decide +kernel)
  obtain ⟨s,reach,shape⟩ := run
  exact ⟨s,reach,shape,uncrossed_kept _ _ s reach⟩

/-- A goroutine that was at work during the edit makes the schedule a daily one again. -/
theorem weekly_lost : ¬∀ store now s, Reach (fleet store now) (fun _ _ => True) s → EditsKept s := by
  intro kept
  have run : ∃ s, Reach (fleet daily 1893456000000) (fun _ _ => True) s ∧
      (s.edited 1 = some (.weekly,1893888000000) ∧ Idle s 1 ∧ s.polls.store.workflows 1 =
        some ⟨"alice","reminder","a mail",.active,.empty,
          [⟨1,.daily,some 1893542400000,some 1893456000000,.queued,1893456000000⟩],[],0,0⟩) :=
    follow_exists [.poll [(1,1)],.orchestrate 0 .dated,.edit 1 .weekly 1893888000000,.calculate 0,
      .reschedule 0] (by decide +kernel)
  obtain ⟨s,reach,edited,idle,stored⟩ := run
  have holds := kept _ _ s reach 1 .weekly _ edited idle _ ⟨_,stored,List.mem_singleton_self _⟩
  exact absurd holds.1 (by decide)

end Runs

end TinyAutomator.Workflows
