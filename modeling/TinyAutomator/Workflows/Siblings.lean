import TinyAutomator.Workflows.ScheduledRuns

/-! Several schedule triggers of one workflow. Each has a row of its own, but the statement
that moves a row on and the one that edits a trigger both go by the workflow. -/
namespace TinyAutomator.Workflows

/-- Whenever a goroutine writes the row that it has claimed, every other row of the workflow
stays. -/
def AdvancesOne (s : Store) (w : WorkflowID) : Prop :=
  ∀ env ws, ws.workflowID = w → ws.row.executionState = .running →
    (∃ row, s.Has w row ∧ row.id = ws.row.id) →
      ∀ old, s.Has w old → old.id ≠ ws.row.id → (runScheduledWorkflow env ws s).1.Has w old

def SingleEdit (r : UpdateRequest) (g : Graph) : Prop :=
  (r.nodes.filter fun d => decide (d.category = .trigger) && changed g d).length ≤ 1

instance (r : UpdateRequest) (g : Graph) : Decidable (SingleEdit r g) :=
  inferInstanceAs (Decidable (_ ≤ 1))

/-- Such a request changes one row of the workflow at most. -/
def EditsOne (s : Store) (w : WorkflowID) : Prop :=
  ∀ env r wf, r.workflowID = w → s.workflows w = some wf → SingleEdit r wf.graph →
    ∃ id, ∀ old, s.Has w old → old.id ≠ id → (updateWorkflow env r s).1.Has w old

section Rows

variable {s : Store} {w : WorkflowID} {wf : Workflow}

theorem advances_apart (stored : s.workflows w = some wf) {a b : ScheduleRow} (mine : a ∈ wf.schedules)
    (other : b ∈ wf.schedules) (different : b.id ≠ a.id) : ¬AdvancesOne s w := by
  intro advances
  let env : RunEnv := { RunEnv.punctual with now := b.lastRunAt.getD 0 + 1 }
  let ws : Claimed ScheduleRow := ⟨w,wf.userID,a.running,false,.claimed⟩
  have writes : WritesBack env ws := ⟨rfl,rfl,rfl⟩
  have kept := advances env ws rfl rfl ⟨a,⟨wf,stored,mine⟩,rfl⟩ b ⟨wf,stored,other⟩ different
  obtain ⟨old,_,same⟩ := (run_has rfl writes).mp kept
  have last : b.lastRunAt = some (b.lastRunAt.getD 0 + 1) := congrArg ScheduleRow.lastRunAt same
  cases known : b.lastRunAt with
  | none =>
    rw [known] at last
    contradiction
  | some before =>
    rw [known] at last
    have stays : before = before + 1 := Option.some.inj last
    omega

/-- The schedules of a workflow are independent if and only if it has one at most. -/
theorem independent_iff (s : Store) (w : WorkflowID) (wf : Workflow) (stored : s.workflows w = some wf)
    (key : (wf.schedules.map (·.id)).Nodup) :
    AdvancesOne s w ∧ EditsOne s w ↔ wf.schedules.length ≤ 1 := by
  constructor
  · intro ⟨advances,_⟩
    match rows : wf.schedules with
    | [] => exact Nat.zero_le 1
    | [_] => exact Nat.le_refl 1
    | a :: b :: rest =>
      rw [rows] at key
      have different : b.id ≠ a.id := by
        intro same
        apply (List.nodup_cons.mp key).1
        exact List.mem_map.mpr ⟨b,List.mem_cons_self,same⟩
      have mine : a ∈ wf.schedules := rows ▸ List.mem_cons_self
      have other : b ∈ wf.schedules := rows ▸ List.mem_cons_of_mem _ List.mem_cons_self
      exact absurd advances (advances_apart stored mine other different)
  · intro single
    have only : ∀ a b, s.Has w a → s.Has w b → a = b := by
      rintro a b ⟨wf₁,stored₁,first⟩ ⟨wf₂,stored₂,second⟩
      obtain rfl := Option.some.inj (stored.symm.trans stored₁)
      obtain rfl := Option.some.inj (stored.symm.trans stored₂)
      match rows : wf.schedules with
      | [] => rw [rows] at first; contradiction
      | [row] =>
        rw [rows] at first second
        rw [List.mem_singleton.mp first,List.mem_singleton.mp second]
      | _ :: _ :: _ => simp [rows] at single
    constructor
    · rintro env ws _ _ ⟨row,has,own⟩ old has' different
      rw [only old row has' has] at different
      exact absurd own different
    · intro env r wf' _ _ _
      by_cases empty : ∃ row, s.Has w row
      · obtain ⟨row,has⟩ := empty
        refine ⟨row.id,fun old has' different => ?_⟩
        rw [only old row has' has] at different
        exact absurd rfl different
      · exact ⟨0,fun old has => absurd ⟨old,has⟩ empty⟩

end Rows

section Twins

def twins : Store := (createWorkflow .dated "alice" "reminder" "two triggers" "active"
  [trigger (.uuid "d") "daily",trigger (.uuid "w") "weekly",mail (.uuid "m")]
  [⟨"",.uuid "d",.uuid "m"⟩,⟨"",.uuid "w",.uuid "m"⟩] (.fresh fun _ => false)).1

def monthly : UpdateRequest := ⟨"alice",1,"reminder","two triggers",
  [trigger (.row 1) "monthly",trigger (.row 2) "weekly",mail (.row 3)],
  [⟨"",.row 1,.row 3⟩,⟨"",.row 2,.row 3⟩]⟩

theorem daily_independent : AdvancesOne daily 1 ∧ EditsOne daily 1 :=
  (independent_iff daily 1 _ rfl (by decide +kernel)).mpr (by decide +kernel)

def twin (id : Nat) (scheduleType : ScheduleType) : ScheduleRow :=
  ⟨id,scheduleType,some 1893456000000,none,.queued,1767225600000⟩

theorem twins_rows : ∃ wf, twins.workflows 1 = some wf ∧ wf.schedules =
    [twin 1 .daily,twin 2 .weekly] := by
  have rows : (twins.workflows 1).any (fun wf => wf.schedules = [twin 1 .daily,twin 2 .weekly]) = true := by
    decide +kernel
  obtain ⟨wf,stored,same⟩ := (Option.any_eq_true _ _).mp rows
  exact ⟨wf,stored,of_decide_eq_true same⟩

/-- One of the two rows is moved on, and the other goes with it; one of the two triggers is
edited, and both rows take the new schedule. -/
theorem twins_dependent : ¬AdvancesOne twins 1 ∧ ¬EditsOne twins 1 := by
  obtain ⟨wf,stored,rows⟩ := twins_rows
  have first : twin 1 .daily ∈ wf.schedules := rows ▸ List.mem_cons_self
  have second : twin 2 .weekly ∈ wf.schedules := rows ▸ List.mem_cons_of_mem _ List.mem_cons_self
  constructor
  · exact advances_apart stored first second (by decide)
  · intro edits
    have single : (twins.workflows 1).all (fun wf => decide (SingleEdit monthly wf.graph)) = true := by
      decide +kernel
    rw [stored] at single
    obtain ⟨id,kept⟩ := edits .dated monthly wf rfl stored (of_decide_eq_true single)
    have after : ((updateWorkflow .dated monthly twins).1.workflows 1).all (fun wf =>
        wf.schedules.all fun row => row.scheduleType = .monthly) = true := by decide +kernel
    have gone : ∀ row, row.scheduleType ≠ .monthly →
        ¬(updateWorkflow .dated monthly twins).1.Has 1 row := by
      rintro row other ⟨wf',stored',member⟩
      rw [stored'] at after
      exact other (of_decide_eq_true (List.all_eq_true.mp after row member))
    by_cases own : id = 1
    · exact gone _ (by decide) (kept _ ⟨wf,stored,second⟩ (by rw [own]; decide))
    · exact gone _ (by decide) (kept _ ⟨wf,stored,first⟩ (Ne.symm own))

end Twins

end TinyAutomator.Workflows
