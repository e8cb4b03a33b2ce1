import TinyAutomator.Workflows.Readers
import TinyAutomator.Workflows.Saveable

/-! What a save owes to the run history: a node that a run refers to cannot be deleted. -/
namespace TinyAutomator.Workflows

/-- Two saves end alike: both succeed or both fail, and the tables are the same. -/
def EndsAlike (x y : Reply Unit) : Prop := (x.2 = .ok () ↔ y.2 = .ok ()) ∧ x.1.workflows = y.1.workflows

def HistoryFree (parse : String → Option Int) (ran ran' : NodeID → Bool) (s : Store) (r : UpdateRequest) :
    Prop :=
  ∀ env : Env, env.parseRFC3339 = parse →
    EndsAlike (updateWorkflow { env with ran } r s) (updateWorkflow { env with ran := ran' } r s)

section Iff

variable {env : Env} {ran ran' : NodeID → Bool} {parse : String → Option Int} {r : UpdateRequest} {s t u : Store}
  {wf : Workflow} {plan : Plan}

/-- A save does not depend on the run history exactly when it drops nodes that have run in
both histories or in none, or cannot be saved for another reason. -/
theorem historyFree_iff (parse : String → Option Int) (ran ran' : NodeID → Bool) (s : Store)
    (r : UpdateRequest) : HistoryFree parse ran ran' s r ↔
      ∀ wf, s.workflows r.workflowID = some wf → Saveable parse s r wf.graph →
        (Blocked ran r wf.graph ↔ Blocked ran' r wf.graph) := by
  constructor
  · intro free wf stored saveable
    by_cases some_ : wf.graph.nodes = []
    · have none_ : ∀ ran, ¬Blocked ran r wf.graph := by
        rintro ran ⟨n,member,_⟩
        simp [Graph.ids,some_] at member
      exact iff_of_false (none_ ran) (none_ ran')
    · obtain ⟨env,same,saved⟩ := saveable.helpful stored some_
      have iff : ∀ ran, (updateWorkflow { env with ran } r s).2 = .ok () ↔ ¬Blocked ran r wf.graph :=
        fun ran => ⟨fun ok => (updateWorkflow_saveable (reply_ok ok) stored).1,saved ran⟩
      have alike := (free env same).1
      rw [iff ran,iff ran'] at alike
      exact not_iff_not.mp alike
  · rintro alike env rfl
    have plans := fun ran => planUpdate_ran env ran r s
    cases planned : planUpdate env r s with
    | mk t result =>
      cases result with
      | error err =>
        have ends : ∀ ran, updateWorkflow { env with ran } r s = (t,.error err) := by
          intro ran
          rw [updateWorkflow,plans,planned]
        rw [EndsAlike,ends ran,ends ran']
        exact ⟨.rfl,rfl⟩
      | ok plan =>
        have writes : ∀ ran, updateWorkflow { env with ran } r s = writeUpdate { env with ran } r plan t := by
          intro ran
          rw [updateWorkflow,plans,planned]
        obtain ⟨_,wf,_,stored,existing,_⟩ := planUpdate_ok planned
        by_cases free : ¬Blocked ran r wf.graph ∧ ¬Blocked ran' r wf.graph
        · have quiet := planUpdate_quiet env r s
          rw [planned] at quiet
          obtain ⟨mid,between,graph,_⟩ := quiet.graph stored
          have between : t.workflows r.workflowID = some mid := between
          have rows : updateWorkflowRows { env with ran } r.workflowID plan.delta plan.existing.nodes t =
              updateWorkflowRows { env with ran := ran' } r.workflowID plan.delta plan.existing.nodes t := by
            simp only [updateWorkflowRows,patchWorkflow,between,existing,graph,
              applyDelta_ran (plan_diffed planned stored) free.1 free.2]
            rfl
          rw [writes,writes,writeUpdate,rows,← writeUpdate]
          exact ⟨.rfl,rfl⟩
        · -- a save that comes to its commit is saveable, so neither history would hold it back
          have fails : ∀ x, (x = ran ∨ x = ran') → ∃ err, updateWorkflow { env with ran := x } r s = (t,.error err) := by
            intro x which
            rw [writes]
            rcases writeUpdate_cases { env with ran := x } r plan t with failed | ⟨v,_,patches,_⟩
            · exact failed
            · obtain ⟨here,saveable⟩ := patches.saveable planned stored
              have iff := alike wf stored saveable
              rcases which with rfl | rfl
              · exact absurd ⟨here,iff.not.mp here⟩ free
              · exact absurd ⟨iff.not.mpr here,here⟩ free
          obtain ⟨err,first⟩ := fails ran (.inl rfl)
          obtain ⟨err',second⟩ := fails ran' (.inr rfl)
          rw [EndsAlike,first,second]
          exact ⟨by simp,rfl⟩

end Iff

section Runs

def shortenAfter (ran : NodeID → Bool) : Reply Unit :=
  updateWorkflow { Env.calm with ran } shorten (createMails twoMails between).1

theorem shorten_blocked : ¬∀ parse ran ran' s r, HistoryFree parse ran ran' s r := by
  intro free
  have before : (shortenAfter fun _ => false).2 = .ok () := by decide +kernel
  have after : (shortenAfter fun n => n = 1).2 =
    .error "failed to update workflow: db error delete workflow node: violates foreign key constraint on workflow_node_run" := by
    decide +kernel
  have alike := (free _ (fun _ => false) (fun n => n = 1) (createMails twoMails between).1 shorten .calm rfl).1
  have same : (shortenAfter fun n => n = 1).2 = .ok () := alike.mp before
  rw [after] at same
  contradiction

end Runs

end TinyAutomator.Workflows
