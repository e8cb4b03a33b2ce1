import TinyAutomator.Workflows.Replaces
import TinyAutomator.Workflows.Saveable

/-! When a save is all or nothing. Its transaction is, but its COMMIT may be applied without an
answer, and the loop over the nodes updates trigger rows on the spot before it. -/
namespace TinyAutomator.Workflows

/-- Whatever goes wrong around it, a save that fails has not touched a table. -/
def AllOrNothing (parse : String → Option Int) (s : Store) (r : UpdateRequest) : Prop :=
  ∀ env, env.parseRFC3339 = parse → ∀ err, (updateWorkflow env r s).2 = .error err →
    (updateWorkflow env r s).1.workflows = s.workflows

/-- The loop can update the rows of a changed trigger. -/
def Fires (s : Store) (r : UpdateRequest) (g : Graph) (d : WorkflowNodeDTO) : Prop :=
  Matches g d ∧ changed g d = true ∧ d.category = .trigger ∧ Accepts s r d

/-- The update of a trigger finds no row. It writes the time into every row that it finds. -/
def Rowless (wf : Workflow) (d : WorkflowNodeDTO) : Prop :=
  (handlers d.nodeType = some .schedule → wf.schedules = []) ∧
  (handlers d.nodeType = some .calendarEvent → wf.calendars = [])

/-- No trigger that the loop can reach has anything to write. -/
def SilentLoop (parse : String → Option Int) (s : Store) (r : UpdateRequest) : Prop :=
  ∀ wf, s.workflows r.workflowID = some wf →
    (∃ env, env.parseRFC3339 = parse ∧ validateRequest env r.nodes r.edges = .ok ()) →
    ∀ before d after, r.nodes = before ++ d :: after → (∀ e ∈ before, Passes s r wf.graph e) →
      Fires s r wf.graph d → Rowless wf d

/-- What comes to the commit asks for what is stored. -/
def SilentCommit (parse : String → Option Int) (s : Store) (r : UpdateRequest) : Prop :=
  ∀ wf, s.workflows r.workflowID = some wf → wf.graph.nodes ≠ [] → Saveable parse s r wf.graph →
    r.name = wf.name ∧ r.description = wf.description ∧ Echoes r wf.graph

section Updates

variable {env : Env} {d : WorkflowNodeDTO} {c : Config} {handler : TriggerHandler}
  {change : Workflow → Workflow} {wf : Workflow}

theorem Rewrite.rowless (rewrite : Rewrite env c handler change) (registered : handlers d.nodeType = some handler)
    (rowless : Rowless wf d) : change wf = wf := by
  cases rewrite with
  | schedule =>
    have none_ := rowless.1 registered
    cases wf
    cases none_
    rfl
  | calendar =>
    have none_ := rowless.2 registered
    cases wf
    cases none_
    rfl

end Updates

section Loop

variable {env env' : Env} {r : UpdateRequest} {s t u : Store} {d : WorkflowNodeDTO} {wf : Workflow}
  {parse : String → Option Int} {before after rest done : List WorkflowNodeDTO} {delta : WorkflowDelta}

theorem retrigger_rowless (stored : s.workflows r.workflowID = some wf) {old : WorkflowNodeDTO} {left : Nat}
    (rowless : Fires s r wf.graph d → Rowless wf d) (stands : StandsFor (wf.graph.nodes.map NodeRow.dto) d old)
    (differs : old.config ≠ d.config) (updated : retrigger env r left d s = .ok t) : t = s := by
  obtain ⟨_,accepts⟩ := retrigger_accepts updated
  rcases retrigger_ok updated with ⟨_,same⟩ | ⟨trigger,c,handler,change,_,registered,rewrite,same⟩
  · exact same
  · have here := rowless ⟨stands.matches,stands.changed_iff.mpr differs,trigger,(accepts trigger).1⟩
    rw [same,amend_same stored (rewrite.rowless registered here)]

/-- A loop over triggers without rows changes nothing, wherever it stops. -/
theorem diffNodes_rowless (stored : s.workflows r.workflowID = some wf)
    (rowless : ∀ before d after, r.nodes = before ++ d :: after →
      (∀ e ∈ before, Passes s r wf.graph e) → Fires s r wf.graph d → Rowless wf d)
    (all : r.nodes = done ++ rest) (passed : ∀ e ∈ done, Passes s r wf.graph e) :
    (diffNodes env r (wf.graph.nodes.map NodeRow.dto) rest delta s).1 = s := by
  induction rest generalizing done delta with
  | nil => rfl
  | cons d rest ih =>
    have ih : Passes s r wf.graph d → ∀ delta,
        (diffNodes env r (wf.graph.nodes.map NodeRow.dto) rest delta s).1 = s := by
      intro passes delta
      refine @ih (done ++ [d]) delta (by rw [all,List.append_assoc]; rfl) ?_
      exact List.forall_mem_append.mpr ⟨passed,List.forall_mem_singleton.mpr passes⟩
    obtain ⟨t,result,turn,loop⟩ := diffNodes_turn env r (wf.graph.nodes.map NodeRow.dto) rest d delta s
    have still : t = s := by
      rcases turn.leaves with same | ⟨old,stands,differs,updated⟩
      · exact same
      exact retrigger_rowless stored (rowless done d rest all passed) stands differs updated
    subst still
    rw [loop]
    cases result with
    | error err => rfl
    | ok mid => exact ih turn.passes.1 mid

theorem diffNodes_pass (stored : s.workflows r.workflowID = some wf) (passes : Passes s r wf.graph d)
    (rowless : Fires s r wf.graph d → Rowless wf d)
    (valid : validateNode env' d = .ok ()) (same : env.parseRFC3339 = env'.parseRFC3339)
    (answers : env.answers (.triggerRow rest.length) = true) (tokens : env.syncToken = fun _ _ => .ok "")
    (delta : WorkflowDelta) : ∃ delta',
    diffNodes env r (wf.graph.nodes.map NodeRow.dto) (d :: rest) delta s =
      diffNodes env r (wf.graph.nodes.map NodeRow.dto) rest delta' s := by
  rcases passes with uuid | ⟨named,placed,accepts⟩
  · exact ⟨_,by rw [diffNodes,if_pos uuid]⟩
  · obtain ⟨old,stands⟩ := named.stands
    by_cases config : old.config = d.config
    · exact stands.goes_on placed (.inl ⟨config,rfl⟩) delta
    · have changes := stands.changed_iff.mpr config
      obtain ⟨t,updated,_⟩ := retrigger_total valid same (accepts changes) answers tokens
      obtain rfl := retrigger_rowless stored rowless stands config updated
      exact stands.goes_on placed (.inr ⟨config,updated⟩) delta

theorem diffNodes_prefix (stored : s.workflows r.workflowID = some wf)
    (passes : ∀ e ∈ before, Passes s r wf.graph e)
    (rowless : ∀ e ∈ before, Fires s r wf.graph e → Rowless wf e)
    (valid : ∀ e ∈ before, validateNode env' e = .ok ()) (same : env.parseRFC3339 = env'.parseRFC3339)
    (answers : ∀ left, rest.length ≤ left → env.answers (.triggerRow left) = true)
    (tokens : env.syncToken = fun _ _ => .ok "") (delta : WorkflowDelta) : ∃ delta',
    diffNodes env r (wf.graph.nodes.map NodeRow.dto) (before ++ rest) delta s =
      diffNodes env r (wf.graph.nodes.map NodeRow.dto) rest delta' s := by
  induction before generalizing delta with
  | nil => exact ⟨delta,rfl⟩
  | cons d before ih =>
    have answered : env.answers (.triggerRow (before ++ rest).length) = true :=
      answers _ (by simp)
    obtain ⟨mid,first⟩ := diffNodes_pass stored (passes d List.mem_cons_self)
      (rowless d List.mem_cons_self) (valid d List.mem_cons_self) same answered tokens delta
    obtain ⟨delta',later⟩ := ih (fun e member => passes e (List.mem_cons_of_mem _ member))
      (fun e member => rowless e (List.mem_cons_of_mem _ member))
      (fun e member => valid e (List.mem_cons_of_mem _ member)) mid
    exact ⟨delta',first.trans later⟩

theorem diffNodes_silent (silent : ∀ left, left < rest.length → env.answers (.triggerRow left) = false)
    (delta : WorkflowDelta) : (diffNodes env r (wf.graph.nodes.map NodeRow.dto) rest delta s).1 = s := by
  induction rest generalizing delta with
  | nil => rfl
  | cons d rest ih =>
    have ih := ih fun left below => silent left (by simp; omega)
    obtain ⟨t,result,turn,loop⟩ := diffNodes_turn env r (wf.graph.nodes.map NodeRow.dto) rest d delta s
    have still : t = s := by
      rcases turn.leaves with same | ⟨old,stands,differs,updated⟩
      · exact same
      rcases retrigger_ok updated with ⟨_,same⟩ | ⟨trigger,_⟩
      · exact same
      · obtain ⟨_,answered⟩ := (retrigger_accepts updated).2 trigger
        rw [silent rest.length (by simp)] at answered
        contradiction
    subst still
    rw [loop]
    cases result with
    | error err => rfl
    | ok mid => exact ih mid

/-- A reached trigger writes its rows, and the save fails afterwards if nothing else
answers. -/
theorem diffNodes_fires (fires : Fires s r wf.graph d) (valid : validateNode env' d = .ok ())
    (same : env.parseRFC3339 = env'.parseRFC3339) (answers : env.answers (.triggerRow after.length) = true)
    (silent : ∀ left, left < after.length → env.answers (.triggerRow left) = false)
    (tokens : env.syncToken = fun _ _ => .ok "") (delta : WorkflowDelta) :
    ∃ c handler change, d.config = some c ∧ handlers d.nodeType = some handler ∧
      Rewrite env c handler change ∧
      (diffNodes env r (wf.graph.nodes.map NodeRow.dto) (d :: after) delta s).1 =
        s.amend r.workflowID change ∧
      ∀ t delta', diffNodes env r (wf.graph.nodes.map NodeRow.dto) (d :: after) delta s = (t,.ok delta') →
        delta'.nodesToUpdate ≠ [] := by
  obtain ⟨named,changed_,trigger,accepts⟩ := fires
  obtain ⟨old,stands⟩ := named.stands
  obtain ⟨c,given⟩ := validateNode_config valid
  obtain ⟨handler,change,registered,rewrite,updated⟩ :=
    accepts_update given trigger valid same accepts answers tokens
  refine ⟨c,handler,change,given,registered,rewrite,?_,?_⟩
  · have updated : retrigger env r after.length d s = .ok (s.amend r.workflowID change) :=
      (if_pos trigger).trans updated
    have differs := stands.changed_iff.mp changed_
    cases compared : compareUI old (d.withIDs r)
        { delta with nodesToUpdate := delta.nodesToUpdate ++ [d.withIDs r] } with
    | error err => rw [stands.diffNodes_stuck differs updated compared]
    | ok mid =>
      rw [stands.diffNodes_changed differs updated compared]
      exact diffNodes_silent silent mid
  · intro t delta' ended none_
    obtain ⟨_,sorted⟩ := diffNodes_ok ended
    rw [sorted] at none_
    simp [changed_] at none_

end Loop

section Iff

variable {env env' : Env} {r : UpdateRequest} {s t u : Store} {d : WorkflowNodeDTO} {wf : Workflow}
  {parse : String → Option Int} {before after : List WorkflowNodeDTO} {plan : Plan} {c : Config}
  {handler : TriggerHandler} {change : Workflow → Workflow} {left : Nat} {now : Int}

theorem SilentLoop.planned (silent : SilentLoop env.parseRFC3339 s r) : (planUpdate env r s).1 = s := by
  unfold planUpdate
  split
  next => rfl
  next valid =>
    split
    next => rfl
    next existing rendered =>
      obtain ⟨wf,stored,rfl⟩ := render_ok (wrap_ok.mp rendered)
      have rowless := silent wf stored ⟨env,rfl,valid⟩
      have kept : (diffNodes env r (wf.graph.nodes.map NodeRow.dto) r.nodes (.start r
          ⟨wf.name,wf.description,wf.graph.nodes.map NodeRow.dto,wf.graph.edges.map edgeDTO⟩) s).1 = s :=
        diffNodes_rowless stored rowless (List.nil_append _).symm (by simp)
      dsimp only
      split
      next step => rw [step] at kept; exact kept
      next step => rw [step] at kept; exact kept

theorem Patches.same (patches : Patches env r plan s t) (stored : s.workflows r.workflowID = some wf)
    (names : plan.delta.updateMetadata = false)
    (graph : ∀ x, applyDelta env.ran plan.delta plan.existing.nodes s.nextNode wf.graph = .ok x →
      x.graph = wf.graph) : t.workflows = s.workflows := by
  unfold Patches at patches
  split at patches
  next => rw [patches]
  next =>
    unfold patchWorkflow at patches
    rw [stored] at patches
    obtain ⟨x,applied,patches⟩ := Fold.bind_ok.mp patches
    cases patches
    funext w
    by_cases own : w = r.workflowID
    · subst own
      refine (Store.put_self _ _ _).trans (Eq.trans ?_ stored.symm)
      simp [names,graph x applied]
    · exact Store.put_other _ _ own

/-- Surroundings in which the triggers up to one can be updated and nothing after it. -/
def Env.hostile (env : Env) (left : Nat) (now : Int) : Env := { env with
  now
  syncToken := fun _ _ => .ok ""
  answers := fun statement =>
    match statement with
    | .triggerRow k => decide (left ≤ k)
    | .transaction => false
    | .workflow | .graph | .status _ | .integrations | .runs => true
  applied := false }

theorem writeUpdate_refused (unanswered : env.answers .transaction = false) (unapplied : env.applied = false)
    (some_ : plan.delta.nodesToUpdate ≠ []) : ∃ err, writeUpdate env r plan u = (u,.error err) := by
  have differs : ¬plan.delta.unchanged := fun same => some_ same.2.2.1
  unfold writeUpdate updateWorkflowRows
  rw [if_neg differs]
  cases patchWorkflow env r.workflowID plan.delta plan.existing.nodes u with
  | error err => exact ⟨_,rfl⟩
  | ok v =>
    simp only [Env.commit,unanswered,unapplied]
    exact ⟨_,rfl⟩

/-- Rows that an update leaves as they are at a time of our choice are not there. -/
theorem Rewrite.leaves (rewrite : Rewrite env c handler change) (registered : handlers d.nodeType = some handler)
    (same : change wf = wf) (schedules : ∀ row ∈ wf.schedules, row.updatedAt < env.now)
    (calendars : ∀ row ∈ wf.calendars, row.lastSyncedAt < env.now) : Rowless wf d := by
  cases rewrite with
  | schedule =>
    refine ⟨fun _ => ?_,fun calendar => ?_⟩
    · have rows := congrArg Workflow.schedules same
      cases listed : wf.schedules with
      | nil => rfl
      | cons row rest =>
        have before := schedules row (listed ▸ List.mem_cons_self)
        simp only [Workflow.updateSchedules,listed,List.map_cons,List.cons.injEq] at rows
        have now := congrArg ScheduleRow.updatedAt rows.1
        dsimp only at now
        omega
    · rw [registered] at calendar
      contradiction
  | calendar =>
    refine ⟨fun schedule => ?_,fun _ => ?_⟩
    · rw [registered] at schedule
      contradiction
    · have rows := congrArg Workflow.calendars same
      cases listed : wf.calendars with
      | nil => rfl
      | cons row rest =>
        have before := calendars row (listed ▸ List.mem_cons_self)
        simp only [Workflow.updateCalendars,listed,List.map_cons,List.cons.injEq] at rows
        have now := congrArg CalendarRow.lastSyncedAt rows.1
        dsimp only at now
        omega

theorem exists_later (times : List Int) : ∃ now, ∀ time ∈ times, time < now := by
  induction times with
  | nil => exact ⟨0,by simp⟩
  | cons time rest ih =>
    obtain ⟨now,later⟩ := ih
    refine ⟨max now (time + 1),fun other member => ?_⟩
    rcases List.mem_cons.mp member with rfl | member
    · omega
    · have before := later other member
      omega

theorem updateWorkflow_fires (stored : s.workflows r.workflowID = some wf)
    (valid : validateRequest env r.nodes r.edges = .ok ()) (split_ : r.nodes = before ++ d :: after)
    (passes : ∀ e ∈ before, Passes s r wf.graph e)
    (rowless : ∀ e ∈ before, Fires s r wf.graph e → Rowless wf e)
    (fires : Fires s r wf.graph d) (graph : env.answers .graph = true)
    (answers : ∀ left, after.length ≤ left → env.answers (.triggerRow left) = true)
    (silent : ∀ left, left < after.length → env.answers (.triggerRow left) = false)
    (unanswered : env.answers .transaction = false) (unapplied : env.applied = false)
    (tokens : env.syncToken = fun _ _ => .ok "") :
    ∃ c handler change, d.config = some c ∧ handlers d.nodeType = some handler ∧
      Rewrite env c handler change ∧
      ∃ err, updateWorkflow env r s = (s.amend r.workflowID change,.error err) := by
  have valids := (validateRequest_ok valid).2
  rw [split_] at valids
  obtain ⟨row,found,_⟩ := fires.1
  have rendered := render_answers graph stored (List.ne_nil_of_mem (rowOf_some found).1)
  have loop : ∃ delta, diffNodes env r (wf.graph.nodes.map NodeRow.dto) r.nodes (.start r
      ⟨wf.name,wf.description,wf.graph.nodes.map NodeRow.dto,wf.graph.edges.map edgeDTO⟩) s =
      diffNodes env r (wf.graph.nodes.map NodeRow.dto) (d :: after) delta s := by
    rw [split_]
    refine diffNodes_prefix stored passes rowless (fun e member => valids e (List.mem_append_left _ member))
      rfl (fun left within => answers left ?_) tokens _
    rw [List.length_cons] at within
    omega
  obtain ⟨delta,loop⟩ := loop
  obtain ⟨c,handler,change,given,registered,rewrite,wrote,changes⟩ := diffNodes_fires fires
    (valids d (List.mem_append_right _ List.mem_cons_self)) rfl (answers _ (Nat.le_refl _)) silent tokens delta
  refine ⟨c,handler,change,given,registered,rewrite,?_⟩
  unfold updateWorkflow planUpdate
  rw [valid,rendered]
  simp only [wrap,loop]
  cases step : diffNodes env r (wf.graph.nodes.map NodeRow.dto) (d :: after) delta s with
  | mk t result =>
    rw [step] at wrote
    obtain rfl : t = s.amend r.workflowID change := wrote
    cases result with
    | error err => exact ⟨err,rfl⟩
    | ok delta' =>
      have some_ := changes _ delta' step
      exact writeUpdate_refused unanswered unapplied some_

theorem AllOrNothing.loop (all : AllOrNothing parse s r) : SilentLoop parse s r := by
  rintro wf stored ⟨env,rfl,valid⟩ before d after split_ passes fires
  -- the triggers before this one find no row either
  induction length : before.length using Nat.strong_induction_on generalizing before d after with
  | _ n ih =>
    have rowless : ∀ e ∈ before, Fires s r wf.graph e → Rowless wf e := by
      intro e member fires'
      obtain ⟨first,second,rfl⟩ := List.append_of_mem member
      refine ih first.length ?_ first e (second ++ d :: after) ?_ ?_ fires' rfl
      · rw [← length,List.length_append,List.length_cons]
        omega
      · rw [split_,List.append_assoc,List.cons_append]
      · exact fun x listed => passes x (List.mem_append_left _ listed)
    obtain ⟨now,later⟩ := exists_later (wf.schedules.map (·.updatedAt) ++ wf.calendars.map (·.lastSyncedAt))
    obtain ⟨schedules,calendars⟩ := List.forall_mem_append.mp later
    obtain ⟨c,handler,change,given,registered,rewrite,err,failed⟩ :=
      @updateWorkflow_fires (env.hostile after.length now) r s d wf before after stored valid split_ passes
        rowless fires rfl (fun _ within => decide_eq_true within)
        (fun _ below => decide_eq_false (Nat.not_le.mpr below)) rfl rfl rfl
    have unchanged := all (env.hostile after.length now) rfl err (by rw [failed])
    rw [failed] at unchanged
    have same := congrFun unchanged r.workflowID
    rw [Store.amend_self,stored] at same
    exact rewrite.leaves registered (Option.some.inj same)
      (fun row member => schedules _ (List.mem_map_of_mem member))
      (fun row member => calendars _ (List.mem_map_of_mem member))

/-- Surroundings in which all goes well, except that the COMMIT is not answered. -/
def Env.lost (env : Env) : Env := { env with
  ran := fun _ => false
  syncToken := fun _ _ => .ok ""
  answers := fun statement => decide (statement ≠ .transaction)
  applied := true }

theorem AllOrNothing.commit (all : AllOrNothing parse s r) (sequenced : Sequenced s r.workflowID) :
    SilentCommit parse s r := by
  intro wf stored some_ saveable
  obtain ⟨env,rfl,valid⟩ := saveable.valid
  have free : ¬Blocked env.lost.ran r wf.graph := by
    rintro ⟨n,_,_,held⟩
    contradiction
  obtain ⟨u,plan,v,planned,patches⟩ : ∃ u plan v, planUpdate env.lost r s = (u,.ok plan) ∧
      Patches env.lost r plan u v :=
    Saveable.planned saveable stored some_ valid rfl (fun _ => by simp [Env.lost]) rfl free
  have still : (planUpdate env.lost r s).1 = s := SilentLoop.planned all.loop
  rw [planned] at still
  obtain rfl : u = s := still
  have kept : v.workflows = u.workflows := by
    by_cases unchanged : plan.delta.unchanged
    · rw [Patches,if_pos unchanged] at patches
      rw [patches]
    · obtain ⟨err,lost⟩ := patches.lost unchanged (by simp [Env.lost]) rfl
      have failed : updateWorkflow env.lost r u = (v,.error err) := by
        rw [updateWorkflow,planned]
        exact lost
      have unchanged := all env.lost rfl err (by rw [failed])
      rwa [failed] at unchanged
  obtain ⟨x,wf',applied,after,graph,_,_,_,_,names⟩ := patches.rows stored
  obtain rfl : wf' = wf := Option.some.inj (after.symm.trans ((congrFun kept _).trans stored))
  obtain ⟨_,wf'',_,stored',existing,_⟩ := planUpdate_ok planned
  obtain rfl := Option.some.inj (stored.symm.trans stored')
  rw [plan_names planned stored] at names
  obtain ⟨name,description⟩ := Prod.mk.inj names
  rw [existing] at applied
  exact ⟨name.symm,description.symm,(applyDelta_echoes (plan_diffed planned stored) (sequenced wf' stored)
    (validated_ends valid) applied).mp graph.symm⟩

end Iff

section Runs

/-- The workflow as it is stored. -/
def again : UpdateRequest := ⟨"alice",1,"reminder","a daily mail",
  [trigger (.row 1) "daily",mail (.row 2)],[⟨"",.row 1,.row 2⟩]⟩

end Runs

end TinyAutomator.Workflows
