import TinyAutomator.Run.Roots

/-! Status updates of the node runs. A goroutine writes a status and publishes it in a
later call; in between others may write, the publish may fail, or the worker may crash. -/
namespace TinyAutomator.Run

open Transition

/-- The status that a goroutine has written and not published yet. -/
def Pc.publishes : Pc → Option NodeStatus
  | .publishRunning _ => some .running
  | .publishStatus _ err => some (if err.isSome then .failed else .success)
  | _ => none

def Pc.writes : Pc → Bool
  | .markRunning _ | .updateStatus _ _ => true
  | _ => false

/-- A goroutine of the node is between the write and the publish of a status. -/
def State.Updating (s : State) (n : NodeID) : Prop :=
  ∃ h ∈ s.handlers, h.msg.nodeID = n ∧ h.pc.publishes ≠ none

instance (s : State) : DecidablePred s.Updating := fun n =>
  inferInstanceAs (Decidable (∃ h ∈ s.handlers, h.msg.nodeID = n ∧ h.pc.publishes ≠ none))

/-- Another one than goroutine `i` is. -/
def State.OthersUpdating (s : State) (i : Nat) (n : NodeID) : Prop :=
  ∃ h ∈ s.handlers.eraseIdx i, h.msg.nodeID = n ∧ h.pc.publishes ≠ none

instance (s : State) (i : Nat) : DecidablePred (s.OthersUpdating i) := fun n =>
  inferInstanceAs (Decidable (∃ h ∈ s.handlers.eraseIdx i, h.msg.nodeID = n ∧ h.pc.publishes ≠ none))

/-- No write is reported as failed after it was made, and no goroutine crashes before it
has published, unless another one is about to publish a status of the node. -/
def Reported (s : State) : Label → Prop
  | .handle i o _ => ∀ h ∈ s.handlers[i]?, h.pc.writes = true → o = .lost → s.OthersUpdating i h.msg.nodeID
  | .crash i => ∀ h ∈ s.handlers[i]?, h.pc.publishes ≠ none → s.OthersUpdating i h.msg.nodeID
  | _ => True

instance (s : State) : DecidablePred (Reported s)
  | .handle i o _ => inferInstanceAs (Decidable
      (∀ h ∈ s.handlers[i]?, h.pc.writes = true → o = .lost → s.OthersUpdating i h.msg.nodeID))
  | .crash i => inferInstanceAs (Decidable
      (∀ h ∈ s.handlers[i]?, h.pc.publishes ≠ none → s.OthersUpdating i h.msg.nodeID))
  | .orchestrate _ | .finish .. | .deliver _ | .mature _ | .expireSet | .expireLock | .redeliver _
  | .crashOrchestrator => inferInstanceAs (Decidable True)

/-- Nobody updates the node, its status stays, and what is published of it is that status. -/
structure Untouched (s t : State) (n : NodeID) : Prop where
  idle : ¬s.Updating n
  row : t.infra.nodeRuns n = s.infra.nodeRuns n
  updates : t.infra.updates = s.infra.updates ∨ ∃ u, t.infra.updates = s.infra.updates ++ [u] ∧
    (u.1 = n → u.2 = (s.infra.nodeRuns n).status)

/-- The only goroutine that updates the node publishes what it has written. -/
structure Presented (s : State) (i : Nat) (o : Outcome) (h : Handler) (t : State) : Prop where
  here : s.handlers[i]? = some h
  alone : ¬s.OthersUpdating i h.msg.nodeID
  rows : t.infra.nodeRuns = s.infra.nodeRuns
  updates : ∃ status, h.pc.publishes = some status ∧ t.infra.updates =
    if o.applied then s.infra.updates ++ [(h.msg.nodeID,status)] else s.infra.updates

section Updates

variable {g : WorkflowGraph} {s t : State} {x y : Infra} {m : Message} {now : Int} {o : Outcome}
  {pc pc' : Pc} {i : Nat} {h : Handler} {n : NodeID} {label : Label} {status : NodeStatus}

theorem publishing_publishes {rest : List NodeID} : (publishing rest).publishes = none := by
  cases rest <;> rfl

theorem Pc.Leaving.publishes (leaving : pc.Leaving) : pc.publishes = none := by
  cases pc <;> first | rfl | exact absurd leaving id

theorem next_quiet (silent : pc.publishes = none) (away : pc.writes = false)
    (next : pc.next g x m o now = some (y,pc')) :
    y.nodeRuns = x.nodeRuns ∧ y.updates = x.updates ∧ pc'.publishes = none := by
  obtain ⟨z,pcz,call,effect,goes⟩ := next_outcome next
  have quiet : z.nodeRuns = x.nodeRuns ∧ z.updates = x.updates ∧ pcz.publishes = none := by
    cases call with
    | markRunning | succeed | fail => simp [Pc.writes] at away
    | publishRunning | publishSuccess | publishFailure | exhausted => simp [Pc.publishes] at silent
    | getChildren | publishChild => exact ⟨rfl,rfl,publishing_publishes⟩
    | _ => exact ⟨rfl,rfl,rfl⟩
  obtain ⟨rows,updates,on⟩ := quiet
  have silent' : pc'.publishes = none := by
    rcases goes with ⟨_,rfl⟩ | leaving
    · exact on
    · exact leaving.publishes
  rcases effect with rfl | rfl | rfl
  · exact ⟨rfl,rfl,silent'⟩
  · exact ⟨rows,updates,silent'⟩
  · exact ⟨rfl,rfl,silent'⟩

/-- A write of a status: the goroutine publishes it next when the call reports it. -/
theorem next_writes (writes : pc.writes = true) (next : pc.next g x m o now = some (y,pc')) :
    (∀ n, n ≠ m.nodeID → y.nodeRuns n = x.nodeRuns n) ∧ y.updates = x.updates ∧
    (o = .ok → pc'.publishes ≠ none) ∧ (o = .fail → y = x) := by
  cases pc with
  | markRunning r =>
    cases o <;> cases next <;>
      exact ⟨fun n other => by simp [Outcome.applied,Infra.markWorkflowNodeAsRunning,Infra.setNodeRun,other],
        rfl,by simp [Outcome.reported,Pc.publishes],by simp [Outcome.applied]⟩
  | updateStatus r err =>
    cases o <;> cases next <;>
      exact ⟨fun n other => by simp [Outcome.applied,Infra.updateWorkflowNodeRunStatus,Infra.setNodeRun,other],
        rfl,by simp [Outcome.reported,Pc.publishes],by simp [Outcome.applied]⟩
  | _ => simp [Pc.writes] at writes

theorem next_publishes (publishes : pc.publishes = some status) (next : pc.next g x m o now = some (y,pc')) :
    y.nodeRuns = x.nodeRuns ∧ pc'.publishes = none ∧
    y.updates = if o.applied then x.updates ++ [(m.nodeID,status)] else x.updates := by
  cases pc with
  | publishRunning r =>
    cases publishes
    cases o <;> cases next <;> exact ⟨rfl,rfl,rfl⟩
  | publishStatus r err =>
    cases publishes
    have goes : pc'.publishes = none := by
      simp only [Pc.next,call,ite_self,Option.some.injEq,Prod.mk.injEq] at next
      obtain ⟨_,rfl⟩ := next
      split
      next => split <;> rfl
      next => rfl
    cases o <;> cases next <;> exact ⟨rfl,goes,rfl⟩
  | _ => simp [Pc.publishes] at publishes

theorem others_updating (others : s.OthersUpdating i n) : (setHandler s i h x pc).Updating n := by
  obtain ⟨k,member,updates⟩ := others
  obtain ⟨j,different,get⟩ := List.mem_eraseIdx_iff_getElem?.mp member
  refine ⟨k,List.mem_of_getElem? (i := j) ?_,updates⟩
  rw [setHandler,List.getElem?_set_ne (Ne.symm different)]
  exact get

/-- Nobody has updated a node that nobody updates after a goroutine has moved that was not
doing so either. -/
theorem idle_before (here : s.handlers[i]? = some h) (still : ¬(setHandler s i h x pc).Updating n)
    (own : h.msg.nodeID = n → h.pc.publishes = none) : ¬s.Updating n := by
  intro updating
  rcases Pool.exists_set here updating {h with pc := pc} with ⟨same,publishes⟩ | found
  · exact publishes (own same)
  · exact still found

/-- A call, from the point of view of a node that nobody updates after it. -/
theorem settled_call (here : s.handlers[i]? = some h) (next : h.pc.next g s.infra h.msg o now = some (x,pc))
    (reported : h.pc.writes = true → o = .lost → s.OthersUpdating i h.msg.nodeID)
    (still : ¬(setHandler s i h x pc).Updating n) :
    Untouched s (setHandler s i h x pc) n ∨
    h.msg.nodeID = n ∧ Presented s i o h (setHandler s i h x pc) := by
  cases publishes : h.pc.publishes with
  | some status =>
    obtain ⟨rows,_,updates⟩ := next_publishes publishes next
    by_cases own : h.msg.nodeID = n
    · subst own
      exact .inr ⟨rfl,here,fun others => still (others_updating others),rows,status,publishes,updates⟩
    · refine .inl ⟨idle_before here still fun same => absurd same own,congrFun rows n,?_⟩
      rw [setHandler,updates]
      split
      next => exact .inr ⟨_,rfl,fun same => absurd same own⟩
      next => exact .inl rfl
  | none =>
    left
    have idle := idle_before here still fun _ => publishes
    cases writes : h.pc.writes with
    | false =>
      obtain ⟨rows,updates,_⟩ := next_quiet publishes writes next
      exact ⟨idle,congrFun rows n,.inl updates⟩
    | true =>
      obtain ⟨rows,updates,reports,fails⟩ := next_writes writes next
      by_cases own : h.msg.nodeID = n
      · subst own
        cases o with
        | ok => exact absurd ⟨_,Pool.mem_set_self here,rfl,reports rfl⟩ still
        | lost => exact absurd (others_updating (reported writes rfl)) still
        | fail =>
          obtain rfl := fails rfl
          exact ⟨idle,rfl,.inl rfl⟩
      · exact ⟨idle,rows n (Ne.symm own),.inl updates⟩

theorem settled_orchestrate {q : OrchestratorPc} (rooted : Rooted g s)
    (next : s.orchestrator.next g s.infra o = some (x,q)) (idle : ¬s.Updating n) :
    Untouched s {s with infra := x, orchestrator := q} n := by
  obtain ⟨z,qz,orchestration,effect,_⟩ := orchestrate_outcome next
  refine ⟨idle,congrFun (orchestrate_same next).nodeRuns n,?_⟩
  rcases effect with rfl | rfl
  · exact .inl rfl
  · have known := rooted.orchestrator
    generalize s.orchestrator = before at orchestration known
    cases orchestration with
    | publishStatus =>
      refine .inr ⟨_,rfl,?_⟩
      rintro rfl
      exact (rooted.succeeded _ known.1).symm
    | _ => exact .inl rfl

theorem settled_step (rooted : Rooted g s) (step : (system g).step label s = some t)
    (reported : Reported s label) (still : ¬t.Updating n) :
    Untouched s t n ∨
    ∃ i o now h, label = .handle i o now ∧ h.msg.nodeID = n ∧ Presented s i o h t := by
  cases step_cases step with
  | orchestrate next => exact .inl (settled_orchestrate rooted next still)
  | @handle i o now h x pc here next =>
    rcases settled_call here next (reported h here) still with untouched | ⟨same,presented⟩
    · exact .inl untouched
    · exact .inr ⟨i,o,now,h,rfl,same,presented⟩
  | @finish i r err h here inside =>
    left
    exact ⟨idle_before here still fun _ => by rw [inside]; rfl,rfl,.inl rfl⟩
  | @deliver m queued =>
    left
    refine ⟨?_,rfl,.inl rfl⟩
    rintro ⟨h,member,updates⟩
    exact still ⟨h,List.mem_append_left _ member,updates⟩
  | @crash i h here alive =>
    left
    refine ⟨idle_before here still fun same => ?_,rfl,.inl rfl⟩
    by_contra publishes
    exact still (same ▸ others_updating (reported h here publishes))
  | mature | expireSet | expireLock | redeliver | crashOrchestrator => exact .inl ⟨still,rfl,.inl rfl⟩

theorem Call.updates (call : Call g x m now pc y pc') : x.updates <+: y.updates := by
  cases call with
  | publishRunning | publishSuccess | publishFailure | exhausted => exact List.prefix_append _ _
  | _ => exact List.prefix_rfl

theorem Orchestration.updates {q q' : OrchestratorPc} (orchestration : Orchestration g x q y q') :
    x.updates <+: y.updates := by
  cases orchestration with
  | publishStatus => exact List.prefix_append _ _
  | _ => exact List.prefix_rfl

theorem step_updates (step : (system g).step label s = some t) : s.infra.updates <+: t.infra.updates := by
  cases step_cases step with
  | orchestrate next =>
    obtain ⟨z,qz,orchestration,rfl | rfl,_⟩ := orchestrate_outcome next
    · exact List.prefix_rfl
    · exact orchestration.updates
  | handle here next =>
    obtain ⟨z,pcz,call,rfl | rfl | rfl,_⟩ := next_outcome next
    · exact List.prefix_rfl
    · exact call.updates
    · exact List.prefix_rfl
  | _ => exact List.prefix_rfl

end Updates

end TinyAutomator.Run
