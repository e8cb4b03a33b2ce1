import TinyAutomator.Run.Attempts

/-! The retry count of a node run. It is written, one higher than it was read, before the
action handler is called; so it counts the calls while nobody else writes in between. -/
namespace TinyAutomator.Run

open Transition

/-- After the write of the count and before the call of the action handler. -/
def Pc.Charged : Pc → Prop
  | .publishRunning _ | .startAction _ => True
  | _ => False

instance : DecidablePred Pc.Charged
  | .publishRunning _ | .startAction _ => isTrue trivial
  | .getParents | .getNodeRun | .getNode _ | .markRunning _ | .inAction _ | .updateStatus _ _
  | .publishStatus _ _ | .completeFailed | .getChildren | .publishChildren _ | .markComplete
  | .getPending | .acquireLock _ | .addPending _ | .getNodeRuns | .completeRun _ | .failed
  | .ack | .nack | .done => isFalse id

def Charged (n : NodeID) (h : Handler) : Prop := h.msg.nodeID = n ∧ h.pc.Charged

instance (n : NodeID) : DecidablePred (Charged n) := fun h =>
  inferInstanceAs (Decidable (h.msg.nodeID = n ∧ h.pc.Charged))

/-- The goroutines of a node that have written its count and will call its handler. -/
def charged (s : State) (n : NodeID) : Nat := s.handlers.countP (Charged n ·)

/-- The count is that of the calls of the handler, made or about to be made. -/
def Counts (s : State) : Prop :=
  ∀ n, (s.infra.nodeRuns n).retryCount = starts s.infra.history n + charged s n

/-- What a goroutine may write as a retry count. -/
def Pc.Within : Pc → Prop
  | .getNode r => r < 3
  | .markRunning r => r ≤ 3
  | _ => True

structure Limited (s : State) : Prop where
  bounded : ∀ n, (s.infra.nodeRuns n).retryCount ≤ 3
  within : ∀ h ∈ s.handlers, h.pc.Within

variable {g : WorkflowGraph} {s t : State} {x y : Infra} {m : Message} {now : Int} {pc pc' : Pc}
  {i : Nat} {h : Handler} {n : NodeID} {label : Label}

section Bound

theorem Pc.Leaving.within (leaving : pc.Leaving) : pc.Within := by
  cases pc <;> trivial

theorem publishing_within (rest : List NodeID) : (publishing rest).Within := by
  cases rest <;> trivial

theorem Call.within (call : Call g x m now pc y pc') (bounded : (x.nodeRuns m.nodeID).retryCount ≤ 3)
    (within : pc.Within) : pc'.Within := by
  cases call with
  | attempt left =>
    simp only [Pc.Within]
    omega
  | getNode =>
    simp only [Pc.Within] at within ⊢
    omega
  | getChildren => exact publishing_within _
  | publishChild => exact publishing_within _
  | _ => trivial

theorem Call.limited (call : Call g x m now pc y pc') (bounded : ∀ n, (x.nodeRuns n).retryCount ≤ 3)
    (within : pc.Within) (n : NodeID) : (y.nodeRuns n).retryCount ≤ 3 := by
  have before := bounded n
  by_cases own : n = m.nodeID
  · subst own
    cases call with
    | markRunning =>
      simp only [Infra.markWorkflowNodeAsRunning,Infra.setNodeRun_self]
      exact within
    | succeed | fail =>
      simp only [Infra.updateWorkflowNodeRunStatus,Infra.setNodeRun_self]
      exact before
    | _ => exact before
  · rcases call.rows with same | ⟨row,wrote,_⟩
    · rw [same]
      exact before
    · rw [wrote,x.setNodeRun_other own]
      exact before

theorem Limited.set (limited : Limited s) (bounded : ∀ n, (x.nodeRuns n).retryCount ≤ 3)
    (within : pc.Within) : Limited (setHandler s i h x pc) :=
  ⟨bounded,Pool.forall_set limited.within within⟩

theorem Limited.step (limited : Limited s) (step : (system g).step label s = some t) : Limited t := by
  cases step_moves step with
  | @call i o now h x pc here next =>
    have within := limited.within h (List.mem_of_getElem? here)
    obtain ⟨z,pcz,call,effect⟩ := next_cases next
    have reached : ∀ n, (z.nodeRuns n).retryCount ≤ 3 := call.limited limited.bounded within
    rcases effect with ⟨same,rfl⟩ | ⟨leaving,same | same⟩
    · exact limited.set (same.nodeRuns ▸ reached) (call.within (limited.bounded _) within)
    · exact limited.set (same.nodeRuns ▸ limited.bounded) leaving.within
    · exact limited.set (same.nodeRuns ▸ reached) leaving.within
  | finish here inside => exact limited.set limited.bounded trivial
  | quiet same handlers =>
    refine ⟨same.nodeRuns ▸ limited.bounded,fun h member => ?_⟩
    rcases handlers h member with old | start | ended
    · exact limited.within h old
    · rw [start]
      trivial
    · rw [ended]
      trivial

theorem reach_limited (reach : Reach (system g) anything s) : Limited s := by
  refine reach.invariant Limited ?_ ?_
  · constructor <;> simp [system,createWorkflowRun]
  · intro s label t _ limited _ step
    exact limited.step step

end Bound

section Count

/-- The share of one goroutine in the count of a node. -/
def share (n : NodeID) (h : Handler) : Nat := if Charged n h then 1 else 0

theorem share_other (other : h.msg.nodeID ≠ n) : share n h = 0 := if_neg fun holds => other holds.1

theorem share_away (away : ¬h.pc.Charged) : share n h = 0 := if_neg fun holds => away holds.2

theorem publishing_share (rest : List NodeID) : share n ⟨m,publishing rest⟩ = 0 := by
  cases rest <;> exact share_away id

/-- The write of the count puts its goroutine ahead, the call of the handler takes it back. -/
theorem Act.counts (act : Act g x m now pc y pc') (agrees : pc.Agrees (x.nodeRuns m.nodeID) m.retryCount)
    (n : NodeID) : (y.nodeRuns n).retryCount + starts x.history n + share n ⟨m,pc⟩ =
      (x.nodeRuns n).retryCount + starts y.history n + share n ⟨m,pc'⟩ := by
  cases act with
  | finish =>
    rw [share_away (h := ⟨m,_⟩) id,share_away (h := ⟨m,_⟩) id]
    show _ + starts x.history n + 0 = _ + starts (x.history ++ _) n + 0
    rw [starts_finished]
    rfl
  | call call =>
    cases call with
    | @markRunning r =>
      obtain ⟨_,count,_⟩ := agrees
      by_cases own : m.nodeID = n
      · subst own
        simp only [Infra.markWorkflowNodeAsRunning,Infra.setNodeRun_self,share,Charged,Pc.Charged,true_and,if_true,
          if_false]
        show r + starts x.history m.nodeID + 0 = _ + starts x.history m.nodeID + 1
        omega
      · rw [share_other own,share_other own,Infra.markWorkflowNodeAsRunning,x.setNodeRun_other (Ne.symm own)]
        rfl
    | startAction =>
      by_cases own : m.nodeID = n
      · subst own
        simp only [Infra.record,starts_started,share,Charged,Pc.Charged,true_and,if_true,if_false]
        omega
      · rw [share_other own,share_other own]
        simp [Infra.record,starts_started,own]
    | publishRunning => rfl
    | succeed | fail =>
      rw [share_away (h := ⟨m,_⟩) id,share_away (h := ⟨m,_⟩) id]
      by_cases own : n = m.nodeID
      · subst own
        simp only [Infra.updateWorkflowNodeRunStatus,Infra.setNodeRun_self]
        rfl
      · rw [Infra.updateWorkflowNodeRunStatus,x.setNodeRun_other own]
        rfl
    | getChildren => rw [publishing_share,share_away (h := ⟨m,_⟩) id]
    | publishChild =>
      rw [publishing_share,share_away (h := ⟨m,_⟩) id]
      rfl
    | _ => rfl

theorem Counts.act (counts : Counts s) (here : s.handlers[i]? = some h) (act : Act g s.infra h.msg now h.pc x pc)
    (agrees : h.pc.Agrees (s.infra.nodeRuns h.msg.nodeID) h.msg.retryCount) :
    Counts (setHandler s i h x pc) := by
  intro n
  have before := counts n
  have moved := act.counts agrees n
  have shares : (s.handlers.set i {h with pc := pc}).countP (Charged n ·) + share n h =
      s.handlers.countP (Charged n ·) + share n {h with pc := pc} := by
    simpa [share] using @Pool.countP_set _ _ _ h (fun h => decide (Charged n h)) here {h with pc := pc}
  have same : share n ⟨h.msg,h.pc⟩ = share n h := rfl
  simp only [charged,setHandler] at before ⊢
  omega

theorem Counts.outside (counts : Counts s) (outside : Outside s t)
    (kept : ∀ n, charged t n = charged s n) : Counts t := by
  intro n
  rw [kept,outside.same.nodeRuns,outside.same.history]
  exact counts n

theorem Counts.step (counts : Counts s) (paced : Paced s) (fine : label.FaultFree)
    (step : (system g).step label s = some t) : Counts t := by
  have agrees : ∀ {i} {h : Handler}, s.handlers[i]? = some h →
      h.pc.Agrees (s.infra.nodeRuns h.msg.nodeID) h.msg.retryCount := fun here =>
    paced.agrees _ (List.mem_of_getElem? here)
  cases faultless_cases fine step with
  | call here call => exact counts.act here (.call call) (agrees here)
  | @finish i r err h here inside =>
    have act : Act g s.infra h.msg 0 h.pc (s.infra.record (.finished h.msg.nodeID err.isNone))
        (.updateStatus r err) := by
      rw [inside]
      exact .finish
    exact counts.act here act (agrees here)
  | orchestrate orchestration => exact counts.outside (orchestrate_outside orchestration) fun _ => rfl
  | @deliver m queued =>
    apply counts.outside (deliver_outside queued)
    intro n
    have idle : ¬Charged n ⟨m,.getParents⟩ := fun holds => holds.2
    simp [charged,idle]
  | mature waiting => exact counts.outside (mature_outside waiting) fun _ => rfl
  | expireSet => exact counts.outside (expire_outside ∅ _) fun _ => rfl
  | expireLock => exact counts.outside (expire_outside _ false) fun _ => rfl

theorem reach_counts (reach : Reach (system g) exclusive s) : Counts s := by
  refine reach.invariant Counts ?_ ?_
  · intro n
    rfl
  · intro s label t reach counts allowed step
    exact counts.step (reach_paced reach) allowed.1 step

end Count

section Lawful

/-- What a step may do to a node run: count on, and leave 'success' alone. -/
structure Forward (s t : State) : Prop where
  count : ∀ n, (s.infra.nodeRuns n).retryCount ≤ (t.infra.nodeRuns n).retryCount
  success : ∀ n, (s.infra.nodeRuns n).status = .success → (t.infra.nodeRuns n).status = .success

theorem Pc.Charged.attempting (holds : pc.Charged) : pc.Attempting := by
  cases pc <;> trivial

theorem Forward.of_later (later : ∀ n, (s.infra.nodeRuns n).Later (t.infra.nodeRuns n)) : Forward s t :=
  ⟨fun n => (later n).count,fun n success => by rw [(later n).settled (.inl success)]; exact success⟩

theorem Paced.forward (paced : Paced s) (fine : label.FaultFree)
    (step : (system g).step label s = some t) : Forward s t := by
  cases faultless_turn (faultless_cases fine step) with
  | act here act _ => exact .of_later (act.later (paced.agrees _ (List.mem_of_getElem? here)))
  | outside outside =>
    apply Forward.of_later
    intro n
    rw [outside.same.nodeRuns]
    exact .refl _

/-- A retry count is never above 3, whatever fails and overlaps. While attempts at a node do
not overlap it is the number of calls of the action handler, one higher between its own
write and the call; it never decreases, and 'success' stays. -/
theorem retries_counted (g : AcceptedGraph) (reach : Reach (system g.graph) exclusive s) :
    (∀ t, Reach (system g.graph) anything t → ∀ n, (t.infra.nodeRuns n).retryCount ≤ 3) ∧
    (∀ n, (s.infra.nodeRuns n).retryCount = starts s.infra.history n + charged s n ∧ charged s n ≤ 1) ∧
    ∀ label t, exclusive s label → (system g.graph).step label s = some t → Forward s t := by
  have paced := reach_paced reach
  refine ⟨fun t reached => (reach_limited reached).bounded,fun n => ⟨reach_counts reach n,?_⟩,?_⟩
  · have single : Pool.Alone (Charged n) s.handlers := fun i j a b geti getj first second =>
      paced.alone n i j a b geti getj (first.imp_right Pc.Charged.attempting) (second.imp_right Pc.Charged.attempting)
    exact single.count
  · intro label t allowed step
    exact paced.forward allowed.1 step

theorem chain_counted : ∃ s, Reach (system chain.graph) exclusive s ∧
    (s.infra.nodeRuns 2).retryCount = 1 ∧ starts s.infra.history 2 = 1 ∧ charged s 2 = 0 := by
  obtain ⟨s,reach,called⟩ : ∃ s, Reach (system chain.graph) exclusive s ∧ starts s.infra.history 2 = 1 ∧
      (s.infra.nodeRuns 2).retryCount = 1 :=
    follow_exists (List.flatten [List.replicate 5 (.orchestrate .ok),[.deliver ⟨2,0⟩],
      List.replicate 6 (.handle 0 .ok 1)]) (by decide)
  have counted := ((retries_counted chain reach).2.1 2).1
  rw [called.1,called.2] at counted
  exact ⟨s,reach,called.2,called.1,by omega⟩

/-- Two goroutines of the joined action have read 'pending'. -/
def joinRead : List Label := List.flatten [joinPublished,
  [.handle 0 .ok 1,.handle 0 .ok 1,.handle 1 .ok 1,.handle 1 .ok 1]]

/-- Already for one goroutine the count is ahead of the calls; and when two overlap, a call
is lost from the count, the count goes back and 'success' is overwritten. -/
theorem retries_miscounted :
    (¬∀ (g : AcceptedGraph) s, Reach (system g.graph) exclusive s → ∀ n,
      (s.infra.nodeRuns n).retryCount = starts s.infra.history n) ∧
    (¬∀ (g : AcceptedGraph) s, Reach (system g.graph) faultFree s → ∀ n,
      starts s.infra.history n ≤ (s.infra.nodeRuns n).retryCount) ∧
    (¬∀ (g : AcceptedGraph) s, Reach (system g.graph) faultFree s → ∀ label t, label.FaultFree →
      (system g.graph).step label s = some t → ∀ n,
        (s.infra.nodeRuns n).retryCount ≤ (t.infra.nodeRuns n).retryCount) ∧
    (¬∀ (g : AcceptedGraph) s, Reach (system g.graph) faultFree s → ∀ label t, label.FaultFree →
      (system g.graph).step label s = some t → ∀ n,
        (s.infra.nodeRuns n).status = .success → (t.infra.nodeRuns n).status = .success) := by
  refine ⟨fun claim => ?_,fun claim => ?_,fun claim => ?_,fun claim => ?_⟩
  · obtain ⟨s,reach,count,calls⟩ : ∃ s, Reach (system chain.graph) exclusive s ∧
        (s.infra.nodeRuns 2).retryCount = 1 ∧ starts s.infra.history 2 = 0 :=
      follow_exists (List.flatten [List.replicate 5 (.orchestrate .ok),[.deliver ⟨2,0⟩],
        List.replicate 4 (.handle 0 .ok 1)]) (by decide)
    have same := claim chain s reach 2
    omega
  · obtain ⟨s,reach,count,calls⟩ : ∃ s, Reach (system join.graph) faultFree s ∧
        (s.infra.nodeRuns 3).retryCount = 1 ∧ starts s.infra.history 3 = 2 :=
      follow_exists (List.flatten [joinRead,List.replicate 4 (.handle 0 .ok 1),
        List.replicate 4 (.handle 1 .ok 1)]) (by decide)
    have counted := claim join s reach 3
    omega
  · obtain ⟨s,reach,back⟩ : ∃ s, Reach (system join.graph) faultFree s ∧
        ((system join.graph).step (.handle 1 .ok 3) s).any (fun t =>
          (t.infra.nodeRuns 3).retryCount < (s.infra.nodeRuns 3).retryCount) = true :=
      follow_exists (List.flatten [joinRead,List.replicate 4 (.handle 0 .ok 1),[.finish 0 (some "mail")],
        List.replicate 4 (.handle 0 .ok 1),[.mature ⟨3,1⟩,.deliver ⟨3,1⟩],List.replicate 4 (.handle 2 .ok 2),
        [.handle 1 .ok 3]]) (by decide)
    obtain ⟨t,moved,less⟩ := (Option.any_eq_true _ _).mp back
    have more := claim join s reach (.handle 1 .ok 3) t rfl moved 3
    exact absurd (of_decide_eq_true less) (Nat.not_lt_of_le more)
  · obtain ⟨s,reach,lost⟩ : ∃ s, Reach (system join.graph) faultFree s ∧
        ((system join.graph).step (.handle 1 .ok 3) s).any (fun t =>
          (s.infra.nodeRuns 3).status = .success ∧ (t.infra.nodeRuns 3).status ≠ .success) = true :=
      follow_exists (List.flatten [joinRead,List.replicate 4 (.handle 0 .ok 1),[.finish 0 none,.handle 0 .ok 2,
        .handle 1 .ok 3]]) (by decide)
    obtain ⟨t,moved,facts⟩ := (Option.any_eq_true _ _).mp lost
    obtain ⟨before,after⟩ := of_decide_eq_true facts
    exact after (claim join s reach (.handle 1 .ok 3) t rfl moved 3 before)

end Lawful

end TinyAutomator.Run
