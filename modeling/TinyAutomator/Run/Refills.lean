import TinyAutomator.Run.Attempts

/-! Stale members of the running-node set. When the set is missing, a goroutine reads the
pending rows and adds their nodes later, behind a lock; in between a node may be executed and
counted off by another goroutine. -/
namespace TinyAutomator.Run

open Transition

/-- Between the read of the pending rows, this node's among them, and the call that adds
them to the set. -/
def Pc.Refills (n : NodeID) : Pc → Prop
  | .acquireLock pending | .addPending pending => n ∈ pending
  | _ => False

/-- The call made next is one on Redis. -/
def Pc.redis : Pc → Bool
  | .publishRunning _ | .publishStatus _ _ | .markComplete | .acquireLock _ | .addPending _ => true
  | _ => false

def OrchestratorPc.redis : OrchestratorPc → Bool
  | .initSet | .publishStatus _ _ => true
  | _ => false

/-- Redis answers every call. The database and the broker may fail, goroutines may crash,
keys may expire. -/
def RedisAnswers (s : State) : Label → Prop
  | .orchestrate o => s.orchestrator.redis = true → o = .ok
  | .handle i o _ => ∀ h ∈ s.handlers[i]?, h.pc.redis = true → o = .ok
  | _ => True

/-- Without success, and without an attempt left or under way. -/
structure State.Spent (s : State) (n : NodeID) : Prop where
  unsuccessful : (s.infra.nodeRuns n).status ≠ .success
  count : (s.infra.nodeRuns n).retryCount = 3
  idle : ∀ h ∈ s.handlers, ¬Attempts n h

/-- A node that may have succeeded is counted off only when nobody is about to add it. -/
def RefillsApart (s : State) : Label → Prop
  | .handle i _ _ => ∀ h ∈ s.handlers[i]?, h.pc = .markComplete →
      ∀ k ∈ s.handlers, k.pc.Refills h.msg.nodeID → s.Spent h.msg.nodeID
  | _ => True

instance (n : NodeID) : DecidablePred (Pc.Refills n)
  | .acquireLock pending | .addPending pending => inferInstanceAs (Decidable (n ∈ pending))
  | .getParents | .getNodeRun | .getNode _ | .markRunning _ | .publishRunning _ | .startAction _
  | .inAction _ | .updateStatus _ _ | .publishStatus _ _ | .completeFailed | .getChildren
  | .publishChildren _ | .markComplete | .getPending | .getNodeRuns | .completeRun _ | .failed
  | .ack | .nack | .done => isFalse id

instance : ∀ s label, Decidable (RedisAnswers s label)
  | s, .orchestrate o => inferInstanceAs (Decidable (s.orchestrator.redis = true → o = .ok))
  | s, .handle i o _ => inferInstanceAs (Decidable (∀ h ∈ s.handlers[i]?, h.pc.redis = true → o = .ok))
  | _, .finish .. | _, .deliver _ | _, .mature _ | _, .expireSet | _, .expireLock | _, .redeliver _
  | _, .crash _ | _, .crashOrchestrator => isTrue trivial

instance (s : State) : DecidablePred s.Spent := fun n =>
  decidable_of_iff ((s.infra.nodeRuns n).status ≠ .success ∧ (s.infra.nodeRuns n).retryCount = 3 ∧
      ∀ h ∈ s.handlers, ¬Attempts n h)
    ⟨fun ⟨unsuccessful,count,idle⟩ => ⟨unsuccessful,count,idle⟩,
      fun spent => ⟨spent.unsuccessful,spent.count,spent.idle⟩⟩

instance : ∀ s label, Decidable (RefillsApart s label)
  | s, .handle i _ _ => inferInstanceAs (Decidable (∀ h ∈ s.handlers[i]?, h.pc = .markComplete →
      ∀ k ∈ s.handlers, k.pc.Refills h.msg.nodeID → s.Spent h.msg.nodeID))
  | _, .orchestrate _ | _, .finish .. | _, .deliver _ | _, .mature _ | _, .expireSet | _, .expireLock
  | _, .redeliver _ | _, .crash _ | _, .crashOrchestrator => isTrue trivial

/-- A run, and the nodes for which MarkNodeCompleteAndCountRemaining has been called. -/
structure Marking where
  state : State
  marked : List NodeID

/-- The node that a step counts off. -/
def marks (s : State) : Label → List NodeID
  | .handle i _ _ => (s.handlers[i]?.toList.filter (·.pc = .markComplete)).map (·.msg.nodeID)
  | _ => []

def marking (g : WorkflowGraph) : System Marking Label where
  init := ⟨(system g).init,[]⟩
  step label w := ((system g).step label w.state).map fun t => ⟨t,w.marked ++ marks w.state label⟩

def redisAnswers : Guard Marking Label := fun w => RedisAnswers w.state

def refillsApart : Guard Marking Label := fun w label =>
  RedisAnswers w.state label ∧ RefillsApart w.state label

instance : ∀ w label, Decidable (redisAnswers w label) :=
  fun w label => inferInstanceAs (Decidable (RedisAnswers w.state label))

instance : ∀ w label, Decidable (refillsApart w label) := fun w label =>
  inferInstanceAs (Decidable (RedisAnswers w.state label ∧ RefillsApart w.state label))

/-- A member of the set that has succeeded and has been counted off. -/
def Marking.Stale (w : Marking) (n : NodeID) : Prop :=
  n ∈ w.state.infra.runningSet ∧ (w.state.infra.nodeRuns n).status = .success ∧ n ∈ w.marked

instance (w : Marking) : DecidablePred w.Stale := fun n => inferInstanceAs
  (Decidable (n ∈ w.state.infra.runningSet ∧ (w.state.infra.nodeRuns n).status = .success ∧ n ∈ w.marked))

variable {g : WorkflowGraph} {s t : State} {x y : Infra} {m : Message} {now : Int} {o : Outcome}
  {pc pc' : Pc} {i : Nat} {h k : Handler} {n : NodeID} {label : Label} {v w : Marking}

section Rows

/-- Has seen its node run begun. -/
def Pc.Begun : Pc → Prop
  | .publishRunning _ | .startAction _ | .inAction _ | .updateStatus _ _ | .publishStatus _ _
  | .getChildren | .publishChildren _ | .markComplete => True
  | _ => False

theorem Pc.Leaving.notBegun (leaving : pc.Leaving) : ¬pc.Begun := by
  cases pc <;> simp_all [Pc.Leaving,Pc.Begun]

theorem Call.begins (call : Call g x m now pc y pc') (fresh : x.Fresh)
    (before : pc.Begun → (x.nodeRuns m.nodeID).status ≠ .pending) (begun : pc'.Begun) :
    (y.nodeRuns m.nodeID).status ≠ .pending := by
  intro pending
  have same := call.pending pending
  cases call with
  | skip settled =>
    rcases settled with three | success
    · rw [fresh _ pending] at three
      contradiction
    · rw [success] at pending
      contradiction
  | markRunning => simp [Infra.markWorkflowNodeAsRunning] at pending
  | publishRunning | startAction | succeed | fail | publishSuccess | publishFailure | exhausted
  | getChildren | publishedAll | publishChild =>
    rw [same] at pending
    exact before trivial pending
  | _ => exact absurd begun id

theorem reach_begun (reach : Reach (system g) anything s) :
    ∀ h ∈ s.handlers, h.pc.Begun → (s.infra.nodeRuns h.msg.nodeID).status ≠ .pending := by
  refine Reach.invariant (fun s => ∀ h ∈ s.handlers, h.pc.Begun →
    (s.infra.nodeRuns h.msg.nodeID).status ≠ .pending) (by simp [system]) ?_ reach
  intro s label t reach begun _ step
  have fresh := reach_fresh reach
  have kept : ∀ k ∈ s.handlers, k.pc.Begun → (t.infra.nodeRuns k.msg.nodeID).status ≠ .pending :=
    fun k member before pending => begun k member before (step_pending step pending ▸ pending)
  cases step_moves step with
  | @call i o now h x pc here next =>
    apply Pool.forall_set kept
    intro after
    obtain ⟨z,pcz,call,⟨same,rfl⟩ | ⟨leaving,_⟩⟩ := next_cases next
    · show (x.nodeRuns h.msg.nodeID).status ≠ .pending
      rw [same.nodeRuns]
      exact call.begins fresh (begun h (List.mem_of_getElem? here)) after
    · exact absurd after leaving.notBegun
  | @finish i r err h here inside =>
    apply Pool.forall_set kept
    intro _
    apply kept h (List.mem_of_getElem? here)
    rw [inside]
    trivial
  | quiet same handlers =>
    intro k member after
    rcases handlers k member with old | start | ended
    · exact kept k old after
    · rw [start] at after
      exact absurd after id
    · rw [ended] at after
      exact absurd after id

/-- With three attempts on record nobody begins another. -/
theorem Call.notAttempting (call : Call g x m now pc y pc') (away : ¬pc.Attempting)
    (count : (x.nodeRuns m.nodeID).retryCount = 3) : ¬pc'.Attempting := by
  cases call with
  | attempt left => exact absurd count left
  | getNode | markRunning | publishRunning | startAction => exact absurd trivial away
  | getChildren => cases x.pendingChildren g m.nodeID <;> exact id
  | @publishChild _ rest => cases rest <;> exact id
  | _ => exact id

theorem State.Spent.step (spent : s.Spent n) (step : (system g).step label s = some t) : t.Spent n := by
  obtain ⟨unsuccessful,count,idle⟩ := spent
  cases step_moves step with
  | @call i o now h x pc here next =>
    have away : h.msg.nodeID = n → ¬h.pc.Attempting :=
      fun own attempting => idle h (List.mem_of_getElem? here) ⟨own,attempting⟩
    obtain ⟨z,pcz,call,effect⟩ := next_cases next
    have rows : z.nodeRuns n = s.infra.nodeRuns n := by
      by_cases own : h.msg.nodeID = n
      · rw [(Act.call call).unwritten (away own)]
      · exact (Act.call call).elsewhere (Ne.symm own)
    have stays : x.nodeRuns n = s.infra.nodeRuns n := by
      rcases effect with ⟨same,_⟩ | ⟨_,same | same⟩
      · rw [same.nodeRuns,rows]
      · rw [same.nodeRuns]
      · rw [same.nodeRuns,rows]
    have moved : ¬Attempts n {h with pc := pc} := by
      rintro ⟨rfl,attempting⟩
      rcases effect with ⟨_,rfl⟩ | ⟨leaving,_⟩
      · exact call.notAttempting (away rfl) count attempting
      · cases pc <;> first | exact leaving | exact attempting
    exact ⟨stays ▸ unsuccessful,stays ▸ count,Pool.forall_set idle moved⟩
  | @finish i r err h here inside =>
    refine ⟨unsuccessful,count,Pool.forall_set idle ?_⟩
    rintro ⟨own,_⟩
    apply idle h (List.mem_of_getElem? here)
    exact ⟨own,inside ▸ trivial⟩
  | quiet same handlers =>
    refine ⟨same.nodeRuns ▸ unsuccessful,same.nodeRuns ▸ count,fun k member attempts => ?_⟩
    rcases handlers k member with old | start | ended
    · exact idle k old attempts
    · rw [Attempts,start] at attempts
      exact attempts.2
    · rw [Attempts,ended] at attempts
      exact attempts.2

end Rows

section Set

theorem Call.refills (call : Call g x m now pc y pc') (refills : pc'.Refills n) :
    pc.Refills n ∨ (x.nodeRuns n).status = .pending := by
  cases call with
  | somePending some => exact .inr (Infra.mem_pendingNodes.mp refills).2
  | lock free => exact .inl refills
  | getChildren => exact absurd refills (by cases x.pendingChildren g m.nodeID <;> exact id)
  | @publishChild _ rest => exact absurd refills (by cases rest <;> exact id)
  | _ => exact absurd refills id

/-- A goroutine is about to add a node because it has read its row as pending. -/
theorem step_refills (step : (system g).step label s = some t) (member : k ∈ t.handlers)
    (refills : k.pc.Refills n) :
    (∃ h ∈ s.handlers, h.pc.Refills n) ∨ (s.infra.nodeRuns n).status = .pending := by
  cases step_moves step with
  | @call i o now h x pc here next =>
    rcases Pool.mem_set_cases member with rfl | ⟨j,_,there⟩
    · obtain ⟨z,pcz,call,⟨_,rfl⟩ | ⟨leaving,_⟩⟩ := next_cases next
      · exact (call.refills refills).imp_left fun old => ⟨h,List.mem_of_getElem? here,old⟩
      · cases pc <;> first | exact absurd leaving id | exact absurd refills id
    · exact .inl ⟨k,List.mem_of_getElem? there,refills⟩
  | @finish i r err h here inside =>
    rcases Pool.mem_set_cases member with rfl | ⟨j,_,there⟩
    · exact absurd refills id
    · exact .inl ⟨k,List.mem_of_getElem? there,refills⟩
  | quiet same handlers =>
    rcases handlers k member with old | start | ended
    · exact .inl ⟨k,old,refills⟩
    · rw [start] at refills
      exact absurd refills id
    · rw [ended] at refills
      exact absurd refills id

theorem Call.adds (call : Call g x m now pc y pc') (member : n ∈ y.runningSet) :
    n ∈ x.runningSet ∨ pc.Refills n := by
  cases call with
  | addPending =>
    simp only [Infra.initializeRunningNodeSet,Finset.mem_union,List.mem_toFinset] at member
    exact member
  | markLast | markOne => exact .inl (Finset.mem_of_mem_erase member)
  | _ => exact .inl member

/-- A node gets into the set through such a goroutine, or at the very beginning. -/
theorem step_adds (step : (system g).step label s = some t) (member : n ∈ t.infra.runningSet) :
    n ∈ s.infra.runningSet ∨ (∃ h ∈ s.handlers, h.pc.Refills n) ∨ s.orchestrator = .initSet := by
  cases step_cases step with
  | orchestrate next =>
    by_cases initial : s.orchestrator = .initSet
    · exact .inr (.inr initial)
    · obtain ⟨z,pcz,orchestration,rfl | rfl,_⟩ := orchestrate_outcome next
      · exact .inl member
      · left
        have same := orchestration.set initial
        exact same ▸ member
  | @handle i o now h x pc here next =>
    obtain ⟨z,pcz,call,rfl | rfl | rfl,_⟩ := next_outcome next
    · exact .inl member
    · exact (call.adds member).imp_right fun refills => .inl ⟨h,List.mem_of_getElem? here,refills⟩
    · exact .inl member
  | expireSet => simp at member
  | _ => exact .inl member

/-- A node that has just been counted off is no member. -/
theorem marks_absent (answers : RedisAnswers s label) (step : (system g).step label s = some t)
    (counted : n ∈ marks s label) : n ∉ t.infra.runningSet := by
  cases step_cases step with
  | @handle i o now h x pc here next =>
    have own : h.pc = .markComplete ∧ h.msg.nodeID = n := by simpa [marks,here] using counted
    obtain ⟨at_,rfl⟩ := own
    have fine : o = .ok := answers h here (by rw [at_]; rfl)
    rw [at_,fine] at next
    show h.msg.nodeID ∉ x.runningSet
    cases call_cases next with
    | setMissing missing => simp [missing]
    | markLast | markOne => simp [Infra.markNodeComplete]
  | _ => simp [marks] at counted

end Set

theorem marking_step (step : (system g).step label w.state = some t) :
    (marking g).step label w = some ⟨t,w.marked ++ marks w.state label⟩ := by
  simp [marking,step]

theorem marking_cases (step : (marking g).step label w = some v) :
    (system g).step label w.state = some v.state ∧ v.marked = w.marked ++ marks w.state label := by
  obtain ⟨t,moved,rfl⟩ := Option.map_eq_some_iff.mp step
  exact ⟨moved,rfl⟩

theorem mem_marks (counted : n ∈ marks s label) :
    ∃ h ∈ s.handlers, h.msg.nodeID = n ∧ h.pc = .markComplete := by
  cases label with
  | handle i o now =>
    simp only [marks,List.mem_map,List.mem_filter,Option.mem_toList,decide_eq_true_eq] at counted
    obtain ⟨h,⟨here,marking⟩,same⟩ := counted
    exact ⟨h,List.mem_of_getElem? here,same,marking⟩
  | _ => simp [marks] at counted

theorem RefillsApart.spent (apart : RefillsApart s label) (counted : n ∈ marks s label)
    (member : k ∈ s.handlers) (refills : k.pc.Refills n) : s.Spent n := by
  cases label with
  | handle i o now =>
    simp only [marks,List.mem_map,List.mem_filter,Option.mem_toList,decide_eq_true_eq] at counted
    obtain ⟨h,⟨here,marking⟩,rfl⟩ := counted
    exact apart h here marking k member refills
  | _ => simp [marks] at counted

theorem step_initial (step : (system g).step label s = some t) (initial : t.orchestrator = .initSet) :
    s.orchestrator = .initSet := by
  cases step_cases step with
  | orchestrate next =>
    obtain ⟨z,qz,orchestration,_,rfl | failed⟩ := orchestrate_outcome next
    · exact absurd initial orchestration.started
    · rw [failed] at initial
      contradiction
  | crashOrchestrator => contradiction
  | _ => exact initial

/-- Without a message the run is as it was created. -/
structure State.Blank (s : State) : Prop where
  handlers : s.handlers = []
  queue : s.infra.queue = []
  delayed : s.infra.delayed = []
  running : s.infra.run.status = .running

theorem Orchestration.silent {q q' : OrchestratorPc} (orchestration : Orchestration g x q y q')
    (silent : y.published = []) : y.queue = x.queue ∧ y.delayed = x.delayed := by
  cases orchestration with
  | publishChild | publishRoot => simp [Infra.publish] at silent
  | _ => exact ⟨rfl,rfl⟩

theorem State.Blank.step (blank : s.Blank) (known : s.infra.published = [])
    (step : (system g).step label s = some t) (silent : t.infra.published = []) : t.Blank := by
  obtain ⟨handlers,queue,delayed,running⟩ := blank
  cases step_cases step with
  | orchestrate next =>
    have same := (orchestrate_same next).run
    obtain ⟨z,qz,orchestration,rfl | rfl,_⟩ := orchestrate_outcome next
    · exact ⟨handlers,queue,delayed,running⟩
    · obtain ⟨queued,waiting⟩ := orchestration.silent silent
      exact ⟨handlers,queued.trans queue,waiting.trans delayed,same ▸ running⟩
  | handle here | finish here | crash here => simp [handlers] at here
  | deliver queued => simp [queue] at queued
  | mature waiting => simp [delayed] at waiting
  | redeliver published => simp [known] at published
  | expireSet | expireLock | crashOrchestrator => exact ⟨handlers,queue,delayed,running⟩

theorem reach_blank (reach : Reach (system g) anything s) : s.infra.published = [] → s.Blank := by
  refine Reach.invariant (fun s => s.infra.published = [] → s.Blank) ?_ ?_ reach
  · exact fun _ => ⟨rfl,rfl,rfl,rfl⟩
  · intro s label t _ blank _ step silent
    have known : s.infra.published = [] := by
      apply List.eq_nil_iff_forall_not_mem.mpr
      intro m member
      have still := step_published step member
      simp [silent] at still
    exact (blank known).step known step silent

/-- Nothing is published before the set is written. -/
theorem reach_initial (reach : Reach (system g) anything s) :
    s.orchestrator = .initSet → s.infra.published = [] := by
  refine Reach.invariant (fun s => s.orchestrator = .initSet → s.infra.published = []) ?_ ?_ reach
  · exact fun _ => rfl
  · intro s label t reach silent _ step initial
    have known := silent (step_initial step initial)
    have handlers := (reach_blank reach known).handlers
    cases step_cases step with
    | orchestrate next =>
      obtain ⟨z,qz,orchestration,_,rfl | failed⟩ := orchestrate_outcome next
      · exact absurd initial orchestration.started
      · rw [failed] at initial
        contradiction
    | handle here | finish here | crash here => simp [handlers] at here
    | _ => exact known

/-- What holds of the nodes that have been counted off while nobody is about to add one. -/
structure Tidy (w : Marking) : Prop where
  initial : w.state.orchestrator = .initSet → w.marked = []
  begun : ∀ n ∈ w.marked, (w.state.infra.nodeRuns n).status ≠ .pending
  refilled : ∀ n ∈ w.marked, ∀ h ∈ w.state.handlers, h.pc.Refills n → w.state.Spent n
  members : ∀ n ∈ w.marked, n ∈ w.state.infra.runningSet → w.state.Spent n

theorem Tidy.step (tidy : Tidy w) (reach : Reach (system g) anything w.state)
    (allowed : refillsApart w label) (step : (marking g).step label w = some v) : Tidy v := by
  obtain ⟨answers,apart⟩ := allowed
  obtain ⟨step,marked⟩ := marking_cases step
  have begun : ∀ n ∈ v.marked, (w.state.infra.nodeRuns n).status ≠ .pending := by
    intro n member
    rw [marked] at member
    rcases List.mem_append.mp member with old | counted
    · exact tidy.begun n old
    · obtain ⟨h,there,rfl,at_⟩ := mem_marks counted
      exact reach_begun reach h there (by rw [at_]; trivial)
  constructor
  · intro initial
    have before := step_initial step initial
    rw [marked,tidy.initial before,List.nil_append,List.eq_nil_iff_forall_not_mem]
    intro n counted
    obtain ⟨h,there,_⟩ := mem_marks counted
    simp [(reach_blank reach (reach_initial reach before)).handlers] at there
  · exact fun n member pending => begun n member (step_pending step pending ▸ pending)
  · intro n member k there refills
    rcases step_refills step there refills with ⟨h,found,before⟩ | pending
    · rw [marked] at member
      rcases List.mem_append.mp member with old | counted
      · exact (tidy.refilled n old h found before).step step
      · exact (apart.spent counted found before).step step
    · exact absurd pending (begun n member)
  · intro n member present
    rw [marked] at member
    rcases List.mem_append.mp member with old | counted
    · rcases step_adds step present with before | ⟨h,found,refills⟩ | initial
      · exact (tidy.members n old before).step step
      · exact (tidy.refilled n old h found refills).step step
      · simp [tidy.initial initial] at old
    · exact absurd present (marks_absent answers step counted)

theorem marking_reach {ok : Guard Marking Label} (reach : Reach (marking g) ok w) :
    Reach (system g) anything w.state := by
  refine reach.image (·.state) rfl ?_
  intro w label v _ step
  exact ⟨label,trivial,(marking_cases step).1⟩

theorem reach_tidy (reach : Reach (marking g) refillsApart w) : Tidy w := by
  refine Reach.invariant Tidy ?_ ?_ reach
  · constructor <;> simp [marking]
  · exact fun w label v reach tidy allowed step => tidy.step (marking_reach reach) allowed step

/-- A later state whose set holds `n` and in which nothing has been forgotten. -/
def Marking.Refilled (w v : Marking) (n : NodeID) : Prop :=
  n ∈ v.state.infra.runningSet ∧ v.state.infra.nodeRuns = w.state.infra.nodeRuns ∧
    ∀ k ∈ w.marked, k ∈ v.marked

theorem adds_path (g : WorkflowGraph) {pending : List NodeID} (here : w.state.handlers[i]? = some h)
    (adding : h.pc = .addPending pending) (member : n ∈ pending) :
    ∃ v, Path (marking g) redisAnswers w v ∧ w.Refilled v n := by
  have next : h.pc.next g w.state.infra h.msg .ok 0 =
      some (w.state.infra.initializeRunningNodeSet pending,.ack) := by
    rw [adding]
    rfl
  have answers : redisAnswers w (.handle i .ok 0) := fun _ _ _ => rfl
  refine ⟨_,Path.single answers (marking_step (handle_step here next)),?_,rfl,?_⟩
  · simp [setHandler,Infra.initializeRunningNodeSet,member]
  · exact fun k marked => List.mem_append_left _ marked

/-- Once the lock has expired, a goroutine that has read a node as pending adds it. -/
theorem refills_path (g : WorkflowGraph) (here : w.state.handlers[i]? = some h)
    (refills : h.pc.Refills n) : ∃ v, Path (marking g) redisAnswers w v ∧ w.Refilled v n := by
  cases pc : h.pc with
  | addPending pending =>
    rw [pc] at refills
    exact adds_path g here pc refills
  | acquireLock pending =>
    rw [pc] at refills
    let free : State := {w.state with infra := {w.state.infra with finalizeLock := false}}
    have expires : (marking g).step .expireLock w = some ⟨free,w.marked ++ []⟩ := rfl
    have next : h.pc.next g free.infra h.msg .ok 0 =
        some (free.infra.acquireFinalizationLock,.addPending pending) := by
      rw [pc]
      rfl
    let held := setHandler free i h free.infra.acquireFinalizationLock (.addPending pending)
    have acquires : (marking g).step (.handle i .ok 0) ⟨free,w.marked ++ []⟩ =
        some ⟨held,w.marked ++ [] ++ marks free (.handle i .ok 0)⟩ := marking_step (handle_step here next)
    have there : held.handlers[i]? = some {h with pc := .addPending pending} := Pool.get_set_self here
    have permitted : redisAnswers ⟨free,w.marked ++ []⟩ (.handle i .ok 0) := fun _ _ _ => rfl
    obtain ⟨v,path,present,rows,marked⟩ := adds_path g (w := ⟨held,_⟩) there rfl refills
    refine ⟨v,((Path.single trivial expires).tail permitted acquires).trans path,present,rows,?_⟩
    intro k before
    exact marked k (List.mem_append_left _ (List.mem_append_left _ before))
  | _ => exact absurd refills (by rw [pc]; exact id)

theorem counting_step (here : s.handlers[i]? = some h) (counting : h.pc = .markComplete)
    (step : (system g).step (.handle i .ok now) s = some t) :
    t.infra.nodeRuns = s.infra.nodeRuns ∧ ∀ k ∈ s.handlers, k.pc ≠ .markComplete → k ∈ t.handlers := by
  cases step_cases step with
  | @handle _ _ _ _ x pc there next =>
    cases here.symm.trans there
    rw [counting] at next
    constructor
    · cases call_cases next <;> rfl
    · intro k member away
      exact Pool.mem_set_of_ne here member (fun same => away (same ▸ counting)) _

/-- No member of the running-node set is stale as long as no node that may have succeeded is
counted off while a goroutine is about to add it; and a node that has succeeded and is counted
off in spite of that may become a stale member. -/
theorem refills_agree (g : AcceptedGraph) :
    (∀ w, Reach (marking g.graph) refillsApart w → ∀ n, ¬w.Stale n) ∧
    ∀ w i now v h k, Reach (marking g.graph) redisAnswers w → w.state.handlers[i]? = some h →
      h.pc = .markComplete → k ∈ w.state.handlers → k.pc.Refills h.msg.nodeID →
      (w.state.infra.nodeRuns h.msg.nodeID).status = .success →
      (marking g.graph).step (.handle i .ok now) w = some v →
      ∃ u, Path (marking g.graph) redisAnswers v u ∧ u.Stale h.msg.nodeID := by
  constructor
  · rintro w reach n ⟨present,success,counted⟩
    exact ((reach_tidy reach).members n counted present).unsuccessful success
  · intro w i now v h k _ here counting member refills success step
    obtain ⟨step,marked⟩ := marking_cases step
    obtain ⟨rows,others⟩ := counting_step here counting step
    have still : k ∈ v.state.handlers := by
      apply others k member
      intro same
      rw [same] at refills
      exact refills
    have counted : h.msg.nodeID ∈ v.marked := by
      rw [marked]
      exact List.mem_append_right _ (by simp [marks,here,counting])
    obtain ⟨j,at_⟩ := List.mem_iff_getElem?.mp still
    obtain ⟨u,path,present,kept,older⟩ := refills_path g.graph at_ refills
    refine ⟨u,path,present,?_,older _ counted⟩
    rw [kept,rows]
    exact success

/-- The set expires when node 2 has succeeded; it is filled again before node 3 is counted off. -/
theorem chain_refilled : ∃ w : Marking, w.marked = [2,3] ∧ (w.state.infra.nodeRuns 3).status = .success ∧
    ∀ n, ¬w.Stale n := by
  obtain ⟨w,reach,marked,success⟩ : ∃ w, Reach (marking chain.graph) refillsApart w ∧
      w.marked = [2,3] ∧ (w.state.infra.nodeRuns 3).status = .success :=
    follow_exists (List.flatten [List.replicate 5 (.orchestrate .ok),
      .deliver ⟨2,0⟩ :: List.replicate 6 (.handle 0 .ok 1),
      .finish 0 none :: List.replicate 4 (.handle 0 .ok 2),
      .expireSet :: List.replicate 4 (.handle 0 .ok 3),
      .deliver ⟨3,0⟩ :: List.replicate 6 (.handle 1 .ok 4),
      .finish 1 none :: List.replicate 4 (.handle 1 .ok 5)]) (by decide +kernel)
  exact ⟨w,marked,success,(refills_agree chain).1 w reach⟩

/-- Node 3 is executed and counted off after it has been read as pending. -/
theorem chain_stale : ¬∀ (g : AcceptedGraph) (w : Marking), Reach (marking g.graph) redisAnswers w →
    ∀ n ∈ w.state.infra.runningSet, ¬((w.state.infra.nodeRuns n).status = .success ∧ n ∈ w.marked) := by
  intro claim
  obtain ⟨w,reach,present,success,marked⟩ : ∃ w, Reach (marking chain.graph) redisAnswers w ∧ w.Stale 3 :=
    follow_exists (List.flatten [List.replicate 5 (.orchestrate .ok),
      .deliver ⟨2,0⟩ :: List.replicate 6 (.handle 0 .ok 1),
      .finish 0 none :: List.replicate 4 (.handle 0 .ok 2),
      .expireSet :: List.replicate 2 (.handle 0 .ok 3),
      .deliver ⟨3,0⟩ :: List.replicate 6 (.handle 1 .ok 4),
      .finish 1 none :: List.replicate 4 (.handle 1 .ok 5),
      List.replicate 2 (.handle 0 .ok 6)]) (by decide +kernel)
  exact claim chain w reach 3 present ⟨success,marked⟩

end TinyAutomator.Run
