import TinyAutomator.Run.DeadLetters
import TinyAutomator.Run.Orphans
import TinyAutomator.Run.Quiescent

/-! OrchestrateWorkflow as a whole. The run and its rows are committed first; an error
after that is returned, and the run stays as it is. -/
namespace TinyAutomator.Run

open Transition

/-- Where OrchestrateWorkflow stands; before the commit there is no run. -/
inductive Launch where
  | getWorkflowGraph
  | beginTx
  | createWorkflowRun
  | createWorkflowNodeRun (node : NodeID) (rest : List NodeID)
  | commit
  | refused
  | created (s : State)

def creating : List NodeID → Launch
  | [] => .commit
  | node :: rest => .createWorkflowNodeRun node rest

/-- One call before the run exists. A commit whose answer is lost has created the run,
and OrchestrateWorkflow returns its error. -/
def Launch.next (g : WorkflowGraph) (o : Outcome) : Launch → Option Launch
  | .getWorkflowGraph => some (if o.reported then .beginTx else .refused)
  | .beginTx => some (if o.reported then .createWorkflowRun else .refused)
  | .createWorkflowRun => some (if o.reported then creating (ids g) else .refused)
  | .createWorkflowNodeRun _ rest => some (if o.reported then creating rest else .refused)
  | .commit =>
    if o.applied then some (.created
      ⟨Run.createWorkflowRun g,[],if o.reported then .initSet else .failed⟩)
    else some .refused
  | .refused => none
  | .created _ => none

def launchStep (g : WorkflowGraph) : Label → Launch → Option Launch
  | label, .created s => (step g label s).map .created
  | .orchestrate o, l => l.next g o
  | _, _ => none

def launch (g : WorkflowGraph) : System Launch Label := ⟨.getWorkflowGraph,launchStep g⟩

/-- The run, once it exists. -/
def Launch.state : Launch → Option State
  | .created s => some s
  | _ => none

/-- OrchestrateWorkflow returned an error, nothing of the run that it created is queued,
delayed or being handled, and the run is 'running'. -/
def Launch.Abandoned : Launch → Prop
  | .created s => s.orchestrator = .failed ∧ s.infra.queue = [] ∧ s.infra.delayed = [] ∧
      (∀ h ∈ s.handlers, h.pc = .done) ∧ s.infra.run.status = .running
  | _ => False

/-- Every call of OrchestrateWorkflow may fail, no call of a goroutine does. -/
def WorkersRun : Label → Prop
  | .orchestrate _ => True
  | label => label.FaultFree

/-- A message of the node is at the broker, or a goroutine is going to run or publish it. -/
def State.Attended (g : WorkflowGraph) (s : State) (n : NodeID) : Prop :=
  s.infra.Announced n ∨ ∃ h ∈ s.handlers, h.pc.Minds g h.msg.nodeID n

/-- OrchestrateWorkflow fails only when the run is bound to end. -/
def FailsBound (g : WorkflowGraph) (s : State) : Label → Prop
  | .orchestrate o => ∀ t ∈ step g (.orchestrate o) s, t.orchestrator = .failed → s.Bound
  | _ => True

/-- OrchestrateWorkflow writes the running-node set, and it fails only when it leaves every
node run that is ready in other hands. -/
def FailsAttended (g : WorkflowGraph) (s : State) : Label → Prop
  | .orchestrate o => (s.orchestrator = .initSet → o.applied = true) ∧
      ∀ t ∈ step g (.orchestrate o) s, t.orchestrator = .failed →
        ∀ n ∈ ids g, t.infra.Ready g n → t.Attended g n
  | _ => True

def failsBound (g : WorkflowGraph) : Guard State Label := fun s label =>
  WorkersRun label ∧ FailsBound g s label

/-- Apart from that the run is orderly. -/
def failsAttended (g : WorkflowGraph) : Guard State Label := fun s label =>
  WorkersRun label ∧ (Exclusive s label ∧ KeepsSet g s label) ∧ FailsAttended g s label

def afterCommit (ok : Guard State Label) : Guard Launch Label
  | .created s, label => ok s label
  | _, _ => True

/-- The commit fails without having created the run. -/
def KnowsCommit : Launch → Label → Prop
  | .commit, .orchestrate o => o ≠ .lost
  | _, _ => True

def launched (ok : Guard State Label) : Guard Launch Label := fun l label =>
  afterCommit ok l label ∧ KnowsCommit l label

instance : DecidablePred Launch.Abandoned
  | .created s => inferInstanceAs (Decidable (s.orchestrator = .failed ∧ s.infra.queue = [] ∧
      s.infra.delayed = [] ∧ (∀ h ∈ s.handlers, h.pc = .done) ∧ s.infra.run.status = .running))
  | .getWorkflowGraph | .beginTx | .createWorkflowRun | .createWorkflowNodeRun .. | .commit
  | .refused => isFalse id

instance : DecidablePred WorkersRun
  | .orchestrate _ => isTrue trivial
  | .handle i o now => inferInstanceAs (Decidable (Label.FaultFree (.handle i o now)))
  | .finish .. | .deliver _ | .mature _ | .expireSet | .expireLock => isTrue trivial
  | .redeliver _ | .crash _ | .crashOrchestrator => isFalse id

instance (g : WorkflowGraph) (own n : NodeID) : DecidablePred (Pc.Minds g own n)
  | .getParents | .getNodeRun | .getNode _ | .markRunning _ => inferInstanceAs (Decidable (own = n))
  | .publishStatus _ none | .getChildren => inferInstanceAs (Decidable (own ∈ parents g n))
  | .publishChildren rest => inferInstanceAs (Decidable (own ∈ parents g n ∧ n ∈ rest))
  | .publishStatus _ (some _) | .publishRunning _ | .startAction _ | .inAction _ | .updateStatus _ _
  | .completeFailed | .markComplete | .getPending | .acquireLock _ | .addPending _ | .getNodeRuns
  | .completeRun _ | .failed | .ack | .nack | .done => isFalse id

instance (g : WorkflowGraph) (s : State) : DecidablePred (s.Attended g) := fun n => inferInstanceAs
  (Decidable ((∃ m ∈ s.infra.queue ++ s.infra.delayed, m.nodeID = n) ∨
    ∃ h ∈ s.handlers, h.pc.Minds g h.msg.nodeID n))

instance (g : WorkflowGraph) : ∀ s label, Decidable (FailsBound g s label)
  | s, .orchestrate o => inferInstanceAs (Decidable
      (∀ t ∈ step g (.orchestrate o) s, t.orchestrator = .failed → s.Bound))
  | _, .handle .. | _, .finish .. | _, .deliver _ | _, .mature _ | _, .expireSet | _, .expireLock
  | _, .redeliver _ | _, .crash _ | _, .crashOrchestrator => isTrue trivial

instance (g : WorkflowGraph) : ∀ s label, Decidable (FailsAttended g s label)
  | s, .orchestrate o => inferInstanceAs (Decidable ((s.orchestrator = .initSet → o.applied = true) ∧
      ∀ t ∈ step g (.orchestrate o) s, t.orchestrator = .failed →
        ∀ n ∈ ids g, t.infra.Ready g n → t.Attended g n))
  | _, .handle .. | _, .finish .. | _, .deliver _ | _, .mature _ | _, .expireSet | _, .expireLock
  | _, .redeliver _ | _, .crash _ | _, .crashOrchestrator => isTrue trivial

instance (g : WorkflowGraph) : ∀ s label, Decidable (failsBound g s label) := fun s label =>
  inferInstanceAs (Decidable (WorkersRun label ∧ FailsBound g s label))

instance (g : WorkflowGraph) : ∀ s label, Decidable (failsAttended g s label) := fun s label =>
  inferInstanceAs (Decidable
    (WorkersRun label ∧ (Exclusive s label ∧ KeepsSet g s label) ∧ FailsAttended g s label))

instance (ok : Guard State Label) [∀ s label, Decidable (ok s label)] :
    ∀ l label, Decidable (afterCommit ok l label)
  | .created s, label => inferInstanceAs (Decidable (ok s label))
  | .getWorkflowGraph, _ | .beginTx, _ | .createWorkflowRun, _ | .createWorkflowNodeRun .., _
  | .commit, _ | .refused, _ => isTrue trivial

instance : ∀ l label, Decidable (KnowsCommit l label)
  | .commit, .orchestrate o => inferInstanceAs (Decidable (o ≠ .lost))
  | .commit, .handle .. | .commit, .finish .. | .commit, .deliver _ | .commit, .mature _
  | .commit, .expireSet | .commit, .expireLock | .commit, .redeliver _ | .commit, .crash _
  | .commit, .crashOrchestrator | .getWorkflowGraph, _ | .beginTx, _ | .createWorkflowRun, _
  | .createWorkflowNodeRun .., _ | .refused, _ | .created _, _ => isTrue trivial

instance (ok : Guard State Label) [∀ s label, Decidable (ok s label)] :
    ∀ l label, Decidable (launched ok l label) := fun l label =>
  inferInstanceAs (Decidable (afterCommit ok l label ∧ KnowsCommit l label))

variable {g : WorkflowGraph} {s t : State} {x y z : Infra} {m : Message} {now : Int} {o : Outcome}
  {pc pc' : Pc} {i : Nat} {h : Handler} {n : NodeID} {label : Label} {l l' : Launch}
  {ok : Guard State Label} {q q' : OrchestratorPc}

section Bound

/-- A goroutine on its way to end the run gets on, or has ended it. -/
theorem Call.ends (call : Call g x m now pc y pc') (ends : pc.ends = true)
    (decided : pc ≠ .completeRun .running) : y.run.status ≠ .running ∨ pc'.ends = true := by
  cases call with
  | fail => exact .inr ends
  | publishFailure left => simp [Pc.ends,left] at ends
  | exhausted | getNodeRuns => exact .inr rfl
  | completeFailed => exact .inl (by simp [Infra.completeWorkflowRun])
  | @completeRun status =>
    left
    intro running
    exact decided (congrArg Pc.completeRun running)
  | _ => simp [Pc.ends] at ends

/-- The invariant of the runs in which OrchestrateWorkflow fails only when the run is bound to end. -/
structure Concluded (s : State) : Prop where
  decided : ∀ h ∈ s.handlers, h.pc ≠ .completeRun .running
  bound : s.orchestrator = .failed → s.Bound

theorem Concluded.step (concluded : Concluded s) (allowed : failsBound g s label)
    (step : (system g).step label s = some t) : Concluded t := by
  obtain ⟨run,fails⟩ := allowed
  cases step_cases step with
  | @orchestrate o x q next =>
    refine ⟨concluded.decided,fun failed => ?_⟩
    have bound := fails _ step failed
    rw [State.Bound,(orchestrate_same next).run]
    exact bound
  | @handle i o now h x pc here next =>
    cases run
    have decided := concluded.decided h (List.mem_of_getElem? here)
    constructor
    · apply Pool.forall_set concluded.decided
      intro decides
      obtain ⟨_,_,_,status⟩ := next_completeRun next decides
      exact finalStatus_ended status.symm
    · exact fun failed => ending_call (concluded.bound failed) here decided next
        fun ends => (call_cases next).ends ends decided
  | @finish i r err h here inside =>
    refine ⟨Pool.forall_set concluded.decided (by simp),fun failed => ?_⟩
    refine (concluded.bound failed).imp id fun found => ?_
    rcases Pool.exists_set here found {h with pc := .updateStatus r err} with own | other
    · simp [inside,Pc.ends] at own
    · exact other
  | deliver queued =>
    refine ⟨Pool.forall_append concluded.decided (by simp),fun failed => ?_⟩
    refine (concluded.bound failed).imp id ?_
    rintro ⟨h,member,ends⟩
    exact ⟨h,List.mem_append_left _ member,ends⟩
  | mature | expireSet | expireLock => exact ⟨concluded.decided,concluded.bound⟩
  | redeliver | crash | crashOrchestrator => exact absurd run id

theorem reach_concluded (reach : Reach (system g) (failsBound g) s) : Concluded s := by
  refine Reach.invariant Concluded ?_ ?_ reach
  · constructor <;> simp [system]
  · exact fun _ _ _ _ concluded allowed step => concluded.step allowed step

theorem Concluded.notAbandoned (concluded : Concluded s) : ¬(Launch.created s).Abandoned := by
  rintro ⟨failed,_,_,done,running⟩
  rcases concluded.bound failed with ended | ⟨h,member,ends⟩
  · exact ended running
  · simp [done h member,Pc.ends] at ends

end Bound

section Created

theorem creating_notCreated {rest : List NodeID} : creating rest ≠ .created s := by
  cases rest <;> simp [creating]

theorem Launch.next_created (next : l.next g o = some (.created s)) : l = .commit ∧ o.applied = true ∧
    s = ⟨Run.createWorkflowRun g,[],if o.reported then .initSet else .failed⟩ := by
  cases l with
  | commit =>
    simp only [Launch.next] at next
    split at next
    next applied =>
      cases next
      exact ⟨rfl,applied,rfl⟩
    next => cases next
  | getWorkflowGraph | beginTx =>
    simp only [Launch.next] at next
    split at next <;> cases next
  | createWorkflowRun | createWorkflowNodeRun =>
    simp only [Launch.next] at next
    split at next
    next => exact absurd (Option.some.inj next) creating_notCreated
    next => cases next
  | refused | created => cases next

theorem launch_before (before : ∀ s, l ≠ .created s) :
    (launch g).step (.orchestrate o) l = l.next g o := by
  cases l with
  | created s => exact absurd rfl (before s)
  | _ => rfl

theorem launch_cases (step : (launch g).step label l = some (.created t)) :
    (∃ s, l = .created s ∧ (system g).step label s = some t) ∨
    ∃ o, label = .orchestrate o ∧ l = .commit ∧ o.applied = true ∧
      t = ⟨Run.createWorkflowRun g,[],if o.reported then .initSet else .failed⟩ := by
  by_cases before : ∀ s, l ≠ .created s
  · cases label with
    | orchestrate o =>
      rw [launch_before before] at step
      obtain ⟨at_,applied,same⟩ := Launch.next_created step
      exact .inr ⟨o,rfl,at_,applied,same⟩
    | _ =>
      cases l with
      | created s => exact absurd rfl (before s)
      | _ => cases step
  · push Not at before
    obtain ⟨s,rfl⟩ := before
    obtain ⟨u,moved,same⟩ := Option.map_eq_some_iff.mp step
    cases same
    exact .inl ⟨s,rfl,moved⟩

/-- When the commit is known, the run comes about as the run system says. -/
theorem launched_reach (reach : Reach (launch g) (launched ok) l) :
    ∀ s, l = .created s → Reach (system g) ok s := by
  refine Reach.invariant (fun l => ∀ s, l = .created s → Reach (system g) ok s) ?_ ?_ reach
  · intro s same
    contradiction
  · rintro l label l' _ created ⟨allowed,known⟩ step t rfl
    rcases launch_cases step with ⟨s,rfl,moved⟩ | ⟨o,rfl,rfl,applied,rfl⟩
    · exact (created s rfl).tail allowed moved
    · cases o with
      | ok => exact .refl
      | fail => contradiction
      | lost => exact absurd rfl known

theorem failsBound_notAbandoned (reach : Reach (launch g) (launched (failsBound g)) l) : ¬l.Abandoned := by
  cases l with
  | created s => exact (reach_concluded (launched_reach reach s rfl)).notAbandoned
  | _ => exact id

end Created

section Attended

/-- The same but for the status updates: nothing reads them. -/
def Infra.Alike (x y : Infra) : Prop := ∃ updates, y = {x with updates := updates}

theorem next_alike (alike : x.Alike y) (next : pc.next g x m .ok now = some (z,pc')) :
    ∃ w, z.Alike w ∧ pc.next g y m .ok now = some (w,pc') := by
  obtain ⟨updates,rfl⟩ := alike
  cases pc with
  | inAction r | done => cases next
  | publishChildren rest => cases rest <;> (cases next; exact ⟨_,⟨_,rfl⟩,rfl⟩)
  | markComplete =>
    simp only [Pc.next] at next ⊢
    split at next
    next missing => cases next; exact ⟨_,⟨_,rfl⟩,if_pos missing⟩
    next present => cases next; exact ⟨_,⟨_,rfl⟩,if_neg present⟩
  | acquireLock pending =>
    simp only [Pc.next] at next ⊢
    split at next
    next held => cases next; exact ⟨_,⟨_,rfl⟩,if_pos held⟩
    next free => cases next; exact ⟨_,⟨_,rfl⟩,if_neg free⟩
  | failed =>
    simp only [Pc.next] at next ⊢
    split at next
    next retried => cases next; exact ⟨_,⟨_,rfl⟩,if_pos retried⟩
    next left => cases next; exact ⟨_,⟨_,rfl⟩,if_neg left⟩
  | _ => cases next; exact ⟨_,⟨_,rfl⟩,rfl⟩

theorem orchestrate_alike (alike : x.Alike y) (next : q.next g x .ok = some (z,q')) :
    ∃ w, z.Alike w ∧ q.next g y .ok = some (w,q') := by
  obtain ⟨updates,rfl⟩ := alike
  cases q with
  | enqueueRoot root rest =>
    simp only [OrchestratorPc.next] at next ⊢
    split at next
    next is => cases next; exact ⟨_,⟨_,rfl⟩,if_pos is⟩
    next is =>
      rw [if_neg is]
      split at next
      next pending => cases next; exact ⟨_,⟨_,rfl⟩,if_pos pending⟩
      next begun => cases next; exact ⟨_,⟨_,rfl⟩,if_neg begun⟩
  | publishChildren root children rest => cases children <;> (cases next; exact ⟨_,⟨_,rfl⟩,rfl⟩)
  | returned | failed => cases next
  | _ => cases next; exact ⟨_,⟨_,rfl⟩,rfl⟩

/-- A call of OrchestrateWorkflow goes on as if it had gone well, or it fails with its effect
or without. -/
theorem orchestrate_goes (next : q.next g x o = some (y,q')) (writes : q = .initSet → o.applied = true) :
    ∃ z qz, q.next g x .ok = some (z,qz) ∧ (q' = qz ∧ y.Alike z ∨ q' = .failed ∧ (y = x ∨ y = z)) := by
  cases o with
  | ok => exact ⟨y,q',next,.inl ⟨rfl,⟨_,rfl⟩⟩⟩
  | fail | lost =>
    cases q with
    | initSet =>
      simp only [OrchestratorPc.next,OrchestratorPc.call,writes rfl,if_true,ite_self] at next
      cases next
      exact ⟨_,_,rfl,.inl ⟨rfl,⟨_,rfl⟩⟩⟩
    | enqueueRoot root rest =>
      simp only [OrchestratorPc.next] at next ⊢
      split at next
      next is =>
        rw [if_pos is]
        cases next
        exact ⟨_,_,rfl,.inr ⟨rfl,.inl rfl⟩⟩
      next is =>
        rw [if_neg is]
        split at next
        next pending =>
          rw [if_pos pending]
          cases next
          exact ⟨_,_,rfl,.inr ⟨rfl,.inl rfl⟩⟩
        next begun =>
          rw [if_neg begun]
          cases next
          exact ⟨_,_,rfl,.inr ⟨rfl,.inl rfl⟩⟩
    | publishChildren root children rest =>
      cases children with
      | nil => cases next; exact ⟨_,_,rfl,.inl ⟨rfl,⟨_,rfl⟩⟩⟩
      | cons c children => cases next; exact ⟨_,_,rfl,.inr ⟨rfl,by simp [Outcome.applied]⟩⟩
    | publishStatus root rest => cases next; exact ⟨_,_,rfl,.inl ⟨rfl,⟨_,rfl⟩⟩⟩
    | publishRoot root rest => cases next; exact ⟨_,_,rfl,.inr ⟨rfl,by simp [Outcome.applied]⟩⟩
    | returned | failed => cases next

/-- The same run with other status updates, OrchestrateWorkflow at another point. -/
def State.mirror (s : State) (updates : List (NodeID × NodeStatus)) (q : OrchestratorPc) : State :=
  ⟨{s.infra with updates := updates},s.handlers,q⟩

theorem mirror_step (fine : label.FaultFree) (others : ∀ o, label ≠ .orchestrate o)
    (step : (system g).step label s = some t) (updates : List (NodeID × NodeStatus)) (q : OrchestratorPc) :
    ∃ later, (system g).step label (s.mirror updates q) = some (t.mirror later q) := by
  cases step_cases step with
  | orchestrate next => exact absurd rfl (others _)
  | handle here next =>
    cases fine
    obtain ⟨_,⟨later,rfl⟩,follows⟩ := next_alike ⟨updates,rfl⟩ next
    exact ⟨later,handle_step here follows⟩
  | finish here inside =>
    refine ⟨updates,?_⟩
    simp only [system,Run.step,State.mirror,here,inside,setHandler,Infra.record]
  | deliver queued =>
    refine ⟨updates,?_⟩
    simp only [system,Run.step,State.mirror,queued,if_true]
  | mature waiting =>
    refine ⟨updates,?_⟩
    simp only [system,Run.step,State.mirror,waiting,if_true]
  | expireSet | expireLock => exact ⟨updates,rfl⟩
  | redeliver | crash | crashOrchestrator => exact absurd fine id

theorem WorkersRun.faultFree (run : WorkersRun label) (others : ∀ o, label ≠ .orchestrate o) :
    label.FaultFree := by
  cases label with
  | orchestrate o => exact absurd rfl (others o)
  | _ => exact run

theorem step_elsewhere (fine : label.FaultFree) (others : ∀ o, label ≠ .orchestrate o)
    (step : (system g).step label s = some t) : t.orchestrator = s.orchestrator := by
  cases step_cases step with
  | orchestrate => exact absurd rfl (others _)
  | crashOrchestrator => exact absurd fine id
  | _ => rfl

theorem mirror_orderly {updates : List (NodeID × NodeStatus)} (fine : label.FaultFree)
    (exclusive : Exclusive s label) (keeps : KeepsSet g s label) : orderly g (s.mirror updates q) label := by
  refine ⟨⟨fine,?_⟩,?_⟩
  · cases label <;> exact exclusive
  · cases label <;> exact keeps

/-- The invariant of the runs in which OrchestrateWorkflow leaves every ready node run in
other hands: an orderly run mirrors it, and once OrchestrateWorkflow has failed no node that
is ready needs it. -/
structure Mirrored (g : WorkflowGraph) (s : State) : Prop where
  mirror : ∃ updates q, Reach (system g) (orderly g) (s.mirror updates q) ∧
    (s.orchestrator ≠ .failed → q = s.orchestrator)
  wakeful : s.orchestrator = .failed → Wakeful g s

theorem Mirrored.orchestrate (mirrored : Mirrored g s) (sources : SourceTriggers g)
    (next : s.orchestrator.next g s.infra o = some (x,q)) (writes : s.orchestrator = .initSet → o.applied = true)
    (attended : q = .failed → ∀ n ∈ ids g, x.Ready g n → State.Attended g {s with infra := x, orchestrator := q} n) :
    Mirrored g {s with infra := x, orchestrator := q} := by
  obtain ⟨updates,p,reach,same⟩ := mirrored.mirror
  have going : s.orchestrator ≠ .failed := by
    intro failed
    rw [failed] at next
    cases next
  cases same going
  have rows := (orchestrate_same next).nodeRuns
  constructor
  · obtain ⟨z,qz,well,goes⟩ := orchestrate_goes next writes
    obtain ⟨_,⟨later,rfl⟩,follows⟩ := orchestrate_alike ⟨updates,rfl⟩ well
    have moved : Reach (system g) (orderly g) ⟨{z with updates := later},s.handlers,qz⟩ := by
      refine reach.tail ⟨⟨rfl,trivial⟩,trivial⟩ ?_ (a := .orchestrate .ok)
      simp only [system,Run.step,State.mirror,follows]
    rcases goes with ⟨rfl,_,rfl⟩ | ⟨failed,rfl | rfl⟩
    · exact ⟨later,_,moved,fun _ => rfl⟩
    · exact ⟨updates,_,reach,fun still => absurd failed still⟩
    · exact ⟨later,_,moved,fun still => absurd failed still⟩
  · intro failed
    have wakeful := reach_wakeful sources (reach.mono fun _ _ ok => ok.1.1)
    constructor
    · intro n pending
      apply wakeful.handled n
      rw [rows] at pending
      exact pending
    · intro n listed ready
      rcases attended failed n listed ready with announced | found
      · exact .inl announced
      · exact .inr (.inl found)

theorem Mirrored.step (mirrored : Mirrored g s) (sources : SourceTriggers g) (fresh : s.infra.Fresh)
    (allowed : failsAttended g s label) (step : (system g).step label s = some t) : Mirrored g t := by
  obtain ⟨run,⟨exclusive,keeps⟩,fails⟩ := allowed
  by_cases others : ∀ o, label ≠ .orchestrate o
  · have fine := run.faultFree others
    have stays := step_elsewhere fine others step
    obtain ⟨updates,q,reach,same⟩ := mirrored.mirror
    obtain ⟨later,follows⟩ := mirror_step fine others step updates q
    constructor
    · refine ⟨later,q,reach.tail (mirror_orderly fine exclusive keeps) follows,?_⟩
      rw [stays]
      exact same
    · intro failed
      exact (mirrored.wakeful (stays ▸ failed)).step fresh fine step
  · push Not at others
    obtain ⟨o,rfl⟩ := others
    cases step_cases step with
    | orchestrate next => exact mirrored.orchestrate sources next fails.1 (fails.2 _ step)

theorem reach_mirrored (sources : SourceTriggers g) (reach : Reach (system g) (failsAttended g) s) :
    Mirrored g s := by
  refine Reach.invariant (Mirrored g) ?_ ?_ reach
  · refine ⟨⟨[],.initSet,.refl,fun _ => rfl⟩,?_⟩
    intro failed
    contradiction
  · intro s label t reach mirrored allowed step
    exact mirrored.step sources (reach_fresh (reach.mono fun _ _ _ => trivial)) allowed step

/-- With nothing left to do the run is over, as if OrchestrateWorkflow had returned. -/
theorem Mirrored.notAbandoned (g : AcceptedGraph) (completable : Completable g.graph)
    (mirrored : Mirrored g.graph s) : ¬(Launch.created s).Abandoned := by
  rintro ⟨failed,queue,delayed,done,running⟩
  obtain ⟨updates,q,reach,_⟩ := mirrored.mirror
  have exclusive := reach.mono fun _ _ ok => ok.1
  have context := reach_context g completable.sources exclusive
  have fresh := reach_fresh (reach.mono fun _ _ _ => trivial)
  obtain ⟨accounted,tracked⟩ := reach_accounted g completable reach
  have wakeful := mirrored.wakeful failed
  have quiescent : Quiescent (s.mirror updates .returned) := ⟨rfl,queue,delayed,done⟩
  have terminal : (s.mirror updates .returned).Terminal g.graph := by
    refine quiescent.terminal g fresh ?_ ?_ ?_ ?_
    · exact ⟨⟨context.paced.alone,context.paced.agrees,context.paced.headers,context.paced.bounded,
        context.paced.running⟩,⟨context.tasked.messages,context.tasked.handlers,trivial⟩,
        ⟨context.sequenced.triggers,context.sequenced.parents,context.sequenced.entered⟩⟩
    · refine ⟨wakeful.handled,fun n listed ready => ?_⟩
      rcases wakeful.awake n listed ready with announced | found | minds
      · exact .inl announced
      · exact .inr (.inl found)
      · rw [failed] at minds
        exact absurd minds id
    · exact ⟨accounted.retried,accounted.failing,accounted.deciding,accounted.verdict⟩
    · exact fun none => (tracked none).finalizing
  have ended : s.infra.run.status = .success ∨ s.infra.run.status = .failed := terminal.ended
  simp [running] at ended

theorem failsAttended_notAbandoned (g : AcceptedGraph) (completable : Completable g.graph)
    (reach : Reach (launch g.graph) (launched (failsAttended g.graph)) l) : ¬l.Abandoned := by
  cases l with
  | created s =>
    have mirrored := reach_mirrored completable.sources (launched_reach reach s rfl)
    exact mirrored.notAbandoned g completable
  | _ => exact id

end Attended

section Owed

/-- Whatever happens after the commit, triggers at the root have no tasks. -/
theorem launched_rooted {ok : Guard Launch Label} (reach : Reach (launch g) ok l) :
    ∀ s, l = .created s → Rooted g s := by
  refine Reach.invariant (fun l => ∀ s, l = .created s → Rooted g s) ?_ ?_ reach
  · intro s same
    contradiction
  · rintro l label l' _ rooted _ step t rfl
    rcases launch_cases step with ⟨s,rfl,moved⟩ | ⟨o,rfl,rfl,applied,rfl⟩
    · exact (rooted s rfl).step moved
    · have before : Rooted g (system g).init := rooted_init
      refine ⟨before.messages,before.handlers,?_,before.succeeded⟩
      cases o <;> trivial

theorem launched_unpublished {ok : Guard Launch Label} (reach : Reach (launch g) ok l)
    (above : ∀ p ∈ parents g n, TriggerRoot g p) :
    ∀ s, l = .created s → (∀ m ∈ s.infra.published, m.nodeID ≠ n) → Unpublished n s := by
  refine Reach.invariant (fun l => ∀ s, l = .created s → (∀ m ∈ s.infra.published, m.nodeID ≠ n) →
    Unpublished n s) ?_ ?_ reach
  · intro s same
    contradiction
  · rintro l label l' reach unpublished _ step t rfl silent
    rcases launch_cases step with ⟨s,rfl,moved⟩ | ⟨o,rfl,rfl,applied,rfl⟩
    · have before := unpublished s rfl fun m known => silent m (step_published moved known)
      exact before.step (launched_rooted reach s rfl) above moved silent
    · constructor
      · simp [createWorkflowRun,Infra.messages]
      · simp

/-- A pending node below triggers at the root only that has not been published. -/
def State.Owes (g : WorkflowGraph) (s : State) (n : NodeID) : Prop :=
  n ∈ s.infra.pendingNodes g ∧ (∀ p ∈ parents g n, TriggerRoot g p) ∧
    ∀ m ∈ s.infra.published, m.nodeID ≠ n

theorem State.Owes.orphaned {ok : Guard Launch Label} (reach : Reach (launch g) ok (.created s))
    (failed : s.orchestrator = .failed) (unbound : ¬s.Bound) (owes : s.Owes g n) : Orphaned g n s := by
  obtain ⟨pending,above,silent⟩ := owes
  have rooted := launched_rooted reach s rfl
  have unpublished := launched_unpublished reach above s rfl silent
  have apart : ∀ k, k ≠ n → ¬TriggerRoot g k → Apart g n k := fun k other task =>
    ⟨other,fun parent => task (above k parent)⟩
  rw [State.Bound] at unbound
  push Not at unbound
  obtain ⟨running,nobody⟩ := unbound
  constructor
  · exact failed
  · exact running
  · intro h member
    simpa using nobody h member
  · exact pending
  · exact fun m member => apart _ (unpublished.messages m member) (rooted.messages m member)
  · intro h member
    obtain ⟨other,rest⟩ := unpublished.handlers h member
    obtain ⟨task,tasks⟩ := rooted.handlers h member
    refine ⟨apart _ other task,fun c publishes => apart _ ?_ (tasks c publishes)⟩
    rintro rfl
    exact rest publishes

/-- A node that is still owed when OrchestrateWorkflow has failed can leave the run running. -/
theorem owes_abandoned (g : AcceptedGraph) {ok : Guard Launch Label}
    (reach : Reach (launch g.graph) ok (.created s)) (failed : s.orchestrator = .failed)
    (unbound : ¬s.Bound) (owes : s.Owes g.graph n) :
    ∃ t, Path (system g.graph) faultFree s t ∧ (Launch.created t).Abandoned := by
  have orphaned := owes.orphaned reach failed unbound
  obtain ⟨t,path,emptied,orphaned⟩ := orphaned.empties g fun p parent => (owes.2.1 p parent).2
  exact ⟨t,path,orphaned.failed,emptied.queue,emptied.delayed,emptied.handlers,orphaned.running⟩

end Owed

/-- A run whose OrchestrateWorkflow has returned an error is not left running when it was
bound to end at that time, or when every node run that was ready was in other hands and the
run is orderly. When a node was still to be published, and the run not bound to end, it can be
left running without another fault. -/
theorem failures_agree (g : AcceptedGraph) :
    (∀ l, Reach (launch g.graph) (launched (failsBound g.graph)) l → ¬l.Abandoned) ∧
    (Completable g.graph →
      ∀ l, Reach (launch g.graph) (launched (failsAttended g.graph)) l → ¬l.Abandoned) ∧
    ∀ s n, Reach (launch g.graph) (afterCommit fun _ label => WorkersRun label) (.created s) →
      s.orchestrator = .failed → ¬s.Bound → s.Owes g.graph n →
      ∃ t, Path (system g.graph) faultFree s t ∧ (Launch.created t).Abandoned := by
  refine ⟨fun _ reach => failsBound_notAbandoned reach,?_,?_⟩
  · exact fun completable _ reach => failsAttended_notAbandoned g completable reach
  · exact fun s n reach failed unbound owes => owes_abandoned g reach failed unbound owes

/-- The answer to the only publish is lost, and the run succeeds; another run has failed by the
time that its second root cannot be enqueued. -/
theorem launch_survives :
    (∃ l : Launch, l.state.any (·.infra.run = ⟨.success,some 9⟩) = true ∧ ¬l.Abandoned) ∧
    ∃ l : Launch, l.state.any (·.infra.run = ⟨.failed,some 3⟩) = true ∧ ¬l.Abandoned := by
  constructor
  · obtain ⟨l,reach,_,run⟩ : ∃ l, Reach (launch chain.graph) (launched (failsAttended chain.graph)) l ∧
        l.state.any (·.orchestrator = .failed) = true ∧
        l.state.any (·.infra.run = ⟨.success,some 9⟩) = true :=
      follow_exists (List.flatten [List.replicate 9 (.orchestrate .ok),[.orchestrate .lost],
        .deliver ⟨2,0⟩ :: List.replicate 6 (.handle 0 .ok 1),
        .finish 0 none :: List.replicate 6 (.handle 0 .ok 2),
        .deliver ⟨3,0⟩ :: List.replicate 6 (.handle 1 .ok 3),
        .finish 1 none :: List.replicate 7 (.handle 1 .ok 9)]) (by decide +kernel)
    exact ⟨l,run,(failures_agree chain).2.1 (by decide) l reach⟩
  · obtain ⟨l,reach,_,run⟩ : ∃ l, Reach (launch apart.graph) (launched (failsBound apart.graph)) l ∧
        l.state.any (·.orchestrator = .failed) = true ∧
        l.state.any (·.infra.run = ⟨.failed,some 3⟩) = true :=
      follow_exists (List.flatten [List.replicate 9 (.orchestrate .ok),
        .deliver ⟨1,0⟩ :: List.replicate 6 (.handle 0 .ok 1),
        .finish 0 (some "timeout") :: List.replicate 4 (.handle 0 .ok 1),
        .mature ⟨1,1⟩ :: .deliver ⟨1,1⟩ :: List.replicate 6 (.handle 1 .ok 2),
        .finish 1 (some "timeout") :: List.replicate 4 (.handle 1 .ok 2),
        .mature ⟨1,2⟩ :: .deliver ⟨1,2⟩ :: List.replicate 6 (.handle 2 .ok 3),
        .finish 2 (some "timeout") :: List.replicate 3 (.handle 2 .ok 3),
        [.orchestrate .fail]]) (by decide +kernel)
    exact ⟨l,run,(failures_agree apart).1 l reach⟩

/-- The first publish fails after the commit. -/
theorem chain_abandoned : ¬∀ (g : AcceptedGraph) (l : Launch),
    Reach (launch g.graph) (launched fun _ label => WorkersRun label) l → ¬l.Abandoned := by
  intro claim
  obtain ⟨l,reach,abandoned⟩ : ∃ l,
      Reach (launch chain.graph) (launched fun _ label => WorkersRun label) l ∧ l.Abandoned :=
    follow_exists (List.flatten [List.replicate 9 (.orchestrate .ok),[.orchestrate .fail]])
      (by decide +kernel)
  exact claim chain l reach abandoned

end TinyAutomator.Run
