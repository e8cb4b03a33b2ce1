import TinyAutomator.Run.RedisKeys
import TinyAutomator.Run.Refills
import TinyAutomator.Run.Roots

/-! A run over Redis. The goroutines decide by the replies of Redis, whose keys they share with
all other runs; what they do is a run of Run.System, with its set and its lock. -/
namespace TinyAutomator.Run

open Transition
open RedisClient (RunID Store Operation Mirrors markNodeCompleteAndCountRemaining
  tryAcquireWorkflowRunFinalizationLock)

/-- A run whose running-node set and lock are in Redis: those of its Infra are not used. -/
structure Keyed where
  state : State
  db : Store

/-- A step of the run, or a command that Redis gets from elsewhere. -/
inductive Happening where
  | worker (label : Label)
  | redis (op : Operation)

/-- The commands on the keys of the run come from its own workers, except that a key times out,
and that the time to live of the set is set whenever its command arrives. -/
def Elsewhere (runID : RunID) : Operation → Prop
  | .timeOut _ | .expireRunningNodes _ | .claimEvent .. => True
  | .addRunningNodes other _ | .mark other _ | .lock other => other ≠ runID

instance (runID : RunID) : DecidablePred (Elsewhere runID)
  | .timeOut _ | .expireRunningNodes _ | .claimEvent .. => inferInstanceAs (Decidable True)
  | .addRunningNodes other _ | .mark other _ | .lock other => inferInstanceAs (Decidable (other ≠ runID))

/-- The SADD of InitializeRunningNodeSet, which is not sent without node ids. -/
def adding (runID : RunID) (nodeIDs : List NodeID) (db : Store) : Store :=
  if nodeIDs = [] then db else (Operation.addRunningNodes runID (nodeIDs.map Nat.toInt32)).after db

/-- Where a goroutine goes on after its mark, by the reply if it gets one. -/
def afterMark (o : Outcome) : Except String Int → Pc
  | .ok remaining => if o.reported then (if remaining = 0 then .getNodeRuns else .ack) else .getPending
  | .error _ => .getPending

/-- The calls on the two keys, and where the goroutine goes on by the reply. -/
def Pc.overRedis (runID : RunID) (db : Store) (m : Message) (o : Outcome) : Pc → Option (Store × Pc)
  | .markComplete =>
    let reply := Redis.exec (markNodeCompleteAndCountRemaining runID m.nodeID.toInt32) db
    some (if o.applied then reply.2 else db,afterMark o reply.1)
  | .acquireLock pending =>
    let reply := Redis.exec (tryAcquireWorkflowRunFinalizationLock runID) db
    some (if o.applied then reply.2 else db,
      if o.reported = true ∧ reply.1.toOption = some true then .addPending pending else .ack)
  | .addPending pending => some (if o.applied then adding runID pending db else db,.ack)
  | _ => none

def keyedStep (g : WorkflowGraph) (runID : RunID) : Happening → Keyed → Option Keyed
  | .redis op, k => if Elsewhere runID op then some {k with db := op.after k.db} else none
  | .worker (.handle i o now), k =>
    match k.state.handlers[i]? with
    | some h =>
      match h.pc.overRedis runID k.db h.msg o with
      | some (db,pc) => some ⟨setHandler k.state i h k.state.infra pc,db⟩
      | none => (step g (.handle i o now) k.state).map (⟨·,k.db⟩)
    | none => none
  | .worker (.orchestrate o), k =>
    if k.state.orchestrator = .initSet then
      some ⟨{k.state with orchestrator := nextRoot ((getRootNodes g).map (·.id))},
        if o.applied then adding runID (nonRoots g) k.db else k.db⟩
    else (step g (.orchestrate o) k.state).map (⟨·,k.db⟩)
  | .worker .expireSet, _ | .worker .expireLock, _ => none
  | .worker label, k => (step g label k.state).map (⟨·,k.db⟩)

/-- From the commit of CreateWorkflowRun on, with what is in Redis then. -/
def keyed (g : WorkflowGraph) (runID : RunID) (db : Store) : System Keyed Happening where
  init := ⟨(system g).init,db⟩
  step := keyedStep g runID

/-- The workers take only labels that are allowed; Redis gets any commands. -/
def workers (fine : Label → Prop) : Guard Keyed Happening := fun _ happening =>
  match happening with
  | .worker label => fine label
  | .redis _ => True

def OrchestratorPc.Known (g : WorkflowGraph) : OrchestratorPc → Prop
  | .enqueueRoot root rest | .publishRoot root rest => ∀ n ∈ root :: rest, n ∈ ids g
  | .publishChildren _ children rest => (∀ c ∈ children, c ∈ ids g) ∧ ∀ n ∈ rest, n ∈ ids g
  | .publishStatus _ rest => ∀ n ∈ rest, n ∈ ids g
  | .initSet | .returned | .failed => True

/-- Messages, goroutines and the running-node set are about nodes of the graph. -/
structure Known (g : WorkflowGraph) (s : State) : Prop where
  messages : ∀ m ∈ s.infra.messages, m.nodeID ∈ ids g
  handlers : ∀ h ∈ s.handlers, h.msg.nodeID ∈ ids g ∧ (∀ c ∈ h.pc.rest, c ∈ ids g) ∧
    ∀ n, h.pc.Refills n → n ∈ ids g
  set : ∀ n ∈ s.infra.runningSet, n ∈ ids g
  orchestrator : s.orchestrator.Known g

/-- The same run, with a set and a lock of its own. -/
def Infra.keyed (x : Infra) (set : Finset NodeID) (lock : Bool) : Infra :=
  {x with runningSet := set, finalizeLock := lock}

/-- The run as Run.System has it: its set and its lock are what is in Redis. -/
structure Backs (runID : RunID) (k : Keyed) (s : State) : Prop where
  handlers : s.handlers = k.state.handlers
  orchestrator : s.orchestrator = k.state.orchestrator
  infra : s.infra = k.state.infra.keyed s.infra.runningSet s.infra.finalizeLock
  mirrors : Mirrors k.db runID s.infra

variable {g : WorkflowGraph} {s t : State} {x y : Infra} {m : Message} {now : Int} {o : Outcome}
  {pc pc' : Pc} {i : Nat} {h : Handler} {n : NodeID} {label : Label} {q q' : OrchestratorPc}
  {runID : RunID} {db db' : Store} {k : Keyed} {set : Finset NodeID} {lock : Bool} {p : NodeID → Prop}

/-- The other calls do not see the set and the lock. -/
theorem next_keyed (g : WorkflowGraph) (x : Infra) (now : Int) (set : Finset NodeID) (lock : Bool)
    (plain : pc.overRedis runID db m o = none) :
    pc.next g (x.keyed set lock) m o now =
      (pc.next g x m o now).map fun r => (r.1.keyed set lock,r.2) := by
  cases pc with
  | markComplete | acquireLock | addPending => simp [Pc.overRedis] at plain
  | publishChildren rest => cases rest <;> cases o <;> rfl
  | failed =>
    simp only [Pc.next]
    split <;> cases o <;> rfl
  | _ => cases o <;> rfl

theorem orchestrate_keyed (g : WorkflowGraph) (x : Infra) (o : Outcome) (set : Finset NodeID) (lock : Bool)
    (started : q ≠ .initSet) :
    q.next g (x.keyed set lock) o = (q.next g x o).map fun r => (r.1.keyed set lock,r.2) := by
  cases q with
  | initSet => exact absurd rfl started
  | enqueueRoot root rest =>
    have row : (x.keyed set lock).nodeRuns = x.nodeRuns := rfl
    simp only [OrchestratorPc.next,row]
    split
    next => cases o <;> rfl
    next => split <;> cases o <;> rfl
  | publishChildren root children rest => cases children <;> cases o <;> rfl
  | _ => cases o <;> rfl

section Known

variable {g : AcceptedGraph}

theorem Pc.Leaving.refills (leaving : pc.Leaving) : ¬pc.Refills n := by
  cases pc <;> first | exact id | exact absurd leaving id

theorem publishing_refills {rest : List NodeID} : ¬(publishing rest).Refills n := by
  cases rest <;> exact id

theorem Call.refills_known {g : WorkflowGraph} (call : Call g x m now pc y pc') (held : pc'.Refills n) :
    pc.Refills n ∨ n ∈ ids g := by
  cases call with
  | somePending => exact .inr (Infra.mem_pendingNodes.mp held).1
  | lock => exact .inl held
  | getChildren | publishChild => exact absurd held publishing_refills
  | _ => exact absurd held id

theorem publish_messages {c : NodeID} {k : Message} (member : k ∈ (x.publish c).messages) :
    k ∈ x.messages ∨ k.nodeID = c := by
  simp only [Infra.messages,Infra.publish,List.mem_append,List.mem_singleton] at member ⊢
  grind

theorem Known.call (known : Known g.graph s) (here : s.handlers[i]? = some h)
    (next : h.pc.next g.graph s.infra h.msg o now = some (x,pc)) : Known g.graph (setHandler s i h x pc) := by
  obtain ⟨own,rest,refills⟩ := known.handlers h (List.mem_of_getElem? here)
  obtain ⟨z,pcz,call,effect,goes⟩ := next_outcome next
  constructor
  · intro k member
    have origin : k ∈ s.infra.messages ∨ k.nodeID = h.msg.nodeID ∨ k.nodeID ∈ h.pc.rest := by
      rcases effect with rfl | rfl | rfl
      · exact .inl member
      · exact call.messages k member
      · exact (requeue_messages member).imp_right fun same => .inl (congrArg Message.nodeID same)
    rcases origin with before | same | child
    · exact known.messages k before
    · rw [same]; exact own
    · exact rest _ child
  · refine Pool.forall_set known.handlers ⟨own,?_,?_⟩
    · intro c member
      rcases goes with ⟨_,rfl⟩ | leaving
      · exact (call.rest member).elim (rest c) g.child_mem
      · simp [leaving.rest] at member
    · intro n held
      rcases goes with ⟨_,rfl⟩ | leaving
      · exact (call.refills_known held).elim (refills n) id
      · exact absurd held leaving.refills
  · intro n member
    rcases effect with rfl | rfl | rfl
    · exact known.set n member
    · exact (call.adds member).elim (known.set n) (refills n)
    · exact known.set n member
  · exact known.orchestrator

theorem nextRoot_known {g : WorkflowGraph} {rest : List NodeID} (known : ∀ n ∈ rest, n ∈ ids g) :
    (nextRoot rest).Known g := by
  cases rest with
  | nil => trivial
  | cons root rest => exact known

theorem Orchestration.known (orchestration : Orchestration g.graph x q y q') (known : q.Known g.graph) :
    q'.Known g.graph ∧ (∀ k ∈ y.messages, k ∈ x.messages ∨ k.nodeID ∈ ids g.graph) ∧
      ∀ n ∈ y.runningSet, n ∈ x.runningSet ∨ n ∈ ids g.graph := by
  have old : ∀ k ∈ x.messages, k ∈ x.messages ∨ k.nodeID ∈ ids g.graph := fun k member => .inl member
  have set : ∀ n ∈ x.runningSet, n ∈ x.runningSet ∨ n ∈ ids g.graph := fun n member => .inl member
  have published : ∀ c ∈ ids g.graph,
      ∀ k ∈ (x.publish c).messages, k ∈ x.messages ∨ k.nodeID ∈ ids g.graph := by
    intro c listed k member
    rcases publish_messages member with before | same
    · exact .inl before
    · exact .inr (same ▸ listed)
  cases orchestration with
  | initSet =>
    refine ⟨nextRoot_known fun n root => ((mem_roots g.graph).mp root).1,old,?_⟩
    intro n member
    simp only [Infra.initializeRunningNodeSet,Finset.mem_union,List.mem_toFinset] at member
    exact member.imp_right List.mem_of_mem_filter
  | trigger =>
    refine ⟨⟨?_,fun n member => known n (List.mem_cons_of_mem _ member)⟩,old,set⟩
    exact fun c member => g.child_mem (List.mem_of_mem_filter member)
  | action => exact ⟨known,old,set⟩
  | inProgress => exact ⟨nextRoot_known fun n member => known n (List.mem_cons_of_mem _ member),old,set⟩
  | publishedAll => exact ⟨known.2,old,set⟩
  | publishChild =>
    obtain ⟨children,rest⟩ := known
    exact ⟨⟨fun c member => children c (List.mem_cons_of_mem _ member),rest⟩,
      published _ (children _ List.mem_cons_self),set⟩
  | publishStatus => exact ⟨nextRoot_known known,old,set⟩
  | publishRoot =>
    exact ⟨nextRoot_known fun n member => known n (List.mem_cons_of_mem _ member),
      published _ (known _ List.mem_cons_self),set⟩

theorem Known.step (known : Known g.graph s) (step : (system g.graph).step label s = some t) :
    Known g.graph t := by
  have idle : (∀ c ∈ Pc.rest .getParents, c ∈ ids g.graph) ∧ ∀ n, Pc.Refills n .getParents → n ∈ ids g.graph :=
    ⟨by simp [Pc.rest],fun n held => absurd held id⟩
  cases step_cases step with
  | @orchestrate o x q next =>
    obtain ⟨z,qz,orchestration,effect,goes⟩ := orchestrate_outcome next
    obtain ⟨on,messages,set⟩ := orchestration.known known.orchestrator
    refine ⟨?_,known.handlers,?_,?_⟩
    · intro k member
      rcases effect with rfl | rfl
      · exact known.messages k member
      · exact (messages k member).elim (known.messages k) id
    · intro n member
      rcases effect with rfl | rfl
      · exact known.set n member
      · exact (set n member).elim (known.set n) id
    · rcases goes with rfl | rfl
      · exact on
      · trivial
  | handle here next => exact known.call here next
  | @finish i r err h here inside =>
    have own := (known.handlers h (List.mem_of_getElem? here)).1
    refine ⟨known.messages,?_,known.set,known.orchestrator⟩
    exact Pool.forall_set known.handlers ⟨own,by simp [Pc.rest],fun n held => absurd held id⟩
  | @deliver m queued =>
    refine ⟨?_,Pool.forall_append known.handlers ⟨?_,idle⟩,known.set,known.orchestrator⟩
    · intro k member
      apply known.messages k
      simp only [Infra.messages,List.mem_append] at member ⊢
      exact member.imp_left fun left => left.imp_left List.mem_of_mem_erase
    · exact known.messages m (List.mem_append_left _ (List.mem_append_left _ queued))
  | @mature m waiting =>
    refine ⟨?_,known.handlers,known.set,known.orchestrator⟩
    intro k member
    apply known.messages k
    simp only [Infra.messages,List.mem_append,List.mem_singleton] at member ⊢
    rcases member with ((queued | rfl) | left) | published
    · exact .inl (.inl queued)
    · exact .inl (.inr waiting)
    · exact .inl (.inr (List.mem_of_mem_erase left))
    · exact .inr published
  | expireSet => exact ⟨known.messages,known.handlers,by simp,known.orchestrator⟩
  | expireLock => exact ⟨known.messages,known.handlers,known.set,known.orchestrator⟩
  | @redeliver m listed =>
    refine ⟨?_,known.handlers,known.set,known.orchestrator⟩
    intro k member
    rcases requeue_messages member with before | rfl
    · exact known.messages k before
    · exact known.messages k (List.mem_append_right _ listed)
  | @crash i h here alive =>
    have own := (known.handlers h (List.mem_of_getElem? here)).1
    refine ⟨?_,?_,known.set,known.orchestrator⟩
    · intro k member
      rcases requeue_messages member with before | rfl
      · exact known.messages k before
      · exact own
    · exact Pool.forall_set known.handlers ⟨own,by simp [Pc.rest],fun n held => absurd held id⟩
  | crashOrchestrator => exact ⟨known.messages,known.handlers,known.set,trivial⟩

theorem reach_known (reach : Reach (system g.graph) anything s) : Known g.graph s := by
  refine Reach.invariant (Known g.graph) ?_ ?_ reach
  · refine ⟨?_,?_,?_,trivial⟩
    · intro m member
      simp [system,createWorkflowRun,Infra.messages] at member
    · intro h member
      simp [system] at member
    · intro n member
      simp [system,createWorkflowRun] at member
  · exact fun _ _ _ _ known _ step => known.step step

end Known

section Redis

open RedisClient (initializing generateRunningNodeSetKey finalizationLockKey eventClaimKey)

/-- InitializeRunningNodeSet leaves the same behind whether its second command comes or not. -/
theorem adding_mirrored (mirrors : Mirrors db runID x) (nodeIDs : List NodeID) :
    Mirrors (adding runID nodeIDs db) runID (x.initializeRunningNodeSet nodeIDs) := by
  by_cases none : nodeIDs = []
  · have same : x.initializeRunningNodeSet nodeIDs = x := by simp [none,Infra.initializeRunningNodeSet]
    rw [adding,if_pos none,same]
    exact mirrors
  · rw [adding,if_neg none]
    constructor
    · show RedisClient.Running _ _ ((x.runningSet ∪ nodeIDs.toFinset).image Nat.toInt32)
      obtain ⟨db',done,running⟩ := RedisClient.addRunningNodes_running mirrors.set (nodeIDs.map Nat.toInt32)
      rw [RedisClient.image_added,Operation.after,done]
      exact running
    · rw [RedisClient.after_other RedisClient.lockKey_ne_runningNodeSetKey]
      exact mirrors.lock

theorem missing_marked (missing : x.runningSet = ∅) : x.markNodeComplete n = x := by
  unfold Infra.markNodeComplete
  rw [missing,Finset.erase_empty,← missing]

/-- A call on the two keys is a call of Run.System, whatever its outcome. -/
theorem overRedis_next (g : WorkflowGraph) (now : Int) (called : pc.overRedis runID db m o = some (db',pc'))
    (mirrors : Mirrors db runID x) (small : ∀ n ∈ insert m.nodeID x.runningSet, n < 2 ^ 31) :
    ∃ y, pc.next g x m o now = some (y,pc') ∧ Mirrors db' runID y ∧ y = x.keyed y.runningSet y.finalizeLock := by
  cases pc with
  | markComplete =>
    simp only [Pc.overRedis,Option.some.injEq,Prod.mk.injEq] at called
    obtain ⟨rfl,rfl⟩ := called
    have marked := RedisClient.mark_mirrored mirrors small
    by_cases missing : x.runningSet = ∅
    · rw [missing_marked missing] at marked
      refine ⟨x,?_,?_,rfl⟩
      · have told : (Redis.exec (markNodeCompleteAndCountRemaining runID m.nodeID.toInt32) db).1 =
            .error RedisClient.missingSet := by
          rw [(RedisClient.mark_running mirrors.set _).1,RedisClient.report_toInt32 small,Countdown.report,
            if_pos missing]
          rfl
        rw [told]
        simp only [Pc.next,if_pos missing]
        rfl
      · split
        · exact marked
        · exact mirrors
    · have next : Pc.next g x m o now .markComplete = some (call x o (·.markNodeComplete m.nodeID)
          (if x.runningSet.erase m.nodeID = ∅ then .getNodeRuns else .ack) .getPending) := if_neg missing
      have goes : afterMark o (Redis.exec (markNodeCompleteAndCountRemaining runID m.nodeID.toInt32) db).1 =
          if o.reported then (if x.runningSet.erase m.nodeID = ∅ then .getNodeRuns else .ack) else .getPending := by
        have count : ((x.runningSet.erase m.nodeID).card : Int) = 0 ↔ x.runningSet.erase m.nodeID = ∅ := by
          rw [Int.natCast_eq_zero,Finset.card_eq_zero]
        rw [(RedisClient.mark_running mirrors.set _).1,RedisClient.report_toInt32 small,Countdown.report,
          if_neg missing]
        simp only [RedisClient.answer,afterMark,count]
      rw [goes,next]
      cases o with
      | ok | lost => exact ⟨_,rfl,marked,rfl⟩
      | fail => exact ⟨x,rfl,mirrors,rfl⟩
  | acquireLock pending =>
    simp only [Pc.overRedis,Option.some.injEq,Prod.mk.injEq] at called
    obtain ⟨rfl,rfl⟩ := called
    have locked := RedisClient.lock_mirrored mirrors
    have told := (RedisClient.lock_told db runID).1
    rw [← Option.not_isSome,mirrors.lock] at told
    by_cases held : x.finalizeLock = true
    · have next : Pc.next g x m o now (.acquireLock pending) = some (x,.ack) := if_pos held
      have same : x.acquireFinalizationLock = x := by
        unfold Infra.acquireFinalizationLock
        rw [← held]
      rw [same] at locked
      refine ⟨x,?_,?_,rfl⟩
      · rw [next,told,held]
        cases o <;> rfl
      · cases o with
        | ok | lost => exact locked
        | fail => exact mirrors
    · have next : Pc.next g x m o now (.acquireLock pending) =
        some (call x o (·.acquireFinalizationLock) (.addPending pending) .ack) := if_neg held
      have free : x.finalizeLock = false := by simpa using held
      rw [next,told,free]
      cases o with
      | ok | lost => exact ⟨_,rfl,locked,rfl⟩
      | fail => exact ⟨x,rfl,mirrors,rfl⟩
  | addPending pending =>
    simp only [Pc.overRedis,Option.some.injEq,Prod.mk.injEq] at called
    obtain ⟨rfl,rfl⟩ := called
    cases o with
    | ok | lost => exact ⟨_,rfl,adding_mirrored mirrors pending,rfl⟩
    | fail => exact ⟨x,rfl,mirrors,rfl⟩
  | _ => simp [Pc.overRedis] at called

theorem finalizationLockKey_injective : Function.Injective finalizationLockKey := by
  intro a b same
  exact RedisClient.decimal_injective ((String.append_right_inj _).mp ((String.append_left_inj _).mp same))

theorem eventClaimKey_ne_finalizationLockKey {workflowCalendarID : Int32} {eventID : String} :
    finalizationLockKey runID ≠ eventClaimKey workflowCalendarID eventID := by
  intro same
  have claim : (eventClaimKey workflowCalendarID eventID).toList.head? = some 't' :=
    RedisClient.first_append (RedisClient.first_append (RedisClient.first_append rfl))
  have lock : (finalizationLockKey runID).toList.head? = some 'w' :=
    RedisClient.first_append (RedisClient.first_append rfl)
  rw [← same,lock] at claim
  exact absurd claim (by decide)

theorem mirrored_frame {op : Operation} (mirrors : Mirrors db runID x)
    (set : generateRunningNodeSetKey runID ≠ op.key) (lock : finalizationLockKey runID ≠ op.key) :
    Mirrors (op.after db) runID x := by
  refine ⟨mirrors.set.frame set,?_⟩
  rw [RedisClient.after_other lock]
  exact mirrors.lock

/-- What comes from elsewhere leaves the keys of the run alone, or one of them times out. -/
theorem elsewhere_mirrored {op : Operation} (elsewhere : Elsewhere runID op) (mirrors : Mirrors db runID x) :
    Mirrors (op.after db) runID x ∨ Mirrors (op.after db) runID {x with runningSet := ∅} ∨
      Mirrors (op.after db) runID {x with finalizeLock := false} := by
  cases op with
  | timeOut key =>
    rcases RedisClient.timeOut_mirrored mirrors key with kept | ⟨_,gone⟩ | ⟨_,gone⟩
    · exact .inl kept
    · exact .inr (.inl gone)
    · exact .inr (.inr gone)
  | expireRunningNodes other =>
    left
    refine ⟨RedisClient.after_unmarked mirrors.set trivial rfl,?_⟩
    rw [RedisClient.after_other RedisClient.lockKey_ne_runningNodeSetKey]
    exact mirrors.lock
  | addRunningNodes other nodeIDs | mark other nodeID =>
    exact .inl (mirrored_frame mirrors (RedisClient.runningNodeSetKey_injective.ne (Ne.symm elsewhere))
      RedisClient.lockKey_ne_runningNodeSetKey)
  | lock other =>
    exact .inl (mirrored_frame mirrors RedisClient.lockKey_ne_runningNodeSetKey.symm
      (finalizationLockKey_injective.ne (Ne.symm elsewhere)))
  | claimEvent =>
    exact .inl (mirrored_frame mirrors RedisClient.eventClaimKey_ne_runningNodeSetKey.symm eventClaimKey_ne_finalizationLockKey)

end Redis

section Simulation

variable {g : AcceptedGraph} {fine : Label → Prop} {k' : Keyed}

/-- The run that backs a state, after a step that leaves Redis alone. -/
theorem Backs.step (backs : Backs runID k s) {t : State}
    (stepped : ∀ set lock, Run.step g.graph label {k.state with infra := k.state.infra.keyed set lock} =
      some {t with infra := t.infra.keyed set lock}) :
    ∃ v, (system g.graph).step label s = some v ∧ Backs runID ⟨t,k.db⟩ v := by
  have whole : s = {k.state with infra := k.state.infra.keyed s.infra.runningSet s.infra.finalizeLock} := by
    obtain ⟨handlers,orchestrator,infra,_⟩ := backs
    cases s
    cases handlers
    cases orchestrator
    rw [State.mk.injEq]
    exact ⟨infra,rfl,rfl⟩
  refine ⟨{t with infra := t.infra.keyed s.infra.runningSet s.infra.finalizeLock},?_,?_⟩
  · have taken := stepped s.infra.runningSet s.infra.finalizeLock
    rw [← whole] at taken
    exact taken
  · exact ⟨rfl,rfl,rfl,backs.mirrors.congr rfl rfl⟩

/-- Apart from the calls on the two keys, a step does not see the set and the lock. -/
theorem step_keyed {g : WorkflowGraph}
    (plain : ∀ i o now, label = .handle i o now → ∀ h, s.handlers[i]? = some h → h.pc.overRedis runID db h.msg o = none)
    (started : ∀ o, label = .orchestrate o → s.orchestrator ≠ .initSet)
    (apart : label ≠ .expireSet ∧ label ≠ .expireLock) (stepped : step g label s = some t) :
    step g label {s with infra := s.infra.keyed set lock} = some {t with infra := t.infra.keyed set lock} := by
  cases label with
  | orchestrate o =>
    have other := orchestrate_keyed g s.infra o set lock (started o rfl)
    simp only [step] at stepped ⊢
    rw [other]
    cases next : s.orchestrator.next g s.infra o with
    | none => simp [next] at stepped
    | some r =>
      rw [next] at stepped
      cases stepped
      rfl
  | handle i o now =>
    simp only [step] at stepped ⊢
    cases here : s.handlers[i]? with
    | none => simp [here] at stepped
    | some h =>
      have other := next_keyed g s.infra now set lock (plain i o now rfl h here)
      rw [here] at stepped
      simp only at stepped ⊢
      rw [other]
      cases next : h.pc.next g s.infra h.msg o now with
      | none => simp [next] at stepped
      | some r =>
        rw [next] at stepped
        cases stepped
        rfl
  | finish i err =>
    simp only [step] at stepped ⊢
    cases here : s.handlers[i]? with
    | none => simp [here] at stepped
    | some h =>
      rw [here] at stepped
      simp only at stepped ⊢
      split at stepped
      next => cases stepped; rfl
      next => contradiction
  | deliver m =>
    simp only [step] at stepped ⊢
    split at stepped
    next queued => cases stepped; exact if_pos queued
    next => contradiction
  | mature m =>
    simp only [step] at stepped ⊢
    split at stepped
    next waiting => cases stepped; exact if_pos waiting
    next => contradiction
  | expireSet => exact absurd rfl apart.1
  | expireLock => exact absurd rfl apart.2
  | redeliver m =>
    simp only [step] at stepped ⊢
    split at stepped
    next known => cases stepped; exact if_pos known
    next => contradiction
  | crash i =>
    simp only [step] at stepped ⊢
    cases here : s.handlers[i]? with
    | none => simp [here] at stepped
    | some h =>
      rw [here] at stepped
      simp only at stepped ⊢
      split at stepped
      next => contradiction
      next alive => cases stepped; exact if_neg alive
  | crashOrchestrator => cases stepped; rfl

/-- A call on one of the two keys is the same call of the run behind it. -/
theorem Backs.overRedis (backs : Backs runID k s) (known : Known g.graph s)
    (small : ∀ n ∈ ids g.graph, n < 2 ^ 31) (here : k.state.handlers[i]? = some h) (now : Int)
    (called : h.pc.overRedis runID k.db h.msg o = some (db',pc')) :
    ∃ v, (system g.graph).step (.handle i o now) s = some v ∧
      Backs runID ⟨setHandler k.state i h k.state.infra pc',db'⟩ v := by
  have there : s.handlers[i]? = some h := backs.handlers ▸ here
  have bounds : ∀ n ∈ insert h.msg.nodeID s.infra.runningSet, n < 2 ^ 31 := by
    intro n member
    rcases Finset.mem_insert.mp member with rfl | member
    · exact small _ (known.handlers h (List.mem_of_getElem? there)).1
    · exact small _ (known.set n member)
  obtain ⟨y,next,mirrors,same⟩ := overRedis_next g.graph now called backs.mirrors bounds
  refine ⟨setHandler s i h y pc',handle_step there next,?_,backs.orchestrator,?_,mirrors⟩
  · show s.handlers.set i _ = k.state.handlers.set i _
    rw [backs.handlers]
  · show y = k.state.infra.keyed y.runningSet y.finalizeLock
    rw [same,backs.infra]
    rfl

theorem Backs.initSet (backs : Backs runID k s) (initial : k.state.orchestrator = .initSet) (o : Outcome) :
    ∃ v, (system g.graph).step (.orchestrate o) s = some v ∧
      Backs runID ⟨{k.state with orchestrator := nextRoot ((getRootNodes g.graph).map (·.id))},
        if o.applied then adding runID (nonRoots g.graph) k.db else k.db⟩ v := by
  have start : s.orchestrator = .initSet := backs.orchestrator.trans initial
  have added := adding_mirrored backs.mirrors (nonRoots g.graph)
  cases o with
  | ok | lost =>
    refine ⟨{s with
      infra := s.infra.initializeRunningNodeSet (nonRoots g.graph)
      orchestrator := nextRoot ((getRootNodes g.graph).map (·.id))},?_,backs.handlers,rfl,?_,added⟩
    · simp only [system,Run.step,start]
      rfl
    · show s.infra.initializeRunningNodeSet _ = k.state.infra.keyed _ _
      rw [backs.infra]
      rfl
  | fail =>
    refine ⟨{s with orchestrator := nextRoot ((getRootNodes g.graph).map (·.id))},?_,backs.handlers,rfl,
      backs.infra,backs.mirrors⟩
    simp only [system,Run.step,start]
    rfl

/-- What happens over Redis, the run behind it does as well, or one of its keys expires. -/
theorem keyed_matched {happening : Happening} (small : ∀ n ∈ ids g.graph, n < 2 ^ 31)
    (expires : fine .expireSet ∧ fine .expireLock) (reach : Reach (system g.graph) (fun _ => fine) s)
    (backs : Backs runID k s) (allowed : workers fine k happening)
    (stepped : keyedStep g.graph runID happening k = some k') :
    ∃ v, Path (system g.graph) (fun _ => fine) s v ∧ Backs runID k' v := by
  cases happening with
  | redis op =>
    simp only [keyedStep] at stepped
    split at stepped
    next elsewhere =>
      cases stepped
      rcases elsewhere_mirrored elsewhere backs.mirrors with kept | gone | gone
      · exact ⟨s,.refl,backs.handlers,backs.orchestrator,backs.infra,kept⟩
      · refine ⟨{s with infra := {s.infra with runningSet := ∅}},Path.single (a := .expireSet) expires.1 rfl,
          backs.handlers,backs.orchestrator,?_,gone⟩
        rw [backs.infra]
        rfl
      · refine ⟨{s with infra := {s.infra with finalizeLock := false}},Path.single (a := .expireLock) expires.2 rfl,
          backs.handlers,backs.orchestrator,?_,gone⟩
        rw [backs.infra]
        rfl
    next => contradiction
  | worker label =>
    have allowed : fine label := allowed
    have known := reach_known (reach.mono fun _ _ _ => trivial)
    suffices taken : ∃ v, (system g.graph).step label s = some v ∧ Backs runID k' v by
      obtain ⟨v,step,after⟩ := taken
      exact ⟨v,Path.single allowed step,after⟩
    have plainly : (step g.graph label k.state).map (Keyed.mk · k.db) = some k' →
        (∀ i o now, label = .handle i o now → ∀ h, k.state.handlers[i]? = some h →
          h.pc.overRedis runID k.db h.msg o = none) →
        (∀ o, label = .orchestrate o → k.state.orchestrator ≠ .initSet) →
        label ≠ .expireSet ∧ label ≠ .expireLock →
        ∃ v, (system g.graph).step label s = some v ∧ Backs runID k' v := by
      intro stepped plain started apart
      obtain ⟨t,step,rfl⟩ := Option.map_eq_some_iff.mp stepped
      exact backs.step fun set lock => step_keyed plain started apart step
    cases label with
    | handle i o now =>
      simp only [keyedStep] at stepped
      cases here : k.state.handlers[i]? with
      | none => simp [here] at stepped
      | some h =>
        rw [here] at stepped
        simp only at stepped
        cases called : h.pc.overRedis runID k.db h.msg o with
        | some r =>
          rw [called] at stepped
          cases stepped
          exact backs.overRedis known small here now called
        | none =>
          rw [called] at stepped
          refine plainly stepped ?_ (fun _ other => by contradiction) ⟨by simp,by simp⟩
          rintro i o now ⟨⟩ h' here'
          rw [here] at here'
          cases here'
          exact called
    | orchestrate o =>
      simp only [keyedStep] at stepped
      split at stepped
      next initial =>
        cases stepped
        exact backs.initSet initial o
      next started =>
        exact plainly stepped (fun _ _ _ other => by contradiction) (fun _ _ => started) ⟨by simp,by simp⟩
    | expireSet => contradiction
    | expireLock => contradiction
    | _ =>
      exact plainly stepped (fun _ _ _ other => by contradiction) (fun _ other => by contradiction)
        ⟨by simp,by simp⟩

/-- What the workers of a run do over Redis, with keys that time out and with all the commands of
other runs in between, they do in Run.System, with its set and its lock as they are in Redis. -/
theorem keyed_refines (small : ∀ n ∈ ids g.graph, n < 2 ^ 31) (expires : fine .expireSet ∧ fine .expireLock)
    (set : db (RedisClient.generateRunningNodeSetKey runID) = none)
    (lock : db (RedisClient.finalizationLockKey runID) = none)
    (reach : Reach (keyed g.graph runID db) (workers fine) k) :
    ∃ s, Reach (system g.graph) (fun _ => fine) s ∧ Backs runID k s := by
  apply Reach.simulated (Backs runID) ?_ ?_ reach
  · refine ⟨rfl,rfl,rfl,RedisClient.running_of_missing set,?_⟩
    show (db _).isSome = false
    rw [lock]
    rfl
  · exact fun k happening k' s reached backs allowed stepped =>
      keyed_matched small expires reached backs allowed stepped

end Simulation

instance (fine : Label → Prop) [DecidablePred fine] : ∀ k happening, Decidable (workers fine k happening)
  | _, .worker label => inferInstanceAs (Decidable (fine label))
  | _, .redis _ => isTrue trivial

/-- Another run counts its nodes, and the key of the set times out, while the first action succeeds:
its goroutine then finds no set and fills it again. -/
def chainRefilled : List Happening := List.flatten [List.replicate 5 (.worker (.orchestrate .ok)),
  [.redis (.addRunningNodes 8 [2,3]),.redis (.mark 8 2),.worker (.deliver ⟨2,0⟩)],
  List.replicate 6 (.worker (.handle 0 .ok 1)), [.worker (.finish 0 none),.redis (.expireRunningNodes 7)],
  List.replicate 4 (.worker (.handle 0 .ok 2)), [.redis (.timeOut (RedisClient.generateRunningNodeSetKey 7))],
  List.replicate 4 (.worker (.handle 0 .ok 3))]

theorem chain_keyed : ∃ k s, k.state.handlers = [⟨⟨2,0⟩,.ack⟩] ∧
    Reach (system chain.graph) (fun _ => Label.FaultFree) s ∧ Backs 7 k s := by
  obtain ⟨k,reach,handlers⟩ : ∃ k, Reach (keyed chain.graph 7 fun _ => none) (workers Label.FaultFree) k ∧
      k.state.handlers = [⟨⟨2,0⟩,.ack⟩] :=
    follow_exists chainRefilled (by decide +kernel)
  obtain ⟨s,reached,backs⟩ := keyed_refines (g := chain) (by decide) ⟨trivial,trivial⟩ rfl rfl reach
  exact ⟨k,s,handlers,reached,backs⟩

end TinyAutomator.Run
