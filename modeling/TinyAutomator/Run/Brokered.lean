import TinyAutomator.Run.Steps
import TinyAutomator.Messages
import TinyAutomator.Lib.Covers

/-! A run whose messages are at the broker. What a call publishes becomes a copy in the main
queue, a delivery starts a goroutine, and Subscribe settles it with what ExecuteWorkflowNode
returned. As the rows and the goroutines see it, this is a run of `system`, whose queue holds
what nobody works on any more. -/
namespace TinyAutomator.Run

open Transition

section Model

/-- The message lists of `infra` are empty between two steps. The goroutine of a delivery has a
program point here, which counts until ExecuteWorkflowNode returns. -/
structure Brokered where
  infra : Infra
  orchestrator : OrchestratorPc
  broker : Messages.Life NodeID
  pcs : List Pc

inductive BrokeredLabel where
  | worker (label : Label)
  | broker (label : Messages.Label)

/-- What ExecuteWorkflowNode and handleFailedMessage read of a delivery. -/
def task (body : NodeID) (headers : Messages.Table) : Message :=
  ⟨body,(Messages.retryCount headers).toNat⟩

def Infra.unsent (x : Infra) : Infra :=
  { x with queue := [], delayed := [], deadLetters := [], published := [] }

/-- Publish stores each message without headers. -/
def Brokered.send (b : Brokered) (x : Infra) : Brokered :=
  { b with
    infra := x.unsent
    broker := { b.broker with
      copies := b.broker.copies ++ x.queue.map fun m => ⟨m.nodeID,[],.ready⟩ } }

/-- ExecuteWorkflowNode goes on, or Subscribe gets what it returned. -/
def Brokered.resume (wire : Messages.Wire) (b : Brokered) (i : Nat) (pc : Pc) : Option Brokered :=
  let b := { b with pcs := b.pcs.set i pc }
  match pc with
  | .ack => (Messages.step wire (.handle i true) b.broker).map fun life => { b with broker := life }
  | .failed => (Messages.step wire (.handle i false) b.broker).map fun life => { b with broker := life }
  | _ => some b

def brokeredStep (g : WorkflowGraph) (wire : Messages.Wire) : BrokeredLabel → Brokered → Option Brokered
  | .worker (.orchestrate o), b =>
    match b.orchestrator.next g b.infra o with
    | some (x,pc) => some { b.send x with orchestrator := pc }
    | none => none
  | .worker (.handle i o now), b =>
    match b.broker.deliveries[i]? with
    | some d =>
      match b.pcs[i]? with
      | some pc =>
        if d.phase = .received then
          match pc.next g b.infra (task d.body d.headers) o now with
          | some (x,pc) => (b.send x).resume wire i pc
          | none => none
        else none
      | none => none
    | none => none
  | .worker (.finish i err), b =>
    match b.broker.deliveries[i]? with
    | some d =>
      match b.pcs[i]? with
      | some (.inAction retryCount) =>
        if d.phase = .received then
          some { b with
            infra := b.infra.record (.finished d.body err.isNone)
            pcs := b.pcs.set i (.updateStatus retryCount err) }
        else none
      | _ => none
    | none => none
  -- the copy stays with the broker, which sees the connection close later
  | .worker (.crash i), b =>
    match b.broker.deliveries[i]? with
    | some d => if d.phase = .done then none else some { b with broker := b.broker.turn i d .done }
    | none => none
  | .worker .crashOrchestrator, b => some { b with orchestrator := .failed }
  | .worker .expireSet, b => some { b with infra := { b.infra with runningSet := ∅ } }
  | .worker .expireLock, b => some { b with infra := { b.infra with finalizeLock := false } }
  | .worker (.deliver _), _ | .worker (.mature _), _ | .worker (.redeliver _), _ => none
  | .broker (.handle _ _), _ => none
  | .broker (.deliver i), b =>
    (Messages.step wire (.deliver i) b.broker).map fun life =>
      { b with broker := life, pcs := b.pcs ++ [.getParents] }
  | .broker label, b => (Messages.step wire label b.broker).map fun life => { b with broker := life }

def brokered (g : WorkflowGraph) (wire : Messages.Wire) : System Brokered BrokeredLabel where
  init := ⟨createWorkflowRun g,.initSet,⟨[],[],0⟩,[]⟩
  step := brokeredStep g wire

def BrokeredLabel.FaultFree : BrokeredLabel → Prop
  | .worker label => label.FaultFree
  | .broker (.publishRetry _ ok) | .broker (.ack _ ok) | .broker (.nack _ ok) => ok = true
  | .broker (.redeliver _) => False
  | .broker _ => True

end Model

section Abstraction

/-- Where the goroutine of a delivery stands: ExecuteWorkflowNode runs until it has returned. -/
def standing (d : Messages.Delivery NodeID) (pc : Pc) : Pc :=
  match d.phase with
  | .received => pc
  | .succeeded | .published => .ack
  | .failed => .failed
  | .refused => if Messages.maxRetries ≤ Messages.retryCount d.headers then .failed else .nack
  | .done => .done

def handler (d : Messages.Delivery NodeID) (pc : Pc) : Handler :=
  ⟨task d.body d.headers,standing d pc⟩

def Brokered.handlers (b : Brokered) : List Handler :=
  List.zipWith handler b.broker.deliveries b.pcs

def Lies (life : Messages.Life NodeID) (place : Messages.Place) (i : Nat) : Prop :=
  ∃ c, life.copies[i]? = some c ∧ c.place = place

/-- Every goroutine that could settle the copy has gone. -/
def Unheld (life : Messages.Life NodeID) (i : Nat) : Prop :=
  ∀ d ∈ life.deliveries, d.copy = i → d.valid = true → d.phase = .done

/-- The copy is in the queue, or the broker will put it there. -/
def Owed (life : Messages.Life NodeID) (i : Nat) : Prop :=
  Lies life .ready i ∨ Lies life .unacked i ∧ Unheld life i

/-- The task of a copy, as it arrives. -/
def carried (wire : Messages.Wire) (life : Messages.Life NodeID) (i : Nat) : Message :=
  match life.copies[i]? with
  | some c => task c.body (wire.transmit c.headers)
  | none => ⟨0,0⟩

/-- The message lists of a state cover the copies at the broker. -/
structure Stored (wire : Messages.Wire) (life : Messages.Life NodeID) (x : Infra) : Prop where
  queue : Covers (carried wire life) (Owed life) x.queue
  delayed : Covers (carried wire life) (Lies life .delayed) x.delayed
  dead : Covers (carried wire life) (Lies life .dead) x.deadLetters
  published : ∀ c ∈ life.copies, task c.body (wire.transmit c.headers) ∈ x.published
  natural : ∀ c ∈ life.copies, 0 ≤ Messages.retryCount (wire.transmit c.headers)
  taken : ∀ d ∈ life.deliveries, ∃ c, life.copies[d.copy]? = some c ∧ d.body = c.body ∧
    d.headers = wire.transmit c.headers
  few : ∀ d ∈ life.deliveries, d.phase = .failed → Messages.retryCount d.headers < Messages.maxRetries

/-- ExecuteWorkflowNode has not returned. -/
def Pc.Inside : Pc → Prop
  | .failed | .ack | .nack | .done => False
  | _ => True

/-- A state of the run system that a run with a broker is in. -/
structure Carries (wire : Messages.Wire) (b : Brokered) (s : State) : Prop where
  infra : s.infra.unsent = b.infra
  orchestrator : s.orchestrator = b.orchestrator
  handlers : s.handlers = b.handlers
  stored : Stored wire b.broker s.infra
  length : b.pcs.length = b.broker.deliveries.length
  inside : ∀ (i : Nat) d pc, b.broker.deliveries[i]? = some d → d.phase = .received → b.pcs[i]? = some pc → pc.Inside

end Abstraction

section Copies

variable {wire : Messages.Wire} {life life' : Messages.Life NodeID} {place place' : Messages.Place}
  {c : Messages.Copy NodeID} {i j k : Nat}

theorem carried_set (wire : Messages.Wire) (at_ : life.copies[i]? = some c)
    (copies : life'.copies = life.copies.set i { c with place }) : carried wire life' = carried wire life := by
  funext k
  simp only [carried,copies]
  by_cases own : k = i
  · subst own
    rw [Pool.get_set_self at_,at_]
  · rw [List.getElem?_set_ne (Ne.symm own)]

theorem carried_at (wire : Messages.Wire) (at_ : life.copies[i]? = some c) :
    carried wire life i = task c.body (wire.transmit c.headers) := by
  simp only [carried,at_]

theorem carried_append (copies : life'.copies = life.copies ++ [c]) (lies : Lies life place k) :
    carried wire life' k = carried wire life k := by
  obtain ⟨x,at_,_⟩ := lies
  have old : life'.copies[k]? = some x := by
    rw [copies,List.getElem?_append_left (List.getElem?_eq_some_iff.mp at_).1]
    exact at_
  rw [carried_at wire at_,carried_at wire old]

theorem carried_last (copies : life'.copies = life.copies ++ [c]) :
    carried wire life' life.copies.length = task c.body (wire.transmit c.headers) :=
  carried_at wire (by rw [copies]; simp)

theorem Lies.append (lies : Lies life' place k) (copies : life'.copies = life.copies ++ [c]) :
    Lies life place k ∨ k = life.copies.length ∧ c.place = place := by
  obtain ⟨x,get,is⟩ := lies
  rw [copies] at get
  rcases Messages.get_append_cases get with old | ⟨last,rfl⟩
  · exact .inl ⟨x,old,is⟩
  · exact .inr ⟨last,is⟩

theorem Lies.set (lies : Lies life' place' k) (copies : life'.copies = life.copies.set i { c with place }) :
    k = i ∧ place = place' ∨ k ≠ i ∧ Lies life place' k := by
  obtain ⟨x,get,is⟩ := lies
  rw [copies] at get
  rcases Pool.get_set_cases get with ⟨same,rfl⟩ | ⟨other,old⟩
  · exact .inl ⟨same,is⟩
  · exact .inr ⟨other,x,old,is⟩

theorem Lies.old (lies : Lies life' place k) (copies : life'.copies = life.copies ++ [c])
    (apart : c.place ≠ place) : Lies life place k := by
  rcases lies.append copies with old | ⟨_,is⟩
  · exact old
  · exact absurd is apart

theorem Lies.other (lies : Lies life' place' k) (copies : life'.copies = life.copies.set i { c with place })
    (apart : place ≠ place') : k ≠ i ∧ Lies life place' k := by
  rcases lies.set copies with ⟨_,is⟩ | other
  · exact absurd is apart
  · exact other

/-- A copy stays held by a goroutine that is still there. -/
theorem Unheld.weaken (unheld : Unheld life' k)
    (still : ∀ d ∈ life.deliveries, d.copy = k → d.valid = true → d.phase ≠ .done → d ∈ life'.deliveries) :
    Unheld life k := by
  intro d member copy valid
  by_contra alive
  exact alive (unheld d (still d member copy valid alive) copy valid)

end Copies

section Stored

variable {wire : Messages.Wire} {life life' : Messages.Life NodeID} {place : Messages.Place}
  {c : Messages.Copy NodeID} {d : Messages.Delivery NodeID} {x y : Infra} {i j : Nat}

/-- Agreement on the message lists. -/
def Infra.Lists (x y : Infra) : Prop :=
  x.queue = y.queue ∧ x.delayed = y.delayed ∧ x.deadLetters = y.deadLetters ∧ x.published = y.published

theorem Stored.congr (stored : Stored wire life x) (same : y.Lists x) : Stored wire life y := by
  obtain ⟨queue,delayed,dead,published⟩ := same
  exact ⟨queue ▸ stored.queue,delayed ▸ stored.delayed,dead ▸ stored.dead,published ▸ stored.published,
    stored.natural,stored.taken,stored.few⟩

/-- A new copy does not touch the covers of the others. -/
theorem covers_kept {p q : Nat → Prop} {l : List Message} (covers : Covers (carried wire life) p l)
    (copies : life'.copies = life.copies ++ [c]) (lies : ∀ k, p k → ∃ place, Lies life place k)
    (same : ∀ k, q k → p k) : Covers (carried wire life') q l := by
  refine (covers.congr fun k has => ?_).weaken same
  obtain ⟨place,lies⟩ := lies k has
  exact carried_append copies lies

theorem covers_new {p q : Nat → Prop} {l : List Message} (covers : Covers (carried wire life) p l)
    (copies : life'.copies = life.copies ++ [c]) (lies : ∀ k, p k → ∃ place, Lies life place k)
    (more : ∀ k, q k → p k ∨ k = life.copies.length) :
    Covers (carried wire life') q (l ++ [task c.body (wire.transmit c.headers)]) := by
  rw [← carried_last copies]
  exact (covers_kept covers copies lies fun _ has => has).append more

theorem Owed.lies {k : Nat} (owed : Owed life k) : ∃ place, Lies life place k := by
  rcases owed with ready | ⟨unacked,_⟩
  · exact ⟨_,ready⟩
  · exact ⟨_,unacked⟩

/-- What the goroutines know of their copies survives a new one. -/
theorem Stored.taken_append (stored : Stored wire life x) (c : Messages.Copy NodeID) :
    ∀ e ∈ life.deliveries, ∃ x, (life.copies ++ [c])[e.copy]? = some x ∧ e.body = x.body ∧
      e.headers = wire.transmit x.headers := by
  intro e member
  obtain ⟨x,at_,agrees⟩ := stored.taken e member
  exact ⟨x,(List.getElem?_append_left (List.getElem?_eq_some_iff.mp at_).1).trans at_,agrees⟩

theorem Stored.publish (stored : Stored wire life x) (n : NodeID) :
    Stored wire { life with copies := life.copies ++ [⟨n,[],.ready⟩] } (x.publish n) := by
  have first : task n (wire.transmit []) = ⟨n,0⟩ := by
    rw [task,Messages.retryCount_first]
    rfl
  constructor
  · have queue : (x.publish n).queue = x.queue ++ [task n (wire.transmit [])] := by
      rw [first]
      rfl
    rw [queue]
    refine covers_new (c := ⟨n,[],.ready⟩) stored.queue rfl (fun _ => Owed.lies) ?_
    rintro k (ready | ⟨unacked,unheld⟩)
    · exact (ready.append rfl).imp .inl And.left
    · rcases unacked.append rfl with old | ⟨_,taken⟩
      · exact .inl (.inr ⟨old,unheld⟩)
      · contradiction
  · exact covers_kept stored.delayed rfl (fun k lies => ⟨_,lies⟩) fun k lies => lies.old rfl (by simp)
  · exact covers_kept stored.dead rfl (fun k lies => ⟨_,lies⟩) fun k lies => lies.old rfl (by simp)
  · refine Pool.forall_append (fun c member => List.mem_append_left _ (stored.published c member)) ?_
    rw [first]
    exact List.mem_append_right _ (List.mem_singleton_self _)
  · exact Pool.forall_append stored.natural (Messages.retryCount_first wire).ge
  · exact stored.taken_append _
  · exact stored.few

/-- handleFailedMessage sends the task round once more. -/
theorem Stored.retry (stored : Stored wire life x) (at_ : life.deliveries[j]? = some d)
    (failed : d.phase = .failed) :
    Stored wire ⟨life.copies ++ [d.retry],life.deliveries.set j { d with phase := .published },life.calls⟩
      (x.publishRetry (task d.body d.headers)) := by
  have member := List.mem_of_getElem? at_
  obtain ⟨c,held,body,headers⟩ := stored.taken d member
  have natural : 0 ≤ Messages.retryCount d.headers := headers ▸ stored.natural c (List.mem_of_getElem? held)
  have next : task d.retry.body (wire.transmit d.retry.headers) =
      ⟨d.body,(task d.body d.headers).retryCount + 1⟩ := by
    simp only [task,Messages.Delivery.retry,Messages.retryCount_transmit,Message.mk.injEq,true_and]
    omega
  have still : ∀ k, Unheld ⟨life.copies ++ [d.retry],life.deliveries.set j { d with phase := .published },
      life.calls⟩ k → Unheld life k := by
    intro k unheld
    refine unheld.weaken fun e member copy valid _ => Pool.mem_set_of_ne at_ member ?_ _
    rintro rfl
    have moved := unheld { e with phase := .published } (Pool.mem_set_self at_) copy valid
    contradiction
  constructor
  · refine covers_kept stored.queue rfl (fun _ => Owed.lies) ?_
    rintro k (ready | ⟨unacked,unheld⟩)
    · exact .inl (ready.old rfl (by simp [Messages.Delivery.retry]))
    · exact .inr ⟨unacked.old rfl (by simp [Messages.Delivery.retry]),still k unheld⟩
  · have delayed : (x.publishRetry (task d.body d.headers)).delayed =
        x.delayed ++ [task d.retry.body (wire.transmit d.retry.headers)] := by
      rw [next]
      rfl
    rw [delayed]
    exact covers_new (c := d.retry) stored.delayed rfl (fun k lies => ⟨_,lies⟩) fun k lies =>
      (lies.append rfl).imp id And.left
  · exact covers_kept stored.dead rfl (fun k lies => ⟨_,lies⟩) fun k lies => lies.old rfl (by simp [Messages.Delivery.retry])
  · refine Pool.forall_append (fun c member => List.mem_append_left _ (stored.published c member)) ?_
    rw [next]
    exact List.mem_append_right _ (List.mem_singleton_self _)
  · refine Pool.forall_append stored.natural ?_
    simp only [Messages.Delivery.retry,Messages.retryCount_transmit]
    omega
  · have taken := stored.taken_append d.retry
    exact Pool.forall_set taken (taken d member)
  · exact Pool.forall_set stored.few (by simp)

theorem Stored.turn (stored : Stored wire life x) (phase : Messages.Phase) (at_ : life.deliveries[j]? = some d)
    (alive : phase ≠ .done) (few : phase = .failed → Messages.retryCount d.headers < Messages.maxRetries)
    (calls : Nat) : Stored wire ⟨life.copies,life.deliveries.set j { d with phase },calls⟩ x := by
  have member := List.mem_of_getElem? at_
  constructor
  · refine stored.queue.weaken ?_
    rintro k (ready | ⟨unacked,unheld⟩)
    · exact .inl ready
    · refine .inr ⟨unacked,unheld.weaken fun e member copy valid _ => Pool.mem_set_of_ne at_ member ?_ _⟩
      rintro rfl
      exact alive (unheld { e with phase } (Pool.mem_set_self at_) copy valid)
  · exact stored.delayed
  · exact stored.dead
  · exact stored.published
  · exact stored.natural
  · exact Pool.forall_set stored.taken (stored.taken d member)
  · exact Pool.forall_set stored.few few

theorem Unheld.done {k : Nat} (unheld : Unheld { life with deliveries := life.deliveries.set j { d with phase := .done } } k)
    (at_ : life.deliveries[j]? = some d) (other : k ≠ d.copy) : Unheld life k := by
  refine unheld.weaken fun e member copy _ _ => Pool.mem_set_of_ne at_ member ?_ _
  rintro rfl
  exact other copy.symm

theorem Stored.task_eq (stored : Stored wire life x) (at_ : life.deliveries[j]? = some d) :
    task d.body d.headers = carried wire life d.copy := by
  obtain ⟨c,held,body,headers⟩ := stored.taken d (List.mem_of_getElem? at_)
  rw [carried_at wire held,body,headers]

/-- A goroutine that ends without settling its copy leaves it to the broker. -/
theorem Stored.drop (stored : Stored wire life x) (at_ : life.deliveries[j]? = some d) :
    Stored wire (life.turn j d .done) (x.requeue (task d.body d.headers)) := by
  have member := List.mem_of_getElem? at_
  constructor
  · rw [stored.task_eq at_]
    refine stored.queue.append ?_
    rintro k (ready | ⟨unacked,unheld⟩)
    · exact .inl (.inl ready)
    · by_cases own : k = d.copy
      · exact .inr own
      · exact .inl (.inr ⟨unacked,unheld.done at_ own⟩)
  · exact stored.delayed
  · exact stored.dead
  · exact stored.published
  · exact stored.natural
  · exact Pool.forall_set stored.taken (stored.taken d member)
  · exact Pool.forall_set stored.few (by simp)

theorem Stored.published_set (stored : Stored wire life x) (at_ : life.copies[i]? = some c)
    (place : Messages.Place) : ∀ e ∈ life.copies.set i { c with place },
      task e.body (wire.transmit e.headers) ∈ x.published :=
  Pool.forall_set stored.published (stored.published c (List.mem_of_getElem? at_))

theorem Stored.natural_set (stored : Stored wire life x) (at_ : life.copies[i]? = some c)
    (place : Messages.Place) : ∀ e ∈ life.copies.set i { c with place },
      0 ≤ Messages.retryCount (wire.transmit e.headers) :=
  Pool.forall_set stored.natural (stored.natural c (List.mem_of_getElem? at_))

theorem Stored.taken_set (stored : Stored wire life x) (at_ : life.copies[i]? = some c)
    (place : Messages.Place) : ∀ e ∈ life.deliveries, ∃ x, (life.copies.set i { c with place })[e.copy]? = some x ∧
      e.body = x.body ∧ e.headers = wire.transmit x.headers := by
  intro e member
  obtain ⟨x,held,agrees⟩ := stored.taken e member
  by_cases own : e.copy = i
  · subst own
    obtain rfl := Option.some.inj (at_.symm.trans held)
    exact ⟨_,Pool.get_set_self at_,agrees⟩
  · exact ⟨x,(List.getElem?_set_ne (Ne.symm own)).trans held,agrees⟩

theorem Stored.settle (stored : Stored wire life x) (at_ : life.deliveries[j]? = some d)
    (held : life.copies[d.copy]? = some c) (settles : Messages.Settles d.phase place) :
    Stored wire ((life.turn j d .done).move d.copy c place)
      (if place = .dead then x.deadLetter (task d.body d.headers) else x) := by
  have member := List.mem_of_getElem? at_
  have same : carried wire ((life.turn j d .done).move d.copy c place) = carried wire life :=
    carried_set wire held rfl
  have gone : place ≠ .ready ∧ place ≠ .unacked ∧ place ≠ .delayed := by
    generalize d.phase = phase at settles
    cases settles <;> exact ⟨by simp,by simp,by simp⟩
  constructor
  · have kept : Covers (carried wire life) (Owed ((life.turn j d .done).move d.copy c place)) x.queue := by
      refine stored.queue.weaken ?_
      rintro k (ready | ⟨unacked,unheld⟩)
      · rcases Lies.set ready rfl with ⟨_,is⟩ | ⟨_,old⟩
        · exact absurd is gone.1
        · exact .inl old
      · rcases Lies.set unacked rfl with ⟨_,is⟩ | ⟨other,old⟩
        · exact absurd is gone.2.1
        · exact .inr ⟨old,Unheld.done unheld at_ other⟩
    rw [same]
    split <;> exact kept
  · have kept : Covers (carried wire life) (Lies ((life.turn j d .done).move d.copy c place) .delayed)
        x.delayed := by
      refine stored.delayed.weaken fun k lies => ?_
      rcases Lies.set lies rfl with ⟨_,is⟩ | ⟨_,old⟩
      · exact absurd is gone.2.2
      · exact old
    rw [same]
    split <;> exact kept
  · rw [same]
    split
    next =>
      rw [stored.task_eq at_]
      refine stored.dead.append fun k lies => ?_
      rcases Lies.set lies rfl with ⟨own,_⟩ | ⟨_,old⟩
      · exact .inr own
      · exact .inl old
    next alive =>
      refine stored.dead.weaken fun k lies => ?_
      rcases Lies.set lies rfl with ⟨_,is⟩ | ⟨_,old⟩
      · exact absurd is alive
      · exact old
  · split <;> exact stored.published_set held place
  · exact stored.natural_set held place
  · have taken := stored.taken_set held place
    exact Pool.forall_set taken (taken d member)
  · exact Pool.forall_set stored.few (by simp)

theorem Stored.deliver (stored : Stored wire life x) (at_ : life.copies[i]? = some c) (ready : c.place = .ready) :
    Stored wire { life.move i c .unacked with
        deliveries := life.deliveries ++ [⟨i,true,c.body,wire.transmit c.headers,.received⟩] }
      { x with queue := x.queue.erase (task c.body (wire.transmit c.headers)) } := by
  constructor
  · rw [← carried_at wire at_,carried_set wire at_ rfl]
    refine stored.queue.erase (.inl ⟨c,at_,ready⟩) ?_
    rintro k (ready | ⟨unacked,unheld⟩)
    · rcases Lies.set ready rfl with ⟨_,is⟩ | ⟨other,old⟩
      · contradiction
      · exact ⟨.inl old,other⟩
    · rcases Lies.set unacked rfl with ⟨rfl,_⟩ | ⟨other,old⟩
      · have busy := unheld _ (List.mem_append_right _ (List.mem_singleton_self _)) rfl rfl
        contradiction
      · exact ⟨.inr ⟨old,unheld.weaken fun e member _ _ _ => List.mem_append_left _ member⟩,other⟩
  · rw [carried_set wire at_ rfl]
    exact stored.delayed.weaken fun k lies => (Lies.other lies rfl (by simp)).2
  · rw [carried_set wire at_ rfl]
    exact stored.dead.weaken fun k lies => (Lies.other lies rfl (by simp)).2
  · exact stored.published_set at_ .unacked
  · exact stored.natural_set at_ .unacked
  · exact Pool.forall_append (stored.taken_set at_ .unacked) ⟨_,Pool.get_set_self at_,rfl,rfl⟩
  · exact Pool.forall_append stored.few (by simp)

theorem Stored.expire (stored : Stored wire life x) (at_ : life.copies[i]? = some c) (delayed : c.place = .delayed) :
    Stored wire (life.move i c .ready) { x with
      delayed := x.delayed.erase (task c.body (wire.transmit c.headers))
      queue := x.queue ++ [task c.body (wire.transmit c.headers)] } := by
  constructor
  · rw [← carried_at wire at_,carried_set wire at_ rfl]
    refine stored.queue.append ?_
    rintro k (ready | ⟨unacked,unheld⟩)
    · rcases Lies.set ready rfl with ⟨own,_⟩ | ⟨_,old⟩
      · exact .inr own
      · exact .inl (.inl old)
    · rcases Lies.set unacked rfl with ⟨_,is⟩ | ⟨_,old⟩
      · contradiction
      · exact .inl (.inr ⟨old,unheld⟩)
  · rw [← carried_at wire at_,carried_set wire at_ rfl]
    refine stored.delayed.erase ⟨c,at_,delayed⟩ fun k lies => ?_
    obtain ⟨other,old⟩ := Lies.other lies rfl (by simp)
    exact ⟨old,other⟩
  · rw [carried_set wire at_ rfl]
    exact stored.dead.weaken fun k lies => (Lies.other lies rfl (by simp)).2
  · exact stored.published_set at_ .ready
  · exact stored.natural_set at_ .ready
  · exact stored.taken_set at_ .ready
  · exact stored.few

/-- The broker takes a copy back from whoever holds it. -/
theorem Stored.redeliver (stored : Stored wire life x) (at_ : life.copies[i]? = some c) :
    Stored wire { life.move i c .ready with
        deliveries := life.deliveries.map fun d => if d.copy = i then { d with valid := false } else d }
      (x.requeue (task c.body (wire.transmit c.headers))) := by
  constructor
  · rw [← carried_at wire at_,carried_set wire at_ rfl]
    refine stored.queue.append ?_
    rintro k (ready | ⟨unacked,unheld⟩)
    · rcases Lies.set ready rfl with ⟨own,_⟩ | ⟨_,old⟩
      · exact .inr own
      · exact .inl (.inl old)
    · rcases Lies.set unacked rfl with ⟨_,is⟩ | ⟨other,old⟩
      · contradiction
      · refine .inl (.inr ⟨old,unheld.weaken fun e member copy _ _ => ?_⟩)
        have elsewhere : e.copy ≠ i := copy ▸ other
        exact List.mem_map.mpr ⟨e,member,if_neg elsewhere⟩
  · rw [carried_set wire at_ rfl]
    exact stored.delayed.weaken fun k lies => (Lies.other lies rfl (by simp)).2
  · rw [carried_set wire at_ rfl]
    exact stored.dead.weaken fun k lies => (Lies.other lies rfl (by simp)).2
  · exact stored.published_set at_ .ready
  · exact stored.natural_set at_ .ready
  · intro e member
    obtain ⟨d,old,rfl⟩ := List.mem_map.mp member
    split <;> exact stored.taken_set at_ .ready d old
  · intro e member
    obtain ⟨d,old,rfl⟩ := List.mem_map.mp member
    split <;> exact stored.few d old

end Stored

section Calls

variable {g : WorkflowGraph} {x y : Infra} {m : Message} {o : Outcome} {now : Int} {pc pc' : Pc}

/-- The message lists of `y` before those of `x`. -/
def Infra.over (x y : Infra) : Infra :=
  { x with
    queue := y.queue ++ x.queue, delayed := y.delayed ++ x.delayed
    deadLetters := y.deadLetters ++ x.deadLetters, published := y.published ++ x.published }

theorem unsent_over (x : Infra) : x.unsent.over x = x := by
  simp [Infra.unsent,Infra.over]

theorem publish_over (x y : Infra) (n : NodeID) : (x.over y).publish n = (x.publish n).over y := by
  simp [Infra.publish,Infra.over]

/-- No call reads the message lists. -/
theorem Pc.next_over (inside : pc.Inside) (next : pc.next g x m o now = some (y,pc')) (w : Infra) :
    pc.next g (x.over w) m o now = some (y.over w,pc') := by
  cases pc with
  | failed | ack | nack | done => exact absurd inside id
  | publishChildren rest =>
    cases rest with
    | nil => cases next; rfl
    | cons c rest =>
      cases next
      simp only [Pc.next,call,publish_over]
      cases o <;> rfl
  | markComplete =>
    simp only [Pc.next] at next ⊢
    split at next
    next missing => cases next; exact if_pos missing
    next present => cases next; cases o <;> exact if_neg present
  | acquireLock pending =>
    simp only [Pc.next] at next ⊢
    split at next
    next held => cases next; exact if_pos held
    next free => cases next; cases o <;> exact if_neg free
  | inAction r => simp [Pc.next] at next
  | _ => cases next; cases o <;> rfl

/-- A call publishes one message or none. -/
def Infra.Sends (x y : Infra) : Prop := y.Lists x ∨ ∃ n, y.Lists (x.publish n)

theorem publishing_inside (rest : List NodeID) : (publishing rest).Inside := by
  cases rest <;> trivial

/-- ExecuteWorkflowNode goes on, or Subscribe gets its result. -/
def Pc.Returning : Pc → Prop
  | .nack | .done => False
  | _ => True

theorem Pc.Inside.returning (inside : pc.Inside) : pc.Returning := by
  cases pc with
  | failed | ack | nack | done => exact absurd inside id
  | _ => trivial

/-- ExecuteWorkflowNode publishes and goes on, or it returns to Subscribe. -/
theorem Pc.next_sends (inside : pc.Inside) (next : pc.next g x m o now = some (y,pc')) :
    x.Sends y ∧ pc'.Returning := by
  cases pc with
  | failed | ack | nack | done => exact absurd inside id
  | publishChildren rest =>
    cases rest with
    | nil => cases next; exact ⟨.inl ⟨rfl,rfl,rfl,rfl⟩,trivial⟩
    | cons c rest =>
      cases next
      cases o with
      | ok => exact ⟨.inr ⟨c,rfl,rfl,rfl,rfl⟩,(publishing_inside rest).returning⟩
      | fail => exact ⟨.inl ⟨rfl,rfl,rfl,rfl⟩,trivial⟩
      | lost => exact ⟨.inr ⟨c,rfl,rfl,rfl,rfl⟩,trivial⟩
  | getChildren =>
    cases next
    refine ⟨.inl (by cases o <;> exact ⟨rfl,rfl,rfl,rfl⟩),?_⟩
    cases o with
    | ok => exact (publishing_inside _).returning
    | fail | lost => exact trivial
  | markComplete =>
    simp only [Pc.next] at next
    split at next
    next => cases next; exact ⟨.inl ⟨rfl,rfl,rfl,rfl⟩,trivial⟩
    next =>
      cases next
      refine ⟨.inl (by cases o <;> exact ⟨rfl,rfl,rfl,rfl⟩),?_⟩
      split
      next => split <;> exact trivial
      next => exact trivial
  | acquireLock pending =>
    simp only [Pc.next] at next
    split at next
    next => cases next; exact ⟨.inl ⟨rfl,rfl,rfl,rfl⟩,trivial⟩
    next => cases next; cases o <;> exact ⟨.inl ⟨rfl,rfl,rfl,rfl⟩,trivial⟩
  | inAction r => simp [Pc.next] at next
  | publishStatus r err =>
    cases next
    refine ⟨.inl (by cases o <;> exact ⟨rfl,rfl,rfl,rfl⟩),?_⟩
    rw [ite_self]
    split
    next => split <;> exact trivial
    next => exact trivial
  | getParents | getNodeRun | getPending =>
    cases next
    refine ⟨.inl (by cases o <;> exact ⟨rfl,rfl,rfl,rfl⟩),?_⟩
    split
    next => split <;> exact trivial
    next => exact trivial
  | _ => cases next; cases o <;> exact ⟨.inl ⟨rfl,rfl,rfl,rfl⟩,trivial⟩

theorem OrchestratorPc.next_over {q q' : OrchestratorPc} (next : q.next g x o = some (y,q')) (w : Infra) :
    q.next g (x.over w) o = some (y.over w,q') := by
  cases q with
  | enqueueRoot root rest =>
    simp only [OrchestratorPc.next] at next ⊢
    split at next
    next is => cases next; rw [if_pos is]; cases o <;> rfl
    next is =>
      rw [if_neg is]
      split at next
      next pending => cases next; exact (if_pos pending).trans (by cases o <;> rfl)
      next begun => cases next; exact (if_neg begun).trans (by cases o <;> rfl)
  | publishChildren root children rest =>
    cases children with
    | nil => cases next; rfl
    | cons c children =>
      cases next
      simp only [OrchestratorPc.next,OrchestratorPc.call,publish_over]
      cases o <;> rfl
  | publishRoot root rest =>
    cases next
    simp only [OrchestratorPc.next,OrchestratorPc.call,publish_over]
    cases o <;> rfl
  | returned | failed => simp [OrchestratorPc.next] at next
  | _ => cases next; cases o <;> rfl

theorem OrchestratorPc.next_sends {q q' : OrchestratorPc} (next : q.next g x o = some (y,q')) : x.Sends y := by
  obtain ⟨z,qz,orchestration,rfl | rfl,_⟩ := orchestrate_outcome next
  · exact .inl ⟨rfl,rfl,rfl,rfl⟩
  · cases orchestration with
    | publishChild | publishRoot => exact .inr ⟨_,rfl,rfl,rfl,rfl⟩
    | _ => exact .inl ⟨rfl,rfl,rfl,rfl⟩

end Calls

section Simulation

variable {g : WorkflowGraph} {wire : Messages.Wire} {b b' : Brokered} {s : State} {x y : Infra} {m : Message}
  {o : Outcome} {now : Int} {pc pc' q : Pc} {life' : Messages.Life NodeID} {infra' : Infra}
  {d : Messages.Delivery NodeID} {c : Messages.Copy NodeID} {place : Messages.Place}
  {phase : Messages.Phase} {i j : Nat}

/-- What a call of a worker published is at the broker before anything else happens. -/
theorem Stored.send (stored : Stored wire b.broker x) (sends : x.unsent.Sends y) :
    Stored wire (b.send y).broker (y.over x) := by
  rcases sends with ⟨queue,delayed,dead,published⟩ | ⟨n,queue,delayed,dead,published⟩
  · have none_ : (b.send y).broker = b.broker := by simp [Brokered.send,queue,Infra.unsent]
    rw [none_]
    refine stored.congr ⟨?_,?_,?_,?_⟩ <;> simp [Infra.over,queue,delayed,dead,published,Infra.unsent]
  · have one : (b.send y).broker = { b.broker with copies := b.broker.copies ++ [⟨n,[],.ready⟩] } := by
      simp [Brokered.send,queue,Infra.unsent,Infra.publish]
    rw [one]
    refine (stored.publish n).congr ⟨?_,?_,?_,?_⟩ <;>
      simp [Infra.over,queue,delayed,dead,published,Infra.unsent,Infra.publish]

theorem task_retryCount : maxRetries ≤ (task d.body d.headers).retryCount ↔
    Messages.maxRetries ≤ Messages.retryCount d.headers := by
  simp only [task,maxRetries,Messages.maxRetries]
  omega

/-- The outcome of ExecuteWorkflowNode decides what Subscribe does next. -/
theorem resume_cases (resumed : b.resume wire i pc = some b') (at_ : b.broker.deliveries[i]? = some d)
    (received : d.phase = .received) (returning : pc.Returning) :
    ∃ phase calls, b' = { b with
        broker := ⟨b.broker.copies,b.broker.deliveries.set i { d with phase },calls⟩
        pcs := b.pcs.set i pc } ∧ standing { d with phase } pc = pc ∧ phase ≠ .done ∧
      (phase = .failed → Messages.retryCount d.headers < Messages.maxRetries) ∧
      (phase = .received → pc.Inside) := by
  have inside : pc.Inside → b.resume wire i pc = some { b with pcs := b.pcs.set i pc } := by
    intro inside
    cases pc with
    | failed | ack | nack | done => exact absurd inside id
    | _ => rfl
  cases pc with
  | nack | done => exact absurd returning id
  | ack =>
    simp only [Brokered.resume,Messages.step,at_,received,if_true,Option.map_some] at resumed
    exact ⟨.succeeded,_,(Option.some.inj resumed).symm,rfl,by simp,by simp,by simp⟩
  | failed =>
    simp only [Brokered.resume,Messages.step,at_,received,if_true,Option.map_some] at resumed
    by_cases spent : Messages.maxRetries ≤ Messages.retryCount d.headers
    · rw [if_neg (by simp),if_pos spent] at resumed
      exact ⟨.refused,_,(Option.some.inj resumed).symm,if_pos spent,by simp,by simp,by simp⟩
    · rw [if_neg (by simp),if_neg spent] at resumed
      exact ⟨.failed,_,(Option.some.inj resumed).symm,rfl,by simp,fun _ => Int.not_le.mp spent,by simp⟩
  | _ =>
    rw [inside trivial] at resumed
    refine ⟨.received,b.broker.calls,?_,rfl,by simp,by simp,fun _ => trivial⟩
    have same : { d with phase := .received } = d := by rw [← received]
    rw [same,Pool.set_same at_]
    exact (Option.some.inj resumed).symm

theorem Carries.here (carries : Carries wire b s) (at_ : b.broker.deliveries[j]? = some d) :
    ∃ pc, b.pcs[j]? = some pc ∧ s.handlers[j]? = some (handler d pc) := by
  obtain ⟨bound,_⟩ := List.getElem?_eq_some_iff.mp at_
  obtain ⟨pc,stands⟩ : ∃ pc, b.pcs[j]? = some pc :=
    ⟨_,List.getElem?_eq_getElem (carries.length ▸ bound)⟩
  refine ⟨pc,stands,?_⟩
  rw [carries.handlers,Brokered.handlers,List.getElem?_zipWith,at_,stands]

/-- One goroutine moves in both systems. -/
theorem Carries.advance (carries : Carries wire b s) (phase : Messages.Phase) (q : Pc)
    (life' : Messages.Life NodeID) (at_ : b.broker.deliveries[j]? = some d) (deliveries : life'.deliveries = b.broker.deliveries.set j { d with phase })
    (stored : Stored wire life' x) (infra : x.unsent = infra') (inside : phase = .received → q.Inside)
    (stands : b.pcs[j]? = some pc) :
    Carries wire ⟨infra',b.orchestrator,life',b.pcs.set j q⟩
      (setHandler s j (handler d pc) x (standing { d with phase } q)) where
  infra := infra
  orchestrator := carries.orchestrator
  handlers := by
    show s.handlers.set j _ = List.zipWith handler life'.deliveries (b.pcs.set j q)
    rw [deliveries,Pool.zipWith_set,carries.handlers]
    rfl
  stored := stored
  length := by rw [deliveries,List.length_set,List.length_set,carries.length]
  inside := by
    intro k e pc get received stands
    dsimp only at get
    rw [deliveries] at get
    rcases Pool.get_set_cases get with ⟨rfl,rfl⟩ | ⟨other,old⟩
    · rcases Pool.get_set_cases stands with ⟨_,rfl⟩ | ⟨other,_⟩
      · exact inside received
      · exact absurd rfl other
    · rcases Pool.get_set_cases stands with ⟨same,_⟩ | ⟨_,there⟩
      · exact absurd same other
      · exact carries.inside k e pc old received there

/-- A call of a worker is the same call in the run system. -/
theorem Carries.handle (carries : Carries wire b s)
    (stepped : brokeredStep g wire (.worker (.handle i o now)) b = some b') :
    ∃ t, (system g).step (.handle i o now) s = some t ∧ Carries wire b' t := by
  simp only [brokeredStep] at stepped
  split at stepped
  next d at_ =>
    split at stepped
    next pc stands =>
      split at stepped
      next received =>
        split at stepped
        next x pc' next =>
          obtain ⟨_,pc_,here⟩ := carries.here at_
          obtain rfl := Option.some.inj (stands.symm.trans pc_)
          have inside := carries.inside i d pc at_ received stands
          obtain ⟨sends,returning⟩ := Pc.next_sends inside next
          rw [← carries.infra] at sends
          obtain ⟨phase,calls,rfl,returned,alive,few,working⟩ := resume_cases stepped at_ received returning
          have call : (standing d pc).next g s.infra (task d.body d.headers) o now =
              some (x.over s.infra,pc') := by
            have run := Pc.next_over inside next s.infra
            rw [← carries.infra,unsent_over] at run
            simpa only [standing,received] using run
          refine ⟨_,handle_step here call,?_⟩
          have stored := (carries.stored.send sends).turn phase at_ alive few calls
          have advanced := carries.advance phase pc' _ at_ rfl stored rfl working stands
          rw [returned] at advanced
          exact advanced
        next => contradiction
      next => contradiction
    next => contradiction
  next => contradiction

theorem Carries.finish {err : Option String} (carries : Carries wire b s)
    (stepped : brokeredStep g wire (.worker (.finish i err)) b = some b') :
    ∃ t, (system g).step (.finish i err) s = some t ∧ Carries wire b' t := by
  simp only [brokeredStep] at stepped
  split at stepped
  next d at_ =>
    split at stepped
    next retryCount stands =>
      split at stepped
      next received =>
        cases stepped
        obtain ⟨_,pc_,here⟩ := carries.here at_
        obtain rfl := Option.some.inj (stands.symm.trans pc_)
        have inside : (handler d (.inAction retryCount)).pc = .inAction retryCount := by
          simp only [handler,standing,received]
        have same : { d with phase := .received } = d := by rw [← received]
        have infra : (s.infra.record (.finished d.body err.isNone)).unsent =
            b.infra.record (.finished d.body err.isNone) := by
          rw [← carries.infra]
          rfl
        have stored : Stored wire b.broker (s.infra.record (.finished d.body err.isNone)) :=
          carries.stored.congr ⟨rfl,rfl,rfl,rfl⟩
        have advanced := carries.advance .received (.updateStatus retryCount err) b.broker at_
          (by rw [same,Pool.set_same at_]) stored infra (fun _ => trivial) stands
        refine ⟨_,?_,advanced⟩
        simp only [system,step,here,inside]
        rfl
      next => contradiction
    next => contradiction
  next => contradiction

theorem Carries.crash (carries : Carries wire b s)
    (stepped : brokeredStep g wire (.worker (.crash i)) b = some b') :
    ∃ t, (system g).step (.crash i) s = some t ∧ Carries wire b' t := by
  simp only [brokeredStep] at stepped
  split at stepped
  next d at_ =>
    split at stepped
    next => contradiction
    next alive =>
      cases stepped
      obtain ⟨pc,stands,here⟩ := carries.here at_
      have busy : (handler d pc).pc ≠ .done := by
        simp only [handler,standing]
        split
        next received =>
          have inside := carries.inside i d pc at_ received stands
          rintro rfl
          exact inside
        next => simp
        next => simp
        next => simp
        next => split <;> simp
        next done => exact absurd done alive
      have advanced := carries.advance .done pc _ at_ rfl (carries.stored.drop at_) carries.infra (by simp) stands
      rw [Pool.set_same stands] at advanced
      refine ⟨_,?_,advanced⟩
      simp only [system,step,here,if_neg busy]
      rfl
  next => contradiction

theorem Carries.orchestrate (carries : Carries wire b s)
    (stepped : brokeredStep g wire (.worker (.orchestrate o)) b = some b') :
    ∃ t, (system g).step (.orchestrate o) s = some t ∧ Carries wire b' t := by
  simp only [brokeredStep] at stepped
  split at stepped
  next x q next =>
    cases stepped
    have sends := OrchestratorPc.next_sends next
    rw [← carries.infra] at sends
    have call : s.orchestrator.next g s.infra o = some (x.over s.infra,q) := by
      have run := OrchestratorPc.next_over next s.infra
      rw [← carries.infra,unsent_over] at run
      rw [carries.orchestrator]
      exact run
    refine ⟨{ s with infra := x.over s.infra, orchestrator := q },?_,?_⟩
    · simp only [system,step,call]
    · exact ⟨rfl,rfl,carries.handlers,carries.stored.send sends,carries.length,carries.inside⟩
  next => contradiction

/-- The last call for a delivery: an ack, or a nack that dead-letters. -/
theorem settles_next (settles : Messages.Settles d.phase place) :
    (standing d pc).next g x (task d.body d.headers) o now =
      some (if o.applied then (if place = .dead then x.deadLetter (task d.body d.headers) else x)
        else x.requeue (task d.body d.headers),.done) := by
  simp only [standing]
  generalize is : d.phase = phase at settles
  cases settles with
  | acked | replaced => rfl
  | dead =>
    simp only [if_true]
    split
    next spent => simp only [Pc.next,task_retryCount.mpr spent,if_true]
    next => rfl

theorem Carries.settling (carries : Carries wire b s) {label : Messages.Label}
    (moves : Messages.Moves wire b.broker label life') (settling : (∀ i, label ≠ .deliver i) ∧ ∀ i ok, label ≠ .handle i ok) :
    ∃ label' t, (system g).step label' s = some t ∧ Carries wire { b with broker := life' } t ∧
      ((BrokeredLabel.broker label).FaultFree → label'.FaultFree) := by
  -- a goroutine between the return of ExecuteWorkflowNode and its end
  have goes : ∀ {j : Nat} {d : Messages.Delivery NodeID} {x : Infra} (phase : Messages.Phase) (o : Outcome)
      (life' : Messages.Life NodeID), b.broker.deliveries[j]? = some d → phase ≠ .received →
      (∀ pc, (standing d pc).next g s.infra (task d.body d.headers) o 0 = some (x,standing { d with phase } pc)) →
      life'.deliveries = b.broker.deliveries.set j { d with phase } → Stored wire life' x →
      x.unsent = s.infra.unsent → ∃ t, (system g).step (.handle j o 0) s = some t ∧
        Carries wire { b with broker := life' } t := by
    intro j d x phase o life' at_ returned next deliveries stored unsent
    obtain ⟨pc,stands,here⟩ := carries.here at_
    have advanced := carries.advance phase pc life' at_ deliveries stored (unsent.trans carries.infra)
      (fun received => absurd received returned) stands
    rw [Pool.set_same stands] at advanced
    exact ⟨_,handle_step here (next pc),advanced⟩
  cases moves with
  | deliver => exact absurd rfl (settling.1 _)
  | handle => exact absurd rfl (settling.2 _ _)
  | @publish j d at_ failed =>
    have few := carries.stored.few d (List.mem_of_getElem? at_) failed
    obtain ⟨t,step,later⟩ := goes .published .ok _ at_ (by simp) (fun pc => by
      simp only [standing,failed,Pc.next,if_neg (mt task_retryCount.mp (Int.not_le.mpr few))]
      rfl) rfl (carries.stored.retry at_ failed) rfl
    exact ⟨_,t,step,later,fun _ => rfl⟩
  | @lose j d at_ failed =>
    have few := carries.stored.few d (List.mem_of_getElem? at_) failed
    have stored : Stored wire (b.broker.turn j d .refused) s.infra :=
      carries.stored.turn .refused at_ (by simp) (by simp) b.broker.calls
    obtain ⟨t,step,later⟩ := goes .refused .fail (b.broker.turn j d .refused) at_ (by simp) (fun pc => by
      simp only [standing,failed,Pc.next,if_neg (mt task_retryCount.mp (Int.not_le.mpr few)),
        if_neg (Int.not_le.mpr few)]
      rfl) rfl stored rfl
    exact ⟨_,t,step,later,fun fine => absurd fine (by simp [BrokeredLabel.FaultFree])⟩
  | @drop j d place label at_ settles faulty =>
    obtain ⟨t,step,later⟩ := goes .done .fail _ at_ (by simp) (fun pc => settles_next settles) rfl
      (carries.stored.drop at_) rfl
    refine ⟨_,t,step,later,fun fine => ?_⟩
    rcases faulty with rfl | rfl <;> exact absurd fine (by simp [BrokeredLabel.FaultFree])
  | @settle j d c place label at_ held valid settles =>
    obtain ⟨t,step,later⟩ := goes .done .ok _ at_ (by simp) (fun pc => settles_next settles) rfl
      (carries.stored.settle at_ held settles) (by
        show Infra.unsent (if place = .dead then _ else _) = _
        split <;> rfl)
    exact ⟨_,t,step,later,fun _ => rfl⟩
  | @expire i c at_ delayed =>
    have waits := carries.stored.delayed.mem ⟨c,at_,delayed⟩
    rw [carried_at wire at_] at waits
    have step : (system g).step (.mature (task c.body (wire.transmit c.headers))) s = some { s with
        infra := { s.infra with
          delayed := s.infra.delayed.erase (task c.body (wire.transmit c.headers))
          queue := s.infra.queue ++ [task c.body (wire.transmit c.headers)] } } := if_pos waits
    exact ⟨_,_,step,⟨carries.infra,carries.orchestrator,carries.handlers,carries.stored.expire at_ delayed,
      carries.length,carries.inside⟩,fun _ => trivial⟩
  | @redeliver i c at_ unacked =>
    have known := carries.stored.published c (List.mem_of_getElem? at_)
    have step : (system g).step (.redeliver (task c.body (wire.transmit c.headers))) s = some { s with
        infra := s.infra.requeue (task c.body (wire.transmit c.headers)) } := if_pos known
    refine ⟨_,_,step,?_,fun fine => absurd fine id⟩
    · -- a goroutine does not see whether it still holds its copy
      have same : ∀ d : Messages.Delivery NodeID, handler (if d.copy = i then { d with valid := false } else d) =
          handler d := by
        intro d
        split <;> rfl
      refine ⟨carries.infra,carries.orchestrator,?_,carries.stored.redeliver at_,?_,?_⟩
      · rw [carries.handlers]
        simp only [Brokered.handlers,List.zipWith_map_left,same]
      · simpa using carries.length
      · intro k e pc get received stands
        simp only [List.getElem?_map,Option.map_eq_some_iff] at get
        obtain ⟨d,old,rfl⟩ := get
        have received : d.phase = .received := by
          split at received <;> exact received
        exact carries.inside k d pc old received stands

theorem Carries.deliver (carries : Carries wire b s)
    (stepped : brokeredStep g wire (.broker (.deliver i)) b = some b') :
    ∃ label' t, (system g).step label' s = some t ∧ Carries wire b' t ∧ label'.FaultFree := by
  simp only [brokeredStep,Option.map_eq_some_iff] at stepped
  obtain ⟨life',delivered,rfl⟩ := stepped
  simp only [Messages.step] at delivered
  split at delivered
  next c at_ =>
    split at delivered
    next ready =>
      cases delivered
      have queued := carries.stored.queue.mem (.inl ⟨c,at_,ready⟩)
      rw [carried_at wire at_] at queued
      have step : (system g).step (.deliver (task c.body (wire.transmit c.headers))) s = some { s with
          infra := { s.infra with queue := s.infra.queue.erase (task c.body (wire.transmit c.headers)) }
          handlers := s.handlers ++ [⟨task c.body (wire.transmit c.headers),.getParents⟩] } := if_pos queued
      refine ⟨_,_,step,⟨carries.infra,carries.orchestrator,?_,carries.stored.deliver at_ ready,?_,?_⟩,trivial⟩
      · simp only [Brokered.handlers]
        rw [List.zipWith_append carries.length.symm,carries.handlers]
        rfl
      · simp [carries.length]
      · intro k e pc get received stands
        rw [List.getElem?_append] at get stands
        rw [carries.length] at stands
        split at get
        next within =>
          rw [if_pos within] at stands
          exact carries.inside k e pc get received stands
        next outside =>
          rw [if_neg outside] at stands
          rw [List.mem_singleton.mp (List.mem_of_getElem? stands)]
          trivial
    next => contradiction
  next => contradiction

/-- A step with the broker is a step of the run system, and no fault is one. -/
theorem Carries.step {label : BrokeredLabel} (carries : Carries wire b s)
    (stepped : (brokered g wire).step label b = some b') :
    ∃ label' t, (system g).step label' s = some t ∧ Carries wire b' t ∧
      (label.FaultFree → label'.FaultFree) := by
  cases label with
  | worker label =>
    cases label with
    | orchestrate o =>
      obtain ⟨t,step,later⟩ := carries.orchestrate stepped
      exact ⟨_,t,step,later,id⟩
    | handle i o now =>
      obtain ⟨t,step,later⟩ := carries.handle stepped
      exact ⟨_,t,step,later,id⟩
    | finish i err =>
      obtain ⟨t,step,later⟩ := carries.finish stepped
      exact ⟨_,t,step,later,id⟩
    | crash i =>
      obtain ⟨t,step,later⟩ := carries.crash stepped
      exact ⟨_,t,step,later,id⟩
    | crashOrchestrator =>
      cases stepped
      exact ⟨.crashOrchestrator,_,rfl,⟨carries.infra,rfl,carries.handlers,carries.stored,carries.length,
        carries.inside⟩,id⟩
    | expireSet =>
      cases stepped
      exact ⟨.expireSet,_,rfl,⟨by rw [← carries.infra]; rfl,carries.orchestrator,carries.handlers,
        carries.stored.congr ⟨rfl,rfl,rfl,rfl⟩,carries.length,carries.inside⟩,id⟩
    | expireLock =>
      cases stepped
      exact ⟨.expireLock,_,rfl,⟨by rw [← carries.infra]; rfl,carries.orchestrator,carries.handlers,
        carries.stored.congr ⟨rfl,rfl,rfl,rfl⟩,carries.length,carries.inside⟩,id⟩
    | deliver | mature | redeliver => simp [brokered,brokeredStep] at stepped
  | broker label =>
    cases label with
    | handle => simp [brokered,brokeredStep] at stepped
    | deliver i =>
      obtain ⟨label',t,step,later,fine⟩ := carries.deliver stepped
      exact ⟨label',t,step,later,fun _ => fine⟩
    | publishRetry | ack | nack | expire | redeliver =>
      simp only [brokered,brokeredStep,Option.map_eq_some_iff] at stepped
      obtain ⟨life',settled,rfl⟩ := stepped
      exact carries.settling (Messages.step_moves settled) ⟨by simp,by simp⟩

theorem carries_init (g : WorkflowGraph) (wire : Messages.Wire) :
    Carries wire (brokered g wire).init (system g).init where
  infra := rfl
  orchestrator := rfl
  handlers := rfl
  stored := by
    have nobody : ∀ place i, ¬Lies (brokered g wire).init.broker place i := by
      rintro place i ⟨c,get,_⟩
      simp [brokered] at get
    refine ⟨.empty _ ?_,.empty _ (nobody _),.empty _ (nobody _),by simp [brokered],by simp [brokered],
      by simp [brokered],by simp [brokered]⟩
    rintro i (ready | ⟨unacked,_⟩)
    · exact nobody _ i ready
    · exact nobody _ i unacked
  length := rfl
  inside := by simp [brokered]

/-- Whatever a run with a broker reaches, the run system reaches: the same rows, keys and history
and the same goroutines, with every copy that is owed in its queue. Without faults there are none
there either. -/
theorem brokered_refines (g : WorkflowGraph) (wire : Messages.Wire) (b : Brokered) :
    (Reach (brokered g wire) (fun _ _ => True) b → ∃ s, Reach (system g) anything s ∧ Carries wire b s) ∧
    (Reach (brokered g wire) (fun _ label => label.FaultFree) b →
      ∃ s, Reach (system g) faultFree s ∧ Carries wire b s) := by
  constructor
  · refine Reach.simulated (Carries wire) (carries_init g wire) ?_
    intro b label b' s _ carries _ stepped
    obtain ⟨label',t,step,later,_⟩ := carries.step stepped
    exact ⟨t,.single trivial step,later⟩
  · refine Reach.simulated (Carries wire) (carries_init g wire) ?_
    intro b label b' s _ carries fine stepped
    obtain ⟨label',t,step,later,free⟩ := carries.step stepped
    exact ⟨t,.single (free fine) step,later⟩

end Simulation

section Runs

instance : DecidablePred BrokeredLabel.FaultFree
  | .worker label => inferInstanceAs (Decidable label.FaultFree)
  | .broker (.publishRetry _ ok) | .broker (.ack _ ok) | .broker (.nack _ ok) =>
    inferInstanceAs (Decidable (ok = true))
  | .broker (.redeliver _) => isFalse id
  | .broker (.deliver _) | .broker (.handle _ _) | .broker (.expire _) => isTrue trivial

/-- A failed task comes round again, and the goroutine of its second delivery reads its count. -/
theorem chain_brokered : ∃ b, Reach (brokered chain.graph Messages.Wire.exact) (fun _ label => label.FaultFree) b ∧
    (b.broker.copies.map (·.place) = [.replaced,.unacked] ∧ b.handlers = [⟨⟨2,0⟩,.done⟩,⟨⟨2,1⟩,.getNodeRun⟩]) ∧
    ∃ s, Reach (system chain.graph) faultFree s ∧ Carries Messages.Wire.exact b s := by
  have run : ∃ b, Reach (brokered chain.graph Messages.Wire.exact) (fun _ label => label.FaultFree) b ∧
      (b.broker.copies.map (·.place) = [.replaced,.unacked] ∧
        b.handlers = [⟨⟨2,0⟩,.done⟩,⟨⟨2,1⟩,.getNodeRun⟩]) :=
    follow_exists (List.replicate 5 (.worker (.orchestrate .ok)) ++ [.broker (.deliver 0)] ++
      List.replicate 6 (.worker (.handle 0 .ok 7)) ++ [.worker (.finish 0 (some "refused"))] ++
      List.replicate 2 (.worker (.handle 0 .ok 8)) ++
      [.broker (.publishRetry 0 true),.broker (.ack 0 true),.broker (.expire 1),.broker (.deliver 1),
        .worker (.handle 1 .ok 9)]) (by decide +kernel)
  obtain ⟨b,reach,shape⟩ := run
  exact ⟨b,reach,shape,(brokered_refines _ _ b).2 reach⟩

end Runs

end TinyAutomator.Run
