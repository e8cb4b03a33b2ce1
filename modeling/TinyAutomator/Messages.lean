import Mathlib.Algebra.Group.Int.Defs
import Mathlib.Algebra.Group.Nat.Defs
import Mathlib.Data.List.Nodup
import Mathlib.Data.List.Perm.Subperm
import TinyAutomator.Lib.Transition
import TinyAutomator.Lib.Pool

/-! The life of one task message. The broker keeps copies of its body. A consumer settles
each delivery with an ack or a nack; after a failed handler it first publishes the next
copy, to be delivered again after a delay. -/
namespace TinyAutomator.Messages

open Transition

section Client

/-- A value of an AMQP table. -/
inductive Field where
  | int32 (value : Int)
  | other (text : String)
  deriving DecidableEq

abbrev Table := List (String × Field)

/-- The headers of a message after the client library has written and read them: what is
absent stays absent, and an int32 comes back as one. -/
structure Wire where
  transmit : Table → Table
  faithful : ∀ (headers : Table) (key : String),
    (∀ field, headers.lookup key = some field → ∃ value, field = .int32 value) →
      (transmit headers).lookup key = headers.lookup key

def maxRetries : Nat := 3
def initialDelayMs : Nat := 2000
def maxDelayMs : Nat := 120000
def backoffMultiplier : Nat := 2

def retryCount (headers : Table) : Int :=
  match headers.lookup "x-retry-count" with
  | some (.int32 count) => count
  | _ => 0

def delay (retryCount : Int) : Nat :=
  min (initialDelayMs * backoffMultiplier ^ retryCount.toNat) maxDelayMs

/-- The headers of the next copy. -/
def retryHeaders (retryCount : Int) : Table :=
  [("x-retry-count",.int32 (retryCount + 1)),("x-delay",.int32 (delay retryCount))]

end Client

section System

/-- Where a copy is. An acknowledged copy has left the broker: after a handler call that
returned nil, or replaced by the next copy. -/
inductive Place where
  | ready
  | unacked
  | delayed
  | dead
  | acked
  | replaced
  deriving DecidableEq

structure Copy (β : Type) where
  body : β
  headers : Table
  place : Place

/-- `failed`, `published` and `refused` are inside handleFailedMessage: before the retry is
published, before the ack that follows it and before the nack. -/
inductive Phase where
  | received
  | succeeded
  | failed
  | published
  | refused
  | done
  deriving DecidableEq

def Phase.failing : Phase → Bool
  | .failed | .published | .refused => true
  | .received | .succeeded | .done => false

/-- A goroutine of Subscribe; `valid` as long as the broker has not taken the copy back. -/
structure Delivery (β : Type) where
  copy : Nat
  valid : Bool
  body : β
  headers : Table
  phase : Phase

/-- The copy that a failed delivery publishes. -/
def Delivery.retry {β : Type} (d : Delivery β) : Copy β :=
  ⟨d.body,retryHeaders (retryCount d.headers),.delayed⟩

structure Life (β : Type) where
  copies : List (Copy β)
  deliveries : List (Delivery β)
  calls : Nat

/-- The flags tell whether the external call succeeds. A failed publish stores nothing, a
failed ack or nack settles nothing. -/
inductive Label where
  | deliver (copy : Nat)
  | handle (delivery : Nat) (ok : Bool)
  | publishRetry (delivery : Nat) (ok : Bool)
  | ack (delivery : Nat) (ok : Bool)
  | nack (delivery : Nat) (ok : Bool)
  | expire (copy : Nat)
  | redeliver (copy : Nat)

variable {β : Type}

def Life.move (s : Life β) (i : Nat) (c : Copy β) (place : Place) : Life β :=
  { s with copies := s.copies.set i { c with place } }

def Life.turn (s : Life β) (j : Nat) (d : Delivery β) (phase : Phase) : Life β :=
  { s with deliveries := s.deliveries.set j { d with phase } }

/-- Only the consumer that still holds a copy can settle it. -/
def Life.settle (s : Life β) (j : Nat) (d : Delivery β) (ok : Bool) (place : Place) : Option (Life β) :=
  match ok, s.copies[d.copy]? with
  | false, _ => some (s.turn j d .done)
  | true, some c => if d.valid then some ((s.turn j d .done).move d.copy c place) else none
  | true, none => none

def step (wire : Wire) : Label → Life β → Option (Life β)
  | .deliver i, s =>
    match s.copies[i]? with
    | some c =>
      if c.place = .ready then some { s.move i c .unacked with
        deliveries := s.deliveries ++ [⟨i,true,c.body,wire.transmit c.headers,.received⟩] }
      else none
    | none => none
  | .handle j ok, s =>
    match s.deliveries[j]? with
    | some d =>
      if d.phase = .received then
        let phase := if ok then .succeeded else if retryCount d.headers ≥ maxRetries then .refused else .failed
        some { s.turn j d phase with calls := s.calls + 1 }
      else none
    | none => none
  | .publishRetry j ok, s =>
    match s.deliveries[j]? with
    | some d =>
      if d.phase = .failed then
        if ok then some { s.turn j d .published with
          copies := s.copies ++ [d.retry] }
        else some (s.turn j d .refused)
      else none
    | none => none
  | .ack j ok, s =>
    match s.deliveries[j]? with
    | some d =>
      if d.phase = .succeeded then s.settle j d ok .acked
      else if d.phase = .published then s.settle j d ok .replaced
      else none
    | none => none
  | .nack j ok, s =>
    match s.deliveries[j]? with
    | some d => if d.phase = .refused then s.settle j d ok .dead else none
    | none => none
  | .expire i, s =>
    match s.copies[i]? with
    | some c => if c.place = .delayed then some (s.move i c .ready) else none
    | none => none
  | .redeliver i, s =>
    match s.copies[i]? with
    | some c =>
      if c.place = .unacked then some { s.move i c .ready with
        deliveries := s.deliveries.map fun d => if d.copy = i then { d with valid := false } else d }
      else none
    | none => none

/-- A body that Publish has stored. -/
def life (wire : Wire) (body : β) : System (Life β) Label :=
  ⟨⟨[⟨body,[],.ready⟩],[],0⟩,step wire⟩

/-- No ack or nack fails, and the broker does not redeliver on its own. -/
def Faultless : Guard (Life β) Label
  | _, .ack _ ok | _, .nack _ ok => ok = true
  | _, .redeliver _ => False
  | _, .deliver _ | _, .handle .. | _, .publishRetry .. | _, .expire _ => True

inductive Whereabouts where
  | mainQueue
  | retryExchange
  | deadLetterQueue
  | acknowledged
  deriving DecidableEq

def Place.whereabouts : Place → Option Whereabouts
  | .ready | .unacked => some .mainQueue
  | .delayed => some .retryExchange
  | .dead => some .deadLetterQueue
  | .acked => some .acknowledged
  | .replaced => none

def Life.At (s : Life β) (body : β) (x : Whereabouts) : Prop :=
  ∃ c ∈ s.copies, c.body = body ∧ c.place.whereabouts = some x

/-- No call of handleFailedMessage is under way. -/
def Life.Quiet (s : Life β) : Prop := ∀ d ∈ s.deliveries, d.phase.failing = false

end System

section Moves

variable {β : Type} {wire : Wire} {s t : Life β} {label : Label} {body : β} {i j : Nat} {d : Delivery β}
  {c : Copy β} {ok : Bool} {place : Place}

/-- Where a settled delivery leaves its copy. -/
inductive Settles : Phase → Place → Prop where
  | acked : Settles .succeeded .acked
  | replaced : Settles .published .replaced
  | dead : Settles .refused .dead

/-- What a step may do. -/
inductive Moves (wire : Wire) (s : Life β) : Label → Life β → Prop where
  | deliver {i : Nat} {c : Copy β} (at_ : s.copies[i]? = some c) (ready : c.place = .ready) :
      Moves wire s (.deliver i) { s.move i c .unacked with
        deliveries := s.deliveries ++ [⟨i,true,c.body,wire.transmit c.headers,.received⟩] }
  | handle {j : Nat} {d : Delivery β} {ok : Bool} {phase : Phase} (at_ : s.deliveries[j]? = some d)
      (received : d.phase = .received)
      (next_ : phase = .succeeded ∨ phase = .refused ∨ phase = .failed ∧ retryCount d.headers < maxRetries) :
      Moves wire s (.handle j ok) { s.turn j d phase with calls := s.calls + 1 }
  | publish {j : Nat} {d : Delivery β} (at_ : s.deliveries[j]? = some d) (failed : d.phase = .failed) :
      Moves wire s (.publishRetry j true)
        ⟨s.copies ++ [d.retry],s.deliveries.set j { d with phase := .published },s.calls⟩
  | lose {j : Nat} {d : Delivery β} (at_ : s.deliveries[j]? = some d) (failed : d.phase = .failed) :
      Moves wire s (.publishRetry j false) (s.turn j d .refused)
  | drop {j : Nat} {d : Delivery β} {place : Place} {label : Label} (at_ : s.deliveries[j]? = some d)
      (settles : Settles d.phase place) (faulty : label = .ack j false ∨ label = .nack j false) :
      Moves wire s label (s.turn j d .done)
  | settle {j : Nat} {d : Delivery β} {c : Copy β} {place : Place} {label : Label}
      (at_ : s.deliveries[j]? = some d) (held : s.copies[d.copy]? = some c) (valid : d.valid = true)
      (settles : Settles d.phase place) : Moves wire s label ((s.turn j d .done).move d.copy c place)
  | expire {i : Nat} {c : Copy β} (at_ : s.copies[i]? = some c) (delayed : c.place = .delayed) :
      Moves wire s (.expire i) (s.move i c .ready)
  | redeliver {i : Nat} {c : Copy β} (at_ : s.copies[i]? = some c) (unacked : c.place = .unacked) :
      Moves wire s (.redeliver i) { s.move i c .ready with
        deliveries := s.deliveries.map fun d => if d.copy = i then { d with valid := false } else d }

theorem settle_moves (settled : s.settle j d ok place = some t) (at_ : s.deliveries[j]? = some d)
    (settles : Settles d.phase place) (label_ : label = .ack j ok ∨ label = .nack j ok) :
    Moves wire s label t := by
  unfold Life.settle at settled
  split at settled
  next => cases settled; exact .drop at_ settles label_
  next c held =>
    split at settled
    next valid => cases settled; exact .settle at_ held valid settles
    next => contradiction
  next => contradiction

theorem step_moves (stepped : step wire label s = some t) : Moves wire s label t := by
  cases label with
  | deliver i =>
    simp only [step] at stepped
    split at stepped
    next c at_ =>
      split at stepped
      next ready => cases stepped; exact .deliver at_ ready
      next => contradiction
    next => contradiction
  | handle j ok =>
    simp only [step] at stepped
    split at stepped
    next d at_ =>
      split at stepped
      next received =>
        cases stepped
        refine .handle at_ received ?_
        split
        next => exact .inl rfl
        next =>
          split
          next => exact .inr (.inl rfl)
          next few => exact .inr (.inr ⟨rfl,Int.not_le.mp few⟩)
      next => contradiction
    next => contradiction
  | publishRetry j ok =>
    simp only [step] at stepped
    split at stepped
    next d at_ =>
      split at stepped
      next failed =>
        cases ok with
        | true => cases stepped; exact .publish at_ failed
        | false => cases stepped; exact .lose at_ failed
      next => contradiction
    next => contradiction
  | ack j ok =>
    simp only [step] at stepped
    split at stepped
    next d at_ =>
      split at stepped
      next succeeded => exact settle_moves stepped at_ (succeeded ▸ .acked) (.inl rfl)
      next =>
        split at stepped
        next published => exact settle_moves stepped at_ (published ▸ .replaced) (.inl rfl)
        next => contradiction
    next => contradiction
  | nack j ok =>
    simp only [step] at stepped
    split at stepped
    next d at_ =>
      split at stepped
      next refused => exact settle_moves stepped at_ (refused ▸ .dead) (.inr rfl)
      next => contradiction
    next => contradiction
  | expire i =>
    simp only [step] at stepped
    split at stepped
    next c at_ =>
      split at stepped
      next delayed => cases stepped; exact .expire at_ delayed
      next => contradiction
    next => contradiction
  | redeliver i =>
    simp only [step] at stepped
    split at stepped
    next c at_ =>
      split at stepped
      next unacked => cases stepped; exact .redeliver at_ unacked
      next => contradiction
    next => contradiction

end Moves

section Kept

variable {β : Type} {wire : Wire} {s t : Life β} {label : Label} {body : β}

/-- A copy is replaced only by a later one, so the last copy never is. -/
structure Heirs (body : β) (s : Life β) : Prop where
  some_ : s.copies ≠ []
  bodies : ∀ c ∈ s.copies, c.body = body
  delivered : ∀ d ∈ s.deliveries, d.body = body ∧ d.copy < s.copies.length
  published : ∀ d ∈ s.deliveries, d.phase = .published → d.copy + 1 < s.copies.length
  replaced : ∀ i c, s.copies[i]? = some c → c.place = .replaced → i + 1 < s.copies.length

/-- A copy that moves, but is not replaced, changes nothing about heirs. -/
theorem Heirs.move {i : Nat} {c : Copy β} {place : Place} (heirs : Heirs body s) (at_ : s.copies[i]? = some c)
    (heir : place = .replaced → i + 1 < s.copies.length) : Heirs body (s.move i c place) where
  some_ := by simpa [Life.move] using heirs.some_
  bodies := Pool.forall_set heirs.bodies (heirs.bodies c (List.mem_of_getElem? at_))
  delivered := by simpa [Life.move] using heirs.delivered
  published := by simpa [Life.move] using heirs.published
  replaced := by
    intro k x get gone
    simp only [Life.move,List.length_set]
    rcases Pool.get_set_cases get with ⟨rfl,rfl⟩ | ⟨_,old⟩
    · exact heir gone
    · exact heirs.replaced k x old gone

theorem Heirs.turn {j : Nat} {d : Delivery β} {phase : Phase} (heirs : Heirs body s)
    (at_ : s.deliveries[j]? = some d) (later : phase = .published → d.copy + 1 < s.copies.length) :
    Heirs body (s.turn j d phase) where
  some_ := heirs.some_
  bodies := heirs.bodies
  delivered := Pool.forall_set heirs.delivered (heirs.delivered d (List.mem_of_getElem? at_))
  published := Pool.forall_set heirs.published later
  replaced := heirs.replaced

theorem Settles.published {phase : Phase} (settles : Settles phase .replaced) : phase = .published := by
  cases settles
  rfl

theorem Heirs.step (heirs : Heirs body s) (moves : Moves wire s label t) : Heirs body t := by
  cases moves with
  | @deliver i c at_ ready =>
    have moved : Heirs body (s.move i c .unacked) := heirs.move at_ nofun
    have within : i < (s.move i c .unacked).copies.length := by
      simpa [Life.move] using (List.getElem?_eq_some_iff.mp at_).1
    have same := heirs.bodies c (List.mem_of_getElem? at_)
    exact ⟨moved.some_,moved.bodies,Pool.forall_append moved.delivered ⟨same,within⟩,
      Pool.forall_append moved.published nofun,moved.replaced⟩
  | @handle j d ok phase at_ received next_ =>
    have turned : Heirs body (s.turn j d phase) := by
      refine heirs.turn at_ ?_
      rintro rfl
      rcases next_ with is | is | ⟨is,_⟩ <;> contradiction
    exact ⟨turned.some_,turned.bodies,turned.delivered,turned.published,turned.replaced⟩
  | @publish j d at_ failed =>
    have member := List.mem_of_getElem? at_
    have longer : ∀ n, n < s.copies.length →
        n < (s.copies ++ [d.retry]).length := by
      intro n within
      rw [List.length_append]
      omega
    obtain ⟨same,within⟩ := heirs.delivered d member
    constructor
    · simp
    · exact Pool.forall_append heirs.bodies same
    · refine Pool.forall_set (fun e old => ?_) ⟨same,longer d.copy within⟩
      exact ⟨(heirs.delivered e old).1,longer e.copy (heirs.delivered e old).2⟩
    · refine Pool.forall_set (fun e old is => longer _ (heirs.published e old is)) fun _ => ?_
      simp only [List.length_append,List.length_singleton]
      omega
    · intro k x get gone
      dsimp only at get
      rw [List.getElem?_append] at get
      split at get
      next => exact longer _ (heirs.replaced k x get gone)
      next =>
        rw [List.mem_singleton.mp (List.mem_of_getElem? get)] at gone
        contradiction
  | lose at_ failed => exact heirs.turn at_ nofun
  | drop at_ settles faulty => exact heirs.turn at_ nofun
  | @settle j d c place _ at_ held valid settles =>
    have turned : Heirs body (s.turn j d .done) := heirs.turn at_ nofun
    refine turned.move held ?_
    rintro rfl
    exact heirs.published d (List.mem_of_getElem? at_) settles.published
  | expire at_ delayed => exact heirs.move at_ nofun
  | @redeliver i c at_ unacked =>
    have moved : Heirs body (s.move i c .ready) := heirs.move at_ nofun
    refine ⟨moved.some_,moved.bodies,?_,?_,moved.replaced⟩
    · intro e member
      obtain ⟨d,old,rfl⟩ := List.mem_map.mp member
      split <;> exact moved.delivered d old
    · intro e member
      obtain ⟨d,old,rfl⟩ := List.mem_map.mp member
      split <;> exact moved.published d old

theorem reach_heirs {ok : Guard (Life β) Label} (reach : Reach (life wire body) ok s) : Heirs body s := by
  refine reach.invariant (Heirs body) ?_ ?_
  · refine ⟨by simp [life],by simp [life],by simp [life],by simp [life],?_⟩
    intro i c get gone
    have first : c = ⟨body,[],.ready⟩ := List.mem_singleton.mp (List.mem_of_getElem? get)
    rw [first] at gone
    contradiction
  · intro s label t _ heirs _ stepped
    exact heirs.step (step_moves stepped)

theorem Heirs.at (heirs : Heirs body s) : ∃ x, s.At body x := by
  obtain ⟨c,member,last⟩ : ∃ c, c ∈ s.copies ∧ s.copies[s.copies.length - 1]? = some c := by
    refine ⟨s.copies.getLast heirs.some_,List.getLast_mem _,?_⟩
    rw [← List.getLast?_eq_getElem?,List.getLast?_eq_some_getLast]
  have kept : c.place ≠ .replaced := by
    intro gone
    have later := heirs.replaced _ c last gone
    omega
  cases place : c.place with
  | replaced => exact absurd place kept
  | ready | unacked => exact ⟨.mainQueue,c,member,heirs.bodies c member,by rw [place]; rfl⟩
  | delayed => exact ⟨.retryExchange,c,member,heirs.bodies c member,by rw [place]; rfl⟩
  | dead => exact ⟨.deadLetterQueue,c,member,heirs.bodies c member,by rw [place]; rfl⟩
  | acked => exact ⟨.acknowledged,c,member,heirs.bodies c member,by rw [place]; rfl⟩

end Kept

section Once

variable {β : Type} {wire : Wire} {s t : Life β} {label : Label} {body : β}

/-- What a delivery says about its copy when nothing is redelivered: a copy under way is
the last one until the next copy is published. -/
def Fits (length : Nat) (d : Delivery β) (place : Place) : Prop :=
  match d.phase with
  | .received | .succeeded | .refused => place = .unacked ∧ d.copy + 1 = length
  | .failed => place = .unacked ∧ d.copy + 1 = length ∧ d.copy < maxRetries
  | .published => place = .unacked ∧ d.copy + 1 < length
  | .done => (place = .acked ∨ place = .dead) ∧ d.copy + 1 = length ∨ place = .replaced ∧ d.copy + 1 < length

/-- Nobody has taken a copy yet. -/
def Place.waiting : Place → Bool
  | .ready | .delayed => true
  | .unacked | .dead | .acked | .replaced => false

/-- Without faults each copy is delivered once and carries its number as retry count. -/
structure Orderly (wire : Wire) (s : Life β) : Prop where
  apart : (s.deliveries.map (·.copy)).Nodup
  counted : ∀ (i : Nat) c, s.copies[i]? = some c → retryCount (wire.transmit c.headers) = i
  carried : ∀ d ∈ s.deliveries, retryCount d.headers = d.copy
  fits : ∀ d ∈ s.deliveries, d.valid = true ∧
    ∃ c, s.copies[d.copy]? = some c ∧ Fits s.copies.length d c.place
  waiting : ∀ (i : Nat) c, s.copies[i]? = some c → c.place.waiting = true →
    i + 1 = s.copies.length ∧ i ∉ s.deliveries.map (·.copy)
  taken : ∀ (i : Nat) c, s.copies[i]? = some c → c.place.waiting = false → i ∈ s.deliveries.map (·.copy)
  few : s.copies.length ≤ maxRetries + 1

variable {j : Nat} {d : Delivery β} {c : Copy β} {phase : Phase} {place : Place}

theorem turn_copies (at_ : s.deliveries[j]? = some d) (phase : Phase) :
    (s.deliveries.set j { d with phase }).map (·.copy) = s.deliveries.map (·.copy) := by
  rw [List.map_set]
  exact Pool.set_same (by rw [List.getElem?_map,at_]; rfl)

theorem Orderly.alone {k : Nat} {e : Delivery β} (orderly : Orderly wire s) (at_ : s.deliveries[j]? = some d)
    (get : s.deliveries[k]? = some e) (same : d.copy = e.copy) : j = k := by
  have bound := (List.getElem?_eq_some_iff.mp at_).1
  refine (List.getElem?_inj (by simpa using bound) orderly.apart).mp ?_
  rw [List.getElem?_map,List.getElem?_map,at_,get]
  exact congrArg some same

/-- A copy keeps its retry count wherever it goes. -/
theorem Orderly.counted_set {i k : Nat} {x : Copy β} (orderly : Orderly wire s) (at_ : s.copies[i]? = some c)
    (get : (s.copies.set i { c with place })[k]? = some x) : retryCount (wire.transmit x.headers) = k := by
  rcases Pool.get_set_cases get with ⟨rfl,rfl⟩ | ⟨_,old⟩
  · exact orderly.counted k c at_
  · exact orderly.counted k x old

/-- A delivery goes on and its copy with it. -/
theorem Orderly.advance (orderly : Orderly wire s) (at_ : s.deliveries[j]? = some d)
    (held : s.copies[d.copy]? = some c) (busy : place.waiting = false)
    (fits : Fits s.copies.length { d with phase } place) (calls : Nat) :
    Orderly wire ⟨s.copies.set d.copy { c with place },s.deliveries.set j { d with phase },calls⟩ := by
  have bound := (List.getElem?_eq_some_iff.mp held).1
  have member : d.copy ∈ s.deliveries.map (·.copy) := List.mem_map_of_mem (List.mem_of_getElem? at_)
  constructor
  · exact turn_copies at_ phase ▸ orderly.apart
  · exact fun k x get => orderly.counted_set held get
  · exact Pool.forall_set orderly.carried (orderly.carried d (List.mem_of_getElem? at_))
  · intro e later
    rw [List.length_set]
    rcases Pool.mem_set_cases later with rfl | ⟨k,other,get⟩
    · refine ⟨(orderly.fits d (List.mem_of_getElem? at_)).1,{ c with place },?_,fits⟩
      exact List.getElem?_set_self bound
    · obtain ⟨valid,x,stored,old⟩ := orderly.fits e (List.mem_of_getElem? get)
      refine ⟨valid,x,?_,old⟩
      have apart : d.copy ≠ e.copy := by
        intro same
        exact other (orderly.alone get at_ same.symm)
      rw [List.getElem?_set_ne apart]
      exact stored
  · intro k x get waits
    rcases Pool.get_set_cases get with ⟨rfl,rfl⟩ | ⟨_,old⟩
    · exact absurd waits (by simp [busy])
    · rw [List.length_set,turn_copies at_]
      exact orderly.waiting k x old waits
  · intro k x get busy
    rw [turn_copies at_]
    rcases Pool.get_set_cases get with ⟨rfl,rfl⟩ | ⟨_,old⟩
    · exact member
    · exact orderly.taken k x old busy
  · rw [List.length_set]
    exact orderly.few

/-- The same for a delivery whose copy stays where it is. -/
theorem Orderly.turn (orderly : Orderly wire s) (at_ : s.deliveries[j]? = some d)
    (held : s.copies[d.copy]? = some c) (busy : c.place.waiting = false)
    (fits : Fits s.copies.length { d with phase } c.place) (calls : Nat) :
    Orderly wire ⟨s.copies,s.deliveries.set j { d with phase },calls⟩ := by
  have same : s.copies.set d.copy { c with place := c.place } = s.copies := Pool.set_same held
  have advanced := orderly.advance at_ held busy fits calls
  rw [same] at advanced
  exact advanced

/-- A copy that nobody has taken moves without its deliveries noticing. -/
theorem Orderly.others {i : Nat} (orderly : Orderly wire s) (fresh : i ∉ s.deliveries.map (·.copy))
    (x : Copy β) : ∀ e ∈ s.deliveries, e.valid = true ∧
      ∃ c, (s.copies.set i x)[e.copy]? = some c ∧ Fits (s.copies.set i x).length e c.place := by
  intro e member
  obtain ⟨valid,c,stored,fits⟩ := orderly.fits e member
  have apart : i ≠ e.copy := by
    rintro rfl
    exact fresh (List.mem_map_of_mem member)
  rw [List.getElem?_set_ne apart,List.length_set]
  exact ⟨valid,c,stored,fits⟩

/-- A delivery of an earlier copy does not notice a new one. -/
theorem Fits.longer {n : Nat} (fits : Fits n d place) (earlier : d.copy + 1 ≠ n) : Fits (n + 1) d place := by
  unfold Fits at fits ⊢
  split at fits
  next => exact absurd fits.2 earlier
  next => exact absurd fits.2 earlier
  next => exact absurd fits.2 earlier
  next => exact absurd fits.2.1 earlier
  next => exact ⟨fits.1,by omega⟩
  next =>
    rcases fits with ⟨_,last⟩ | ⟨replaced,before⟩
    · exact absurd last earlier
    · exact .inr ⟨replaced,by omega⟩

theorem Settles.fits {n : Nat} (settles : Settles d.phase place) (fits : Fits n d c.place) :
    place.waiting = false ∧ Fits n { d with phase := .done } place := by
  unfold Fits at fits ⊢
  generalize d.phase = phase at settles fits
  cases settles with
  | acked => exact ⟨rfl,.inl ⟨.inl rfl,fits.2⟩⟩
  | replaced => exact ⟨rfl,.inr ⟨rfl,fits.2⟩⟩
  | dead => exact ⟨rfl,.inl ⟨.inr rfl,fits.2⟩⟩

theorem retryCount_transmit (wire : Wire) (count : Int) :
    retryCount (wire.transmit (retryHeaders count)) = count + 1 := by
  have kept : (wire.transmit (retryHeaders count)).lookup "x-retry-count" = some (.int32 (count + 1)) := by
    rw [wire.faithful]
    · rfl
    · intro field found
      exact ⟨count + 1,(Option.some.inj found).symm⟩
  rw [retryCount,kept]

theorem retryCount_first (wire : Wire) : retryCount (wire.transmit []) = 0 := by
  rw [retryCount,wire.faithful [] _ nofun]
  rfl

theorem Orderly.held (orderly : Orderly wire s) (at_ : s.deliveries[j]? = some d) :
    ∃ c, s.copies[d.copy]? = some c ∧ Fits s.copies.length d c.place :=
  (orderly.fits d (List.mem_of_getElem? at_)).2

theorem get_append_cases {l : List (Copy β)} {k : Nat} {x y : Copy β} (get : (l ++ [y])[k]? = some x) :
    l[k]? = some x ∨ k = l.length ∧ x = y := by
  rw [List.getElem?_append] at get
  split at get
  next => exact .inl get
  next after =>
    have bound := (List.getElem?_eq_some_iff.mp get).1
    rw [List.length_singleton] at bound
    exact .inr ⟨by omega,List.mem_singleton.mp (List.mem_of_getElem? get)⟩

/-- The last copy gets a successor, which its own delivery still has to make room for. -/
theorem Orderly.publish (orderly : Orderly wire s) (at_ : s.deliveries[j]? = some d)
    (failed : d.phase = .failed) : Orderly wire
      ⟨s.copies ++ [d.retry],s.deliveries.set j { d with phase := .published },s.calls⟩ := by
  obtain ⟨c,held,fits⟩ := orderly.held at_
  simp only [Fits,failed] at fits
  obtain ⟨unacked,last,few⟩ := fits
  have member := List.mem_of_getElem? at_
  have carried := orderly.carried d member
  have longer : (s.copies ++ [d.retry]).length = s.copies.length + 1 := by simp
  have earlier : ∀ e ∈ s.deliveries, e.copy < s.copies.length := by
    intro e listed
    obtain ⟨_,x,stored,_⟩ := orderly.fits e listed
    exact (List.getElem?_eq_some_iff.mp stored).1
  have kept : ∀ e ∈ s.deliveries, (s.copies ++ [d.retry])[e.copy]? = s.copies[e.copy]? :=
    fun e listed => List.getElem?_append_left (earlier e listed)
  constructor
  · exact turn_copies at_ .published ▸ orderly.apart
  · intro k x get
    rcases get_append_cases get with old | ⟨rfl,rfl⟩
    · exact orderly.counted k x old
    · rw [Delivery.retry,retryCount_transmit,carried]
      omega
  · exact Pool.forall_set orderly.carried carried
  · intro e later
    dsimp only
    rw [longer]
    rcases Pool.mem_set_cases later with rfl | ⟨k,other,get⟩
    · have within : d.copy + 1 < s.copies.length + 1 := by omega
      exact ⟨(orderly.fits d member).1,c,(kept d member).trans held,unacked,within⟩
    · have listed := List.mem_of_getElem? get
      obtain ⟨valid,x,stored,fits⟩ := orderly.fits e listed
      refine ⟨valid,x,(kept e listed).trans stored,?_⟩
      -- nobody else holds the last copy
      have apart : e.copy + 1 ≠ s.copies.length := by
        intro same
        have copy : d.copy = e.copy := by omega
        exact other (orderly.alone at_ get copy).symm
      exact fits.longer apart
  · intro k x get waits
    dsimp only
    rw [longer,turn_copies at_]
    rcases get_append_cases get with old | ⟨rfl,rfl⟩
    · obtain ⟨end_,fresh⟩ := orderly.waiting k x old waits
      have copy : k = d.copy := by omega
      exact absurd (List.mem_map_of_mem member) (copy ▸ fresh)
    · refine ⟨rfl,fun listed => ?_⟩
      obtain ⟨e,listed,same⟩ := List.mem_map.mp listed
      have within := earlier e listed
      omega
  · intro k x get busy
    rw [turn_copies at_]
    rcases get_append_cases get with old | ⟨rfl,rfl⟩
    · exact orderly.taken k x old busy
    · contradiction
  · dsimp only
    rw [longer]
    omega

theorem Orderly.deliver {i : Nat} (orderly : Orderly wire s) (at_ : s.copies[i]? = some c)
    (ready : c.place = .ready) : Orderly wire { s.move i c .unacked with
      deliveries := s.deliveries ++ [⟨i,true,c.body,wire.transmit c.headers,.received⟩] } := by
  obtain ⟨last,fresh⟩ := orderly.waiting i c at_ (by rw [ready]; rfl)
  have bound := (List.getElem?_eq_some_iff.mp at_).1
  constructor
  · simp only [List.map_append,List.nodup_append]
    refine ⟨orderly.apart,List.nodup_singleton _,?_⟩
    rintro k member _ new rfl
    rw [List.mem_singleton.mp new] at member
    exact fresh member
  · exact fun k x get => orderly.counted_set at_ get
  · exact Pool.forall_append orderly.carried (orderly.counted i c at_)
  · refine Pool.forall_append (orderly.others fresh _) ⟨rfl,{ c with place := .unacked },?_,?_⟩
    · exact List.getElem?_set_self bound
    · exact ⟨rfl,last.trans (List.length_set ..).symm⟩
  · intro k x get waits
    rcases Pool.get_set_cases get with ⟨rfl,rfl⟩ | ⟨other,old⟩
    · contradiction
    · obtain ⟨end_,_⟩ := orderly.waiting k x old waits
      omega
  · intro k x get busy
    rw [List.map_append]
    rcases Pool.get_set_cases get with ⟨rfl,rfl⟩ | ⟨_,old⟩
    · exact List.mem_append_right _ (List.mem_singleton_self _)
    · exact List.mem_append_left _ (orderly.taken k x old busy)
  · rw [Life.move,List.length_set]
    exact orderly.few

theorem Orderly.expire {i : Nat} (orderly : Orderly wire s) (at_ : s.copies[i]? = some c)
    (delayed : c.place = .delayed) : Orderly wire (s.move i c .ready) := by
  have waits : c.place.waiting = true := by rw [delayed]; rfl
  obtain ⟨_,fresh⟩ := orderly.waiting i c at_ waits
  constructor
  · exact orderly.apart
  · exact fun k x get => orderly.counted_set at_ get
  · exact orderly.carried
  · exact orderly.others fresh _
  · intro k x get waiting
    rw [Life.move,List.length_set]
    rcases Pool.get_set_cases get with ⟨rfl,rfl⟩ | ⟨_,old⟩
    · exact orderly.waiting k c at_ waits
    · exact orderly.waiting k x old waiting
  · intro k x get busy
    rcases Pool.get_set_cases get with ⟨rfl,rfl⟩ | ⟨_,old⟩
    · contradiction
    · exact orderly.taken k x old busy
  · rw [Life.move,List.length_set]
    exact orderly.few

theorem Orderly.step (orderly : Orderly wire s) (faultless : Faultless s label)
    (moves : Moves wire s label t) : Orderly wire t := by
  cases moves with
  | deliver at_ ready => exact orderly.deliver at_ ready
  | @handle j d ok phase at_ received next_ =>
    obtain ⟨c,held,fits⟩ := orderly.held at_
    simp only [Fits,received] at fits
    have busy : c.place.waiting = false := by rw [fits.1]; rfl
    refine orderly.turn at_ held busy ?_ (s.calls + 1)
    rcases next_ with rfl | rfl | ⟨rfl,few⟩
    · exact fits
    · exact fits
    · have carried := orderly.carried d (List.mem_of_getElem? at_)
      have within : d.copy < maxRetries := by omega
      exact ⟨fits.1,fits.2,within⟩
  | publish at_ failed => exact orderly.publish at_ failed
  | @lose j d at_ failed =>
    obtain ⟨c,held,fits⟩ := orderly.held at_
    simp only [Fits,failed] at fits
    have busy : c.place.waiting = false := by rw [fits.1]; rfl
    have refused : Fits s.copies.length { d with phase := .refused } c.place := ⟨fits.1,fits.2.1⟩
    exact orderly.turn at_ held busy refused s.calls
  | drop at_ settles faulty =>
    rcases faulty with rfl | rfl
    · exact absurd faultless (by simp [Faultless])
    · exact absurd faultless (by simp [Faultless])
  | @settle j d c place _ at_ held valid settles =>
    obtain ⟨c',held',fits⟩ := orderly.held at_
    obtain rfl := Option.some.inj (held.symm.trans held')
    obtain ⟨busy,settled⟩ := settles.fits fits
    exact orderly.advance at_ held busy settled s.calls
  | expire at_ delayed => exact orderly.expire at_ delayed
  | redeliver at_ unacked => exact absurd faultless (by simp [Faultless])

theorem reach_orderly (reach : Reach (life wire body) Faultless s) : Orderly wire s := by
  refine reach.invariant (Orderly wire) ?_ ?_
  · have only : ∀ (i : Nat) c, (life wire body).init.copies[i]? = some c → i = 0 ∧ c = ⟨body,[],.ready⟩ := by
      intro i c get
      have bound : i < 1 := (List.getElem?_eq_some_iff.mp get).1
      exact ⟨by omega,List.mem_singleton.mp (List.mem_of_getElem? get)⟩
    refine ⟨by simp [life],?_,by simp [life],by simp [life],?_,?_,by simp [life]⟩
    · intro i c get
      obtain ⟨rfl,rfl⟩ := only i c get
      exact retryCount_first wire
    · intro i c get _
      obtain ⟨rfl,rfl⟩ := only i c get
      exact ⟨rfl,by simp [life]⟩
    · intro i c get busy
      obtain ⟨rfl,rfl⟩ := only i c get
      contradiction
  · intro s label t _ orderly faultless stepped
    exact orderly.step faultless (step_moves stepped)

/-- Outside handleFailedMessage every copy but the last has been replaced. -/
theorem Orderly.replaced {i : Nat} (orderly : Orderly wire s) (quiet : s.Quiet)
    (get : s.copies[i]? = some c) (earlier : i + 1 < s.copies.length) : c.place = .replaced := by
  have busy : c.place.waiting = false := by
    cases waits : c.place.waiting with
    | false => rfl
    | true =>
      obtain ⟨last,_⟩ := orderly.waiting i c get waits
      omega
  obtain ⟨d,member,rfl⟩ := List.mem_map.mp (orderly.taken i c get busy)
  obtain ⟨_,c',get',fits⟩ := orderly.fits d member
  obtain rfl := Option.some.inj (get.symm.trans get')
  have calm := quiet d member
  unfold Fits at fits
  split at fits
  next => omega
  next => omega
  next => omega
  next => omega
  next published => rw [published] at calm; contradiction
  next =>
    rcases fits with ⟨_,last⟩ | ⟨replaced,_⟩
    · omega
    · exact replaced

/-- Hence the body is in one place only. -/
theorem Orderly.unique (orderly : Orderly wire s) (heirs : Heirs body s) (quiet : s.Quiet) :
    ∃! x, s.At body x := by
  obtain ⟨x,here⟩ := heirs.at
  have last : ∀ y, s.At body y → s.copies.getLast?.bind (·.place.whereabouts) = some y := by
    rintro y ⟨c,member,_,is⟩
    obtain ⟨i,get⟩ := List.mem_iff_getElem?.mp member
    have bound := (List.getElem?_eq_some_iff.mp get).1
    have end_ : i = s.copies.length - 1 := by
      by_contra other
      have gone := orderly.replaced quiet get (by omega)
      rw [gone] at is
      contradiction
    rw [List.getLast?_eq_getElem?,← end_,get]
    exact is
  refine ⟨x,here,fun y there => ?_⟩
  exact Option.some.inj ((last y there).symm.trans (last x here))

end Once

section Calls

variable {β : Type} {wire : Wire} {s t : Life β} {label : Label} {body : β}

/-- A delivery whose handler has been called. -/
def Delivery.handled (d : Delivery β) : Bool := d.phase ≠ .received

theorem Settles.handled {d : Delivery β} {place : Place} (settles : Settles d.phase place) :
    d.handled = true := by
  unfold Delivery.handled
  generalize d.phase = phase at settles
  cases settles <;> rfl

/-- Each delivery is handled once. -/
def Counted (s : Life β) : Prop := s.calls = s.deliveries.countP Delivery.handled

theorem Counted.turn {j : Nat} {d : Delivery β} {phase : Phase} (counted : Counted s)
    (at_ : s.deliveries[j]? = some d) (before : d.handled = true) (after : phase ≠ .received) :
    Counted (s.turn j d phase) := by
  obtain ⟨bound,rfl⟩ := List.getElem?_eq_some_iff.mp at_
  have some_ : 0 < s.deliveries.countP Delivery.handled :=
    List.countP_pos_iff.mpr ⟨_,List.getElem_mem bound,before⟩
  have new : Delivery.handled { s.deliveries[j] with phase } = true := by simp [Delivery.handled,after]
  simp only [Counted,Life.turn,List.countP_set bound,before,new,if_true] at counted ⊢
  omega

theorem Counted.step (counted : Counted s) (moves : Moves wire s label t) : Counted t := by
  cases moves with
  | deliver at_ ready =>
    simpa [Counted,Life.move,List.countP_append,Delivery.handled] using counted
  | @handle j d ok phase at_ received next_ =>
    obtain ⟨bound,rfl⟩ := List.getElem?_eq_some_iff.mp at_
    have before : Delivery.handled s.deliveries[j] = false := by simp [Delivery.handled,received]
    have after : phase ≠ .received := by
      rcases next_ with rfl | rfl | ⟨rfl,_⟩ <;> nofun
    have new : Delivery.handled { s.deliveries[j] with phase } = true := by simp [Delivery.handled,after]
    simp only [Counted,Life.turn,List.countP_set bound,before,new] at counted ⊢
    simp [counted]
  | publish at_ failed => exact counted.turn at_ (by simp [Delivery.handled,failed]) nofun
  | lose at_ failed => exact counted.turn at_ (by simp [Delivery.handled,failed]) nofun
  | drop at_ settles faulty => exact counted.turn at_ settles.handled nofun
  | settle at_ held valid settles => exact counted.turn at_ settles.handled nofun
  | expire at_ delayed => exact counted
  | @redeliver i c at_ unacked =>
    refine counted.trans ?_
    simp only [List.countP_map]
    refine List.countP_congr fun d _ => ?_
    simp only [Function.comp_apply]
    split <;> rfl

theorem reach_counted {ok : Guard (Life β) Label} (reach : Reach (life wire body) ok s) : Counted s := by
  refine reach.invariant Counted ?_ ?_
  · rfl
  · intro s label t _ counted _ stepped
    exact counted.step (step_moves stepped)

/-- Every copy is delivered once, so there are no more calls than copies. -/
theorem Orderly.calls (orderly : Orderly wire s) (counted : Counted s) : s.calls ≤ maxRetries + 1 := by
  have handled : s.calls ≤ s.deliveries.length := counted ▸ List.countP_le_length
  have delivered : s.deliveries.length ≤ s.copies.length := by
    have within : s.deliveries.map (·.copy) ⊆ List.range s.copies.length := by
      intro i listed
      obtain ⟨d,member,rfl⟩ := List.mem_map.mp listed
      obtain ⟨_,c,stored,_⟩ := orderly.fits d member
      exact List.mem_range.mpr (List.getElem?_eq_some_iff.mp stored).1
    simpa using (List.subperm_of_subset orderly.apart within).length_le
  exact Nat.le_trans handled (Nat.le_trans delivered orderly.few)

/-- A stored body is never lost, and without faults it is in one place and tried at most
four times. -/
theorem message_conserved (wire : Wire) (body : β) :
    (∀ s, Reach (life wire body) (fun _ _ => True) s → ∃ x, s.At body x) ∧
    ∀ s, Reach (life wire body) Faultless s →
      (s.Quiet → ∃! x, s.At body x) ∧ s.calls ≤ maxRetries + 1 := by
  refine ⟨fun s reach => (reach_heirs reach).at,fun s reach => ⟨fun quiet => ?_,?_⟩⟩
  · exact (reach_orderly reach).unique (reach_heirs reach) quiet
  · exact (reach_orderly reach).calls (reach_counted reach)

end Calls

section Runs

/-- A client library that keeps headers as they are. -/
def Wire.exact : Wire := ⟨id,fun _ _ _ => rfl⟩

instance {β : Type} (s : Life β) : (label : Label) → Decidable (Faultless s label)
  | .ack _ ok | .nack _ ok => inferInstanceAs (Decidable (ok = true))
  | .redeliver _ => isFalse id
  | .deliver _ | .handle .. | .publishRetry .. | .expire _ => isTrue trivial

/-- A task that fails four times ends in the dead-letter queue. -/
theorem message_dead : ∃ s, Reach (life Wire.exact "task") Faultless s ∧
    (s.copies.map (·.place) = [.replaced,.replaced,.replaced,.dead] ∧ s.calls = 4) ∧
    s.calls ≤ maxRetries + 1 := by
  have run : ∃ s, Reach (life Wire.exact "task") Faultless s ∧
      (s.copies.map (·.place) = [.replaced,.replaced,.replaced,.dead] ∧ s.calls = 4) :=
    follow_exists [.deliver 0,.handle 0 false,.publishRetry 0 true,.ack 0 true,.expire 1,
      .deliver 1,.handle 1 false,.publishRetry 1 true,.ack 1 true,.expire 2,
      .deliver 2,.handle 2 false,.publishRetry 2 true,.ack 2 true,.expire 3,
      .deliver 3,.handle 3 false,.nack 3 true] (by decide +kernel)
  obtain ⟨s,reach,shape⟩ := run
  exact ⟨s,reach,shape,((message_conserved Wire.exact "task").2 s reach).2⟩

end Runs

end TinyAutomator.Messages
