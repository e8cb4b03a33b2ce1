import Mathlib.Data.Finset.Basic
import Mathlib.Data.Finset.Dedup
import TinyAutomator.Lib.Transition

/-! The progress updates of all runs and the clients that watch them. The listener dispatches
an update to every channel registered for its run; a client registers its channel, reads
from it, and at its end unregisters and closes it. -/
namespace TinyAutomator.Run.FanOut

open Transition

abbrev RunID := String

/-- A channel, by its number. -/
abbrev ClientID := Nat

/-- Where StreamWorkflowRunProgress stands with its channel. -/
inductive Phase where
  | connecting
  | registered (run : RunID)
  | unregistered
  deriving DecidableEq

structure Client (β : Type) where
  phase : Phase
  buffer : List β
  closed : Bool
  received : List β

/-- The mutex sections in the order they happened, and for a dispatch the clients whose
buffer was full. -/
inductive Event (β : Type) where
  | registered (c : ClientID) (run : RunID)
  | removed (c : ClientID)
  | dispatched (run : RunID) (message : β) (full : ClientID → Bool)

/-- WorkflowRunService with its clients; the newest event is the first of the log. -/
structure Service (β : Type) where
  activeRunSubscribers : RunID → Option (Finset ClientID)
  clients : ClientID → Client β
  crashed : Bool
  log : List (Event β)

/-- The subscribers of a run come out of a map: in any order. -/
inductive Label (β : Type) where
  | register (c : ClientID) (run : RunID)
  | receive (c : ClientID)
  | unregister (c : ClientID)
  | close (c : ClientID)
  | dispatch (run : RunID) (message : β) (order : List ClientID)

def bufferSize : Nat := 10

section Code

variable {β : Type}

def Client.full (client : Client β) : Bool := bufferSize ≤ client.buffer.length

def Client.offer (client : Client β) (message : β) : Client β :=
  if client.full then client else { client with buffer := client.buffer ++ [message] }

/-- A select with a default: a full channel is skipped, a closed one panics. -/
def Client.send (client : Client β) (message : β) : Option (Client β) :=
  if client.closed then none else some (client.offer message)

/-- The loop of dispatchUpdate. -/
def sendAll (message : β) : List ClientID → (ClientID → Client β) → Option (ClientID → Client β)
  | [], clients => some clients
  | c :: rest, clients =>
    match (clients c).send message with
    | none => none
    | some client => sendAll message rest (Function.update clients c client)

def dispatchUpdate (s : Service β) (run : RunID) (message : β) (order : List ClientID) : Service β :=
  let log := .dispatched run message (fun c => (s.clients c).full) :: s.log
  match s.activeRunSubscribers run with
  | none => { s with log }
  | some _ =>
    match sendAll message order s.clients with
    | none => { s with crashed := true, log }
    | some clients => { s with clients, log }

def registerClient (subscribers : RunID → Option (Finset ClientID)) (run : RunID) (c : ClientID) :
    RunID → Option (Finset ClientID) :=
  Function.update subscribers run (some (insert c ((subscribers run).getD ∅)))

def unregisterClient (subscribers : RunID → Option (Finset ClientID)) (run : RunID) (c : ClientID) :
    RunID → Option (Finset ClientID) :=
  match subscribers run with
  | none => subscribers
  | some clients =>
    if c ∈ clients then
      Function.update subscribers run (if clients.erase c = ∅ then none else some (clients.erase c))
    else subscribers

def Service.setClient (s : Service β) (c : ClientID) (client : Client β) : Service β :=
  { s with clients := Function.update s.clients c client }

def Service.subscribers (s : Service β) (run : RunID) : Finset ClientID :=
  (s.activeRunSubscribers run).getD ∅

/-- A panic ends the server. -/
def step (label : Label β) (s : Service β) : Option (Service β) :=
  if s.crashed then none
  else
    match label with
    | .register c run =>
      if (s.clients c).phase = .connecting then
        some { s.setClient c { s.clients c with phase := .registered run } with
          activeRunSubscribers := registerClient s.activeRunSubscribers run c
          log := .registered c run :: s.log }
      else none
    | .receive c =>
      match (s.clients c).phase, (s.clients c).buffer with
      | .registered _, message :: buffer => some (s.setClient c
          { s.clients c with buffer, received := (s.clients c).received ++ [message] })
      | _, _ => none
    | .unregister c =>
      match (s.clients c).phase with
      | .registered run =>
        some { s.setClient c { s.clients c with phase := .unregistered } with
          activeRunSubscribers := unregisterClient s.activeRunSubscribers run c
          log := .removed c :: s.log }
      | _ => none
    | .close c =>
      if (s.clients c).phase = .unregistered ∧ (s.clients c).closed = false then
        some (s.setClient c { s.clients c with closed := true })
      else none
    | .dispatch run message order =>
      if order.Nodup ∧ order.toFinset = s.subscribers run then some (dispatchUpdate s run message order)
      else none

def service (β : Type) : System (Service β) (Label β) where
  init := ⟨fun _ => none,fun _ => ⟨.connecting,[],false,[]⟩,false,[]⟩
  step := step

/-- Any number of clients and dispatches, in any order. -/
def anyOrder : Guard (Service β) (Label β) := fun _ _ => True

instance : ∀ (s : Service β) label, Decidable (anyOrder s label) := fun _ _ => isTrue trivial

end Code

section Owed

variable {β : Type} (c : ClientID)

/-- The run for which a client is registered after some events. -/
def registration : List (Event β) → Option RunID
  | [] => none
  | .registered d run :: older => if d = c then some run else registration older
  | .removed d :: older => if d = c then none else registration older
  | .dispatched .. :: older => registration older

/-- The updates dispatched for its run while a client was registered and had room. -/
def owed : List (Event β) → List β
  | [] => []
  | .registered .. :: older | .removed _ :: older => owed older
  | .dispatched run message full :: older =>
    if registration c older = some run ∧ full c = false then owed older ++ [message] else owed older

end Owed

/-- Nobody has sent on a closed channel, no run has an empty set of subscribers, and what a
client has read and what its channel holds is what it is owed. -/
structure FannedOut {β : Type} (s : Service β) : Prop where
  running : s.crashed = false
  filled : ∀ run, s.activeRunSubscribers run ≠ some ∅
  delivered : ∀ c, (s.clients c).received ++ (s.clients c).buffer = owed c s.log

/-- The map of subscribers and the log know of every client how far it is. -/
structure Consistent {β : Type} (s : Service β) : Prop extends FannedOut s where
  subscribed : ∀ run c, c ∈ s.subscribers run ↔ (s.clients c).phase = .registered run
  window : ∀ run c, registration c s.log = some run ↔ (s.clients c).phase = .registered run
  closed : ∀ c, (s.clients c).closed = true → (s.clients c).phase = .unregistered

section Steps

variable {β : Type} {s t : Service β} {c d : ClientID} {run other : RunID} {message : β} {order : List ClientID}
  {clients : ClientID → Client β} {subscribers : RunID → Option (Finset ClientID)}

theorem sendAll_open (nodup : order.Nodup) (opened : ∀ c ∈ order, (clients c).closed = false) :
    ∃ after, sendAll message order clients = some after ∧
      ∀ c, after c = if c ∈ order then (clients c).offer message else clients c := by
  induction order generalizing clients with
  | nil => exact ⟨clients,rfl,fun c => by simp⟩
  | cons d rest ih =>
    obtain ⟨fresh,nodup⟩ := List.nodup_cons.mp nodup
    have sent : (clients d).send message = some ((clients d).offer message) := by
      simp [Client.send,opened d List.mem_cons_self]
    have others : ∀ c ∈ rest, Function.update clients d ((clients d).offer message) c = clients c := by
      rintro c member
      have different : c ≠ d := fun same => fresh (same ▸ member)
      exact Function.update_of_ne different ..
    obtain ⟨after,loop,spec⟩ := @ih (Function.update clients d ((clients d).offer message)) nodup
      (fun c member => by rw [others c member]; exact opened c (List.mem_cons_of_mem _ member))
    refine ⟨after,by rw [sendAll,sent]; exact loop,fun c => ?_⟩
    rw [spec c]
    by_cases same : c = d
    · subst same
      simp [fresh]
    · by_cases member : c ∈ rest
      · simp [member,others c member]
      · simp [member,same]

theorem mem_registerClient : d ∈ (registerClient subscribers run c other).getD ∅ ↔
    d ∈ (subscribers other).getD ∅ ∨ other = run ∧ d = c := by
  by_cases same : other = run
  · subst same
    simp [registerClient,or_comm]
  · simp [registerClient,same]

theorem unregisterClient_self : unregisterClient subscribers run c run =
    if (subscribers run).getD ∅ = {c} then none else (subscribers run).map (·.erase c) := by
  cases found : subscribers run with
  | none => simp [unregisterClient,found]
  | some set =>
    simp only [unregisterClient,found,Option.getD_some,Option.map_some]
    by_cases member : c ∈ set
    · have last : set.erase c = ∅ ↔ set = {c} := by
        rw [Finset.erase_eq_empty_iff]
        exact ⟨fun either => either.resolve_left (Finset.ne_empty_of_mem member),.inr⟩
      simp only [if_pos member,Function.update_self,last]
    · have more : set ≠ {c} := fun only => member (only ▸ Finset.mem_singleton_self c)
      rw [if_neg member,if_neg more,Finset.erase_eq_of_notMem member]
      exact found

theorem unregisterClient_other (different : other ≠ run) :
    unregisterClient subscribers run c other = subscribers other := by
  cases found : subscribers run with
  | none => simp [unregisterClient,found]
  | some set =>
    simp only [unregisterClient,found]
    split
    next => exact Function.update_of_ne different ..
    next => rfl

theorem mem_unregisterClient : d ∈ (unregisterClient subscribers run c other).getD ∅ ↔
    d ∈ (subscribers other).getD ∅ ∧ ¬(other = run ∧ d = c) := by
  by_cases same : other = run
  · subst same
    rw [unregisterClient_self]
    split
    next only => simp [only]
    next =>
      cases subscribers other with
      | none => simp
      | some set => simp [and_comm]
  · simp [unregisterClient_other same,same]

theorem registerClient_filled (filled : ∀ run, subscribers run ≠ some ∅) :
    registerClient subscribers run c other ≠ some ∅ := by
  by_cases same : other = run
  · subst same
    simp [registerClient]
  · simpa [registerClient,Function.update_of_ne same] using filled other

theorem unregisterClient_filled (filled : ∀ run, subscribers run ≠ some ∅) :
    unregisterClient subscribers run c other ≠ some ∅ := by
  by_cases same : other = run
  · subst same
    rw [unregisterClient_self]
    split
    next => nofun
    next more =>
      cases found : subscribers other with
      | none => nofun
      | some set =>
        rw [found] at more
        have some_ : set ≠ ∅ := fun none => filled other (found.trans (congrArg some none))
        simpa [Finset.erase_eq_empty_iff,some_] using more
  · rw [unregisterClient_other same]
    exact filled other

theorem consistent_init : Consistent (service β).init where
  running := rfl
  filled := fun _ => nofun
  delivered := fun _ => rfl
  subscribed := fun run c => by simp [service,Service.subscribers]
  window := fun run c => by simp [service,registration]
  closed := fun c closed => by simp [service] at closed

theorem Consistent.open_ (consistent : Consistent s) (phase : (s.clients c).phase ≠ .unregistered) :
    (s.clients c).closed = false := by
  by_contra closed
  exact phase (consistent.closed c (by simpa using closed))

/-- A client that takes what it is given, or closes its channel at the end. -/
theorem Consistent.setClient (consistent : Consistent s) {client : Client β}
    (phase : client.phase = (s.clients c).phase)
    (closed : client.closed = true → client.phase = .unregistered)
    (taken : client.received ++ client.buffer = (s.clients c).received ++ (s.clients c).buffer) :
    Consistent (s.setClient c client) := by
  have phases : ∀ d, (Function.update s.clients c client d).phase = (s.clients d).phase := by
    intro d
    by_cases same : d = c
    · subst same; simpa using phase
    · simp [same]
  constructor
  · constructor
    · exact consistent.running
    · exact consistent.filled
    · intro d
      by_cases same : d = c
      · subst same
        simpa [Service.setClient,taken] using consistent.delivered d
      · simpa [Service.setClient,same] using consistent.delivered d
  · exact fun run d => (consistent.subscribed run d).trans (by simp only [Service.setClient,phases])
  · exact fun run d => (consistent.window run d).trans (by simp only [Service.setClient,phases])
  · intro d shut
    by_cases same : d = c
    · subst same
      simp only [Service.setClient,Function.update_self] at shut ⊢
      exact closed shut
    · simp only [Service.setClient,Function.update_of_ne same] at shut ⊢
      exact consistent.closed d shut

theorem Consistent.move (consistent : Consistent s) {phase : Phase} {event : Event β}
    (opened : (s.clients c).closed = false)
    (filled : ∀ run, subscribers run ≠ some ∅)
    (quiet : ∀ d, owed d (event :: s.log) = owed d s.log)
    (own : ∀ run, (c ∈ (subscribers run).getD ∅ ↔ phase = .registered run) ∧
      (registration c (event :: s.log) = some run ↔ phase = .registered run))
    (others : ∀ d ≠ c, registration d (event :: s.log) = registration d s.log ∧
      ∀ run, d ∈ (subscribers run).getD ∅ ↔ d ∈ s.subscribers run) :
    Consistent { s.setClient c { s.clients c with phase } with
      activeRunSubscribers := subscribers, log := event :: s.log } := by
  constructor
  · constructor
    · exact consistent.running
    · exact filled
    · intro d
      rw [quiet]
      by_cases same : d = c
      · subst same
        simpa [Service.setClient] using consistent.delivered d
      · simpa [Service.setClient,same] using consistent.delivered d
  · intro run d
    by_cases same : d = c
    · subst same
      simpa [Service.setClient,Service.subscribers] using (own run).1
    · have before := ((others d same).2 run).trans (consistent.subscribed run d)
      simpa [Service.setClient,Service.subscribers,same] using before
  · intro run d
    by_cases same : d = c
    · subst same
      simpa [Service.setClient] using (own run).2
    · simpa [Service.setClient,same,(others d same).1] using consistent.window run d
  · intro d closed
    by_cases same : d = c
    · subst same
      simp [Service.setClient,opened] at closed
    · simp only [Service.setClient,Function.update_of_ne same] at closed ⊢
      exact consistent.closed d closed

theorem Consistent.register (consistent : Consistent s) (new : (s.clients c).phase = .connecting) :
    Consistent { s.setClient c { s.clients c with phase := .registered run } with
      activeRunSubscribers := registerClient s.activeRunSubscribers run c
      log := .registered c run :: s.log } := by
  apply consistent.move (consistent.open_ (by rw [new]; nofun))
  · exact fun _ => registerClient_filled consistent.filled
  · exact fun _ => rfl
  · intro other
    have absent : c ∉ s.subscribers other := by simp [consistent.subscribed,new]
    rw [mem_registerClient,← Service.subscribers]
    simp [absent,registration,eq_comm]
  · intro d different
    refine ⟨by simp [registration,Ne.symm different],fun other => ?_⟩
    rw [mem_registerClient,← Service.subscribers]
    simp [different]

theorem Consistent.unregister (consistent : Consistent s) (phase : (s.clients c).phase = .registered run) :
    Consistent { s.setClient c { s.clients c with phase := .unregistered } with
      activeRunSubscribers := unregisterClient s.activeRunSubscribers run c
      log := .removed c :: s.log } := by
  apply consistent.move (consistent.open_ (by rw [phase]; nofun))
  · exact fun _ => unregisterClient_filled consistent.filled
  · exact fun _ => rfl
  · intro other
    rw [mem_unregisterClient,← Service.subscribers,consistent.subscribed,phase]
    simp [registration,eq_comm]
  · intro d different
    refine ⟨by simp [registration,Ne.symm different],fun other => ?_⟩
    rw [mem_unregisterClient,← Service.subscribers]
    simp [different]

theorem offer_frame {client : Client β} : (client.offer message).phase = client.phase ∧
    (client.offer message).closed = client.closed ∧ (client.offer message).received = client.received := by
  unfold Client.offer
  split <;> exact ⟨rfl,rfl,rfl⟩

theorem offer_buffer {client : Client β} : (client.offer message).buffer =
    if client.full then client.buffer else client.buffer ++ [message] := by
  unfold Client.offer
  split <;> rfl

/-- The clients of a run are registered, so their channels are open and the loop ends. -/
theorem Consistent.dispatches (consistent : Consistent s) (nodup : order.Nodup)
    (all : order.toFinset = s.subscribers run) : dispatchUpdate s run message order = { s with
      clients := fun c => if (s.clients c).phase = .registered run then (s.clients c).offer message
        else s.clients c
      log := .dispatched run message (fun c => (s.clients c).full) :: s.log } := by
  have listed : ∀ c, c ∈ order ↔ (s.clients c).phase = .registered run := by
    intro c
    rw [← List.mem_toFinset,all,consistent.subscribed]
  have opened : ∀ c ∈ order, (s.clients c).closed = false :=
    fun c member => consistent.open_ (by rw [(listed c).mp member]; nofun)
  obtain ⟨after,loop,spec⟩ := @sendAll_open _ message _ _ nodup opened
  have shape : after = fun c => if (s.clients c).phase = .registered run then (s.clients c).offer message
      else s.clients c := funext fun c => by rw [spec c]; simp only [listed]
  rw [← shape]
  cases found : s.activeRunSubscribers run with
  | none =>
    have none_ : order = [] := by
      rw [Service.subscribers,found] at all
      exact (List.toFinset_eq_empty_iff order).mp all
    subst none_
    cases loop
    simp only [dispatchUpdate,found]
  | some set => simp only [dispatchUpdate,found,loop]

theorem Consistent.dispatch (consistent : Consistent s) (nodup : order.Nodup)
    (all : order.toFinset = s.subscribers run) : Consistent (dispatchUpdate s run message order) := by
  rw [consistent.dispatches nodup all]
  have frame : ∀ c, (if (s.clients c).phase = .registered run then (s.clients c).offer message
      else s.clients c).phase = (s.clients c).phase := by
    intro c
    split
    · exact offer_frame.1
    · rfl
  constructor
  · constructor
    · exact consistent.running
    · exact consistent.filled
    · intro c
      have before := consistent.delivered c
      have window := consistent.window run c
      by_cases mine : (s.clients c).phase = .registered run
      · have registered := window.mpr mine
        dsimp only
        rw [if_pos mine,offer_frame.2.2,offer_buffer]
        cases full : (s.clients c).full with
        | true => simpa [owed,full] using before
        | false => simp [owed,full,registered,← before]
      · have other : registration c s.log ≠ some run := fun same => mine (window.mp same)
        dsimp only
        rw [if_neg mine]
        simpa [owed,other] using before
  · exact fun other c => (consistent.subscribed other c).trans (by dsimp only; rw [frame])
  · exact fun other c => (consistent.window other c).trans (by dsimp only; rw [frame])
  · intro c closed
    dsimp only at closed ⊢
    rw [frame]
    apply consistent.closed c
    split at closed
    · rwa [offer_frame.2.1] at closed
    · exact closed

theorem Consistent.step {label : Label β} (consistent : Consistent s) (stepped : step label s = some t) :
    Consistent t := by
  unfold FanOut.step at stepped
  simp only [consistent.running,Bool.false_eq_true,if_false] at stepped
  cases label with
  | register c run =>
    dsimp only at stepped
    split at stepped
    next new => cases stepped; exact consistent.register new
    next => contradiction
  | receive c =>
    dsimp only at stepped
    split at stepped
    next phase filled =>
      cases stepped
      exact consistent.setClient rfl (consistent.closed c) (by rw [filled,List.append_assoc]; rfl)
    next => contradiction
  | unregister c =>
    dsimp only at stepped
    split at stepped
    next phase => cases stepped; exact consistent.unregister phase
    next => contradiction
  | close c =>
    dsimp only at stepped
    split at stepped
    next ended => cases stepped; exact consistent.setClient rfl (fun _ => ended.1) rfl
    next => contradiction
  | dispatch run message order =>
    dsimp only at stepped
    split at stepped
    next listed => cases stepped; exact consistent.dispatch listed.1 listed.2
    next => contradiction

end Steps

/-- In every state that any interleaving reaches. -/
theorem updates_fanned_out {β : Type} {s : Service β} (reach : Reach (service β) anyOrder s) : FannedOut s :=
  (reach.invariant Consistent consistent_init fun _ _ _ _ consistent _ stepped =>
    consistent.step stepped).toFannedOut

/-- Two clients watch run 5; the second leaves between two updates. -/
theorem two_watch : ∃ s, Reach (service Nat) anyOrder s ∧
    ((s.clients 0).received ++ (s.clients 0).buffer = [7,8] ∧
      (s.clients 1).received ++ (s.clients 1).buffer = [7]) ∧ FannedOut s := by
  have run : ∃ s, Reach (service Nat) anyOrder s ∧
      ((s.clients 0).received ++ (s.clients 0).buffer = [7,8] ∧
        (s.clients 1).received ++ (s.clients 1).buffer = [7]) :=
    follow_exists [.register 0 "5",.register 1 "5",.dispatch "5" 7 [1,0],.receive 0,
      .dispatch "6" 9 [],.unregister 1,.dispatch "5" 8 [0],.close 1] (by decide +kernel)
  obtain ⟨s,reach,shown⟩ := run
  exact ⟨s,reach,shown,updates_fanned_out reach⟩

end TinyAutomator.Run.FanOut
