import TinyAutomator.Workflows.Calendar
import TinyAutomator.Lib.Transition

/-! Whether every cancelled event starts one run. A listing holds the changes of the calendar
since a sync token, one page of them, and a check takes at most one event from it. -/
namespace TinyAutomator.Workflows

open Transition

/-- The sync tokens of a calendar: each stands for a number of its changes. -/
structure SyncTokens where
  token : Nat → String
  changes : String → Nat
  changes_token : ∀ n, changes (token n) = n
  filled : ∀ n, token n ≠ ""

/-- A calendar trigger for cancelled events. -/
structure Trigger where
  workflowID : WorkflowID
  rowID : Nat
  config : CalendarConfig
  calendarID : String
  known : config.calendarID = some calendarID
  cancelled : config.eventStatusCondition = "cancelled"
  valid : validateCalendarConfig config = .ok ()

/-- What a poll without faults meets. All events of the calendar are `whole` if they fit on
one page. -/
structure Turn where
  now : Int
  moment : Nat → Int
  whole : Bool
  runID : Nat

/-- The changes of the calendar since the trigger was created, and how many of them there
were at the last poll. -/
structure Watch where
  log : List Event
  world : World
  polled : Nat

inductive WatchLabel where
  | change (event : Event)
  | poll (turn : Turn)

/-- MaxResults of GetEventsBySyncToken. -/
def maxResults : Nat := 50

/-- The first page of a listing; only the last page carries the next sync token. -/
def SyncTokens.list (tokens : SyncTokens) (log : List Event) (syncToken : String) : Events :=
  let changes := log.drop (tokens.changes syncToken)
  ⟨changes.take maxResults,if changes.length ≤ maxResults then tokens.token log.length else ""⟩

/-- A check for cancelled events parses no time and lists no time range. -/
def SyncTokens.env (tokens : SyncTokens) (toLower : String → String) (log : List Event) (turn : Turn) :
    CalendarEnv where
  cancelled := false
  interrupted := false
  now := turn.now
  moment := turn.moment
  parseRFC3339 := fun _ => none
  toLower := toLower
  getSyncToken := fun _ _ => .ok (if turn.whole then tokens.token log.length else "")
  initCalendarClient := fun _ => .ok ()
  getEventsByTimeRange := fun _ _ _ => .ok ⟨[],""⟩
  getEventsBySyncToken := fun _ syncToken => .ok (tokens.list log syncToken)
  redis := fun _ => true
  orchestrateWorkflow := fun _ _ => .ok turn.runID
  answers := true

section System

variable (tokens : SyncTokens) (toLower : String → String) (trigger : Trigger)

/-- A poll takes the row if it is queued. -/
def Watch.claim (s : Watch) : Option (Claimed CalendarRow) :=
  Polls.claimCalendar ⟨s.world.store,[],[],[],[]⟩ (trigger.workflowID,trigger.rowID)

/-- A poll, and the check of the row that it has taken. -/
def Watch.poll (turn : Turn) (s : Watch) : World :=
  match s.claim trigger with
  | none => s.world
  | some c => (CheckEventChanges (tokens.env toLower s.log turn) c
      { s.world with store := s.world.store.runCalendars [(trigger.workflowID,trigger.rowID)] }).1

def watchStep : WatchLabel → Watch → Option Watch
  | .change event, s => some { s with log := s.log ++ [event] }
  | .poll turn, s => some { s with world := s.poll tokens toLower trigger turn, polled := s.log.length }

def watch (world : World) : System Watch WatchLabel := ⟨⟨[],world,0⟩,watchStep tokens toLower trigger⟩

/-- A change that the trigger waits for. -/
def Trigger.due (event : Event) : Bool :=
  matchesKeywords toLower event trigger.config.keywords && decide (event.status = "cancelled")

def Trigger.ran (x : World) (event : Event) : Bool := decide ((trigger.workflowID,event.id) ∈ x.runs)

/-- A change whose event still needs its run. -/
def Trigger.owed (x : World) (event : Event) : Bool :=
  trigger.due toLower event && !trigger.ran x event

/-- The changes since the last poll. -/
def Watch.batch (s : Watch) : List Event := s.log.drop s.polled

/-- The changes that a poll would list. A fresh token lists none. -/
def Watch.page (s : Watch) : List Event :=
  match s.claim trigger with
  | none => []
  | some c => if c.row.syncToken = "" then [] else (tokens.list s.log c.row.syncToken).items

/-- The trigger row, when `n` changes have been polled. -/
def Stored (s : Store) (n : Nat) : Prop :=
  ∃ wf row, s.workflows trigger.workflowID = some wf ∧ wf.calendars = [row] ∧ row.id = trigger.rowID ∧
    row.config = trigger.config ∧
    (row.executionState = .queued → row.syncToken = "" ∨ row.syncToken = tokens.token n)

/-- The trigger has just been created. Its sync token is empty if the events of the calendar
did not fit on one page. -/
structure Created (world : World) : Prop where
  stored : Stored tokens trigger world.store 0
  unclaimed : ∀ claim ∈ world.claims, claim.1 ≠ trigger.workflowID
  silent : ∀ run ∈ world.runs, run.1 ≠ trigger.workflowID

/-- Every event that has been cancelled before the last poll has had one run, and no other
event has had one. -/
structure ExactlyOnce (s : Watch) : Prop where
  once : ∀ event ∈ s.log.take s.polled, trigger.due toLower event = true →
    s.world.runs.count (trigger.workflowID,event.id) = 1
  asked : ∀ id, (trigger.workflowID,id) ∈ s.world.runs →
    ∃ event ∈ s.log.take s.polled, event.id = id ∧ trigger.due toLower event = true

/-- A poll lists what needs a run, that is one event at most, and no event whose claim has
expired comes before it. -/
structure Clear (s : Watch) (turn : Turn) : Prop where
  listed : ∀ event ∈ s.batch, trigger.owed toLower s.world event = true →
    ∃ entry ∈ s.page tokens trigger, trigger.due toLower entry = true ∧ entry.id = event.id
  single : ∀ a ∈ s.batch, trigger.owed toLower s.world a = true →
    ∀ b ∈ s.batch, trigger.owed toLower s.world b = true → a.id = b.id
  held : ∀ x ∈ (s.page tokens trigger).zipIdx, trigger.due toLower x.1 = true →
    trigger.ran s.world x.1 = true → s.world.free (turn.moment x.2) trigger.workflowID x.1.id = true →
    ∃ y ∈ (s.page tokens trigger).zipIdx, y.2 < x.2 ∧ trigger.owed toLower s.world y.1 = true

def Cleared (s : Watch) : WatchLabel → Prop
  | .change _ => True
  | .poll turn => Clear tokens toLower trigger s turn

end System

section Outcome

variable {tokens : SyncTokens} {toLower : String → String} {trigger : Trigger} {s : Watch} {turn : Turn}
  {c : Claimed CalendarRow} {events : Events}

theorem Trigger.untimed (trigger : Trigger) : trigger.config.timeCondition = none := by
  have valid := trigger.valid
  unfold validateCalendarConfig at valid
  rw [trigger.cancelled] at valid
  cases condition : trigger.config.timeCondition with
  | none => rfl
  | some minutes =>
    rw [condition] at valid
    simp [eventStatuses] at valid
    split at valid <;> contradiction

theorem due_triggers (env : CalendarEnv) (trigger : Trigger) (now : Int) (event : Event) :
    shouldTriggerWorkflow env now trigger.config event = .ok (trigger.due env.toLower event) := by
  unfold shouldTriggerWorkflow Trigger.due
  rw [trigger.cancelled,trigger.untimed]
  cases matchesKeywords env.toLower event trigger.config.keywords with
  | false => rfl
  | true =>
    by_cases cancelled : event.status = "cancelled"
    · simp [cancelled]
    · simp [cancelled]

theorem claim_stored {n : Nat} (stored : Stored tokens trigger s.world.store n) :
    (s.claim trigger = none ∧ ∀ m, Stored tokens trigger s.world.store m) ∨
    ∃ c wf, s.claim trigger = some c ∧ c.workflowID = trigger.workflowID ∧ c.row.config = trigger.config ∧
      (c.row.syncToken = "" ∨ c.row.syncToken = tokens.token n) ∧ c.row.executionState = .running ∧
      c.row.id = trigger.rowID ∧ wf.calendars = [c.row] ∧
      (s.world.store.runCalendars [(trigger.workflowID,trigger.rowID)]).workflows trigger.workflowID =
        some wf := by
  obtain ⟨wf,row,before,rows,id,config,token⟩ := stored
  have claim : s.claim trigger = (if row.executionState = .queued then
      some ⟨trigger.workflowID,wf.userID,row.running,false,.claimed⟩ else none) := by
    simp only [Watch.claim,Polls.claimCalendar,Polls.claim,before,rows,Option.bind_some,CalendarRow.active,
      List.find?_cons,List.find?_nil,id,decide_true,Bool.true_and]
    by_cases queued : row.executionState = .queued <;> simp [queued]
  by_cases queued : row.executionState = .queued
  · refine .inr ⟨_,{ wf with calendars := [row.running] },by rw [claim,if_pos queued],rfl,config,
      token queued,rfl,id,rfl,?_⟩
    simp [Store.runCalendars,Store.eachWorkflow,before,rows,id]
  · refine .inl ⟨by rw [claim,if_neg queued],fun m => ⟨wf,row,before,rows,id,config,?_⟩⟩
    exact fun same => absurd same queued

theorem check_found {env : CalendarEnv} {x : World} {runID : Int} (started : env.cancelled = false)
    (answers : env.answers = true) (fetched : fetchEvents env c = .ok events)
    (runs : env.orchestrateWorkflow c.userID c.workflowID = .ok runID) (fine : runID ≠ -1) :
    (CheckEventChanges env c x).1 = (match claimEvent env c 0 events.items x with
      | (y,none) => y
      | (y,some event) => { y with runs := (c.workflowID,event.id) :: y.runs }
        : World).updateWorkflowCalendar c events.nextSyncToken (env.now / 10 ^ 6) := by
  have searched : searchEvents env c x = ((match claimEvent env c 0 events.items x with
      | (y,none) => y
      | (y,some event) => { y with runs := (c.workflowID,event.id) :: y.runs }),.ok events.nextSyncToken) := by
    unfold searchEvents
    rw [fetched]
    dsimp only
    obtain ⟨y,_ | event⟩ := claimEvent env c 0 events.items x
    · rfl
    · dsimp only
      rw [runs]
      exact if_neg fine
  rw [CheckEventChanges_store,if_neg (by rw [started]; nofun),
    checkEventChanges_ok answers (congrArg Prod.snd searched),searched]

theorem check_stopped {env : CalendarEnv} {x : World} {stop : Stop} (started : env.cancelled = false)
    (fetched : fetchEvents env c = .error stop) : (CheckEventChanges env c x).1 = x := by
  have searched : searchEvents env c x = (x,.error stop) := by
    rw [searchEvents,fetched]
  rw [CheckEventChanges_store,if_neg (by rw [started]; nofun),
    checkEventChanges_error (congrArg Prod.snd searched),searched]

/-- The loop would claim an entry of the page. -/
def Open (toLower : String → String) (trigger : Trigger) (s : Watch) (turn : Turn) (x : Event × Nat) : Prop :=
  trigger.due toLower x.1 = true ∧ s.world.free (turn.moment x.2) trigger.workflowID x.1.id = true

/-- What a poll leaves behind. -/
inductive Polled (tokens : SyncTokens) (toLower : String → String) (trigger : Trigger) (s : Watch)
    (turn : Turn) : World → Prop where
  | quiet {store : Store} (stored : Stored tokens trigger store s.log.length)
      (none : ∀ x ∈ (s.page tokens trigger).zipIdx, ¬Open toLower trigger s turn x) :
      Polled tokens toLower trigger s turn { s.world with store }
  | ran {store : Store} {x : Event × Nat} {expiry : Int} (stored : Stored tokens trigger store s.log.length)
      (member : x ∈ (s.page tokens trigger).zipIdx) (free : Open toLower trigger s turn x)
      (first : ∀ y ∈ (s.page tokens trigger).zipIdx, y.2 < x.2 → ¬Open toLower trigger s turn y) :
      Polled tokens toLower trigger s turn {
        store
        claims := (trigger.workflowID,x.1.id,expiry) :: s.world.claims
        runs := (trigger.workflowID,x.1.id) :: s.world.runs }

theorem claimable_open {t : Store} {i : Nat} {event : Event} (owner : c.workflowID = trigger.workflowID)
    (config : c.row.config = trigger.config) :
    Claimable (tokens.env toLower s.log turn) c { s.world with store := t } i event ↔
      Open toLower trigger s turn (event,i) := by
  have triggers := due_triggers (tokens.env toLower s.log turn) trigger (turn.moment i) event
  constructor
  · intro ⟨waits,_,free⟩
    rw [config] at waits
    rw [owner] at free
    exact ⟨Except.ok.inj (triggers.symm.trans waits),free⟩
  · intro ⟨due,free⟩
    refine ⟨?_,rfl,?_⟩
    · rw [config]
      exact triggers.trans (congrArg Except.ok due)
    · rw [owner]
      exact free

theorem updated_stored {wf : Workflow} {t : Store} {nextSyncToken : String} {lastSyncedAt : Int} {n : Nat}
    (owner : c.workflowID = trigger.workflowID) (config : c.row.config = trigger.config)
    (id : c.row.id = trigger.rowID) (rows : wf.calendars = [c.row])
    (stored : t.workflows trigger.workflowID = some wf)
    (token : nextSyncToken = "" ∨ nextSyncToken = tokens.token n) :
    Stored tokens trigger (t.amend c.workflowID fun wf =>
      wf.updateCalendars c.row.config nextSyncToken .queued lastSyncedAt) n := by
  refine ⟨wf.updateCalendars c.row.config nextSyncToken .queued lastSyncedAt,
    ⟨c.row.id,c.row.config,nextSyncToken,.queued,lastSyncedAt⟩,?_,?_,id,config,fun _ => token⟩
  · rw [owner,Store.amend_self,stored]
    rfl
  · rw [Workflow.updateCalendars,rows]
    rfl

theorem polled_listed {wf : Workflow} {t : Store} (owner : c.workflowID = trigger.workflowID)
    (config : c.row.config = trigger.config) (id : c.row.id = trigger.rowID) (rows : wf.calendars = [c.row])
    (stored : t.workflows trigger.workflowID = some wf)
    (fetched : fetchEvents (tokens.env toLower s.log turn) c = .ok events)
    (listed : events.items = s.page tokens trigger)
    (token : events.nextSyncToken = "" ∨ events.nextSyncToken = tokens.token s.log.length) :
    Polled tokens toLower trigger s turn
      (CheckEventChanges (tokens.env toLower s.log turn) c { s.world with store := t }).1 := by
  have fine : (turn.runID : Int) ≠ -1 := by omega
  have after : Stored tokens trigger (t.amend c.workflowID fun wf =>
      wf.updateCalendars c.row.config events.nextSyncToken .queued (turn.now / 10 ^ 6)) s.log.length :=
    updated_stored owner config id rows stored token
  rw [check_found rfl rfl fetched rfl fine,listed]
  rcases claimEvent_cases (tokens.env toLower s.log turn) c { s.world with store := t } 0 (s.page tokens trigger)
    with ⟨silent,none⟩ | ⟨i,event,at_,claimable,first,claimed⟩
  · rw [silent]
    refine .quiet after fun x member => ?_
    rw [← claimable_open owner config,← Nat.zero_add x.2]
    exact none x.2 x.1 (List.mem_zipIdx_iff_getElem?.mp member)
  · rw [claimed]
    dsimp only
    rw [Nat.zero_add,claimable_open owner config] at claimable
    have earlier : ∀ y ∈ (s.page tokens trigger).zipIdx, y.2 < i → ¬Open toLower trigger s turn y := by
      intro y member before
      rw [← claimable_open owner config,← Nat.zero_add y.2]
      exact first y.2 y.1 before (List.mem_zipIdx_iff_getElem?.mp member)
    have member : (event,i) ∈ (s.page tokens trigger).zipIdx := List.mem_zipIdx_iff_getElem?.mpr at_
    rw [owner]
    exact .ran after member claimable earlier

theorem list_token (tokens : SyncTokens) (log : List Event) (syncToken : String) :
    (tokens.list log syncToken).nextSyncToken = "" ∨
      (tokens.list log syncToken).nextSyncToken = tokens.token log.length := by
  unfold SyncTokens.list
  dsimp only
  split
  next => exact .inr rfl
  next => exact .inl rfl

/-- A check that has a token gets the listing since that token. -/
theorem fetchEvents_listed {log : List Event} {syncToken : String} (config : c.row.config = trigger.config)
    (answered : (tokens.env toLower log turn).syncToken c trigger.calendarID = .ok syncToken)
    (filled : syncToken ≠ "") :
    fetchEvents (tokens.env toLower log turn) c = .ok (tokens.list log syncToken) := by
  have known : c.row.config.calendarID = some trigger.calendarID := config ▸ trigger.known
  have timed : ¬c.row.config.timeBasedTrigger = true := by
    rw [config,CalendarConfig.timeBasedTrigger,trigger.cancelled]
    decide
  apply (fetchEvents_ok known).mpr
  refine ⟨config ▸ trigger.valid,syncToken,answered,filled,rfl,?_⟩
  rw [CalendarEnv.listed,if_neg timed]
  rfl

theorem fetchEvents_refused {log : List Event} (config : c.row.config = trigger.config)
    (answered : (tokens.env toLower log turn).syncToken c trigger.calendarID = .ok "") :
    ∃ stop, fetchEvents (tokens.env toLower log turn) c = .error stop := by
  cases fetched : fetchEvents (tokens.env toLower log turn) c with
  | error stop => exact ⟨stop,rfl⟩
  | ok events =>
    obtain ⟨_,syncToken,answered',filled,_⟩ := (fetchEvents_ok (config ▸ trigger.known)).mp fetched
    exact absurd (Except.ok.inj (answered'.symm.trans answered)) filled

/-- What a poll leaves behind depends on what it can claim of its page. -/
theorem poll_polled (stored : Stored tokens trigger s.world.store s.polled) :
    Polled tokens toLower trigger s turn (s.poll tokens toLower trigger turn) := by
  unfold Watch.poll
  rcases claim_stored stored with ⟨none,stays⟩ | ⟨c,wf,claimed,owner,config,token,running,id,rows,taken⟩
  · rw [none]
    refine .quiet (stays _) ?_
    simp [Watch.page,none]
  · rw [claimed]
    dsimp only
    by_cases empty : c.row.syncToken = ""
    · have nothing : s.page tokens trigger = [] := by simp [Watch.page,claimed,empty]
      have answered : (tokens.env toLower s.log turn).syncToken c trigger.calendarID =
          .ok (if turn.whole then tokens.token s.log.length else "") := if_pos empty
      by_cases whole : turn.whole = true
      · rw [if_pos whole] at answered
        refine polled_listed owner config id rows taken
          (fetchEvents_listed config answered (tokens.filled _)) ?_ (list_token _ _ _)
        simp [nothing,SyncTokens.list,tokens.changes_token]
      · rw [if_neg whole] at answered
        obtain ⟨stop,refused⟩ := fetchEvents_refused config answered
        rw [check_stopped rfl refused]
        -- the row stays running, and no later poll takes it
        refine .quiet ⟨wf,c.row,taken,rows,id,config,fun queued => ?_⟩ (by simp [nothing])
        rw [running] at queued
        contradiction
    · refine polled_listed owner config id rows taken
        (fetchEvents_listed config (if_neg empty) empty) ?_ (list_token _ _ _)
      simp [Watch.page,claimed,empty]

end Outcome

section Invariant

variable {tokens : SyncTokens} {toLower : String → String} {trigger : Trigger} {s t : Watch} {turn : Turn}
  {event : Event} {world : World}

/-- What holds in every run: an event is claimed only for a run, and a listing starts where
the last poll has stopped. -/
structure Sound (tokens : SyncTokens) (trigger : Trigger) (s : Watch) : Prop where
  stored : Stored tokens trigger s.world.store s.polled
  claimed : ∀ claim ∈ s.world.claims, claim.1 = trigger.workflowID →
    (trigger.workflowID,claim.2.1) ∈ s.world.runs
  reached : s.polled ≤ s.log.length

theorem owed_iff : trigger.owed toLower world event = true ↔
    trigger.due toLower event = true ∧ (trigger.workflowID,event.id) ∉ world.runs := by
  simp [Trigger.owed,Trigger.ran]

theorem Sound.page_batch (sound : Sound tokens trigger s) (listed : event ∈ s.page tokens trigger) :
    event ∈ s.batch := by
  unfold Watch.page at listed
  rcases claim_stored sound.stored with ⟨none,_⟩ | ⟨c,_,claimed,_,_,token,_⟩
  · rw [none] at listed
    contradiction
  · rw [claimed] at listed
    dsimp only at listed
    split at listed
    next => contradiction
    next filled =>
      rw [token.resolve_left filled,SyncTokens.list,tokens.changes_token] at listed
      exact List.mem_of_mem_take listed

theorem Sound.owed_open (sound : Sound tokens trigger s) {x : Event × Nat}
    (owed : trigger.owed toLower s.world x.1 = true) : Open toLower trigger s turn x := by
  obtain ⟨due,fresh⟩ := owed_iff.mp owed
  refine ⟨due,?_⟩
  rw [World.free,Bool.not_eq_true',List.any_eq_false]
  intro claim member taken
  simp only [Bool.and_eq_true,decide_eq_true_eq] at taken
  exact fresh (taken.1.2 ▸ sound.claimed claim member taken.1.1)

theorem mem_log (s : Watch) (event : Event) :
    event ∈ s.log.take s.log.length ↔ event ∈ s.log.take s.polled ∨ event ∈ s.batch := by
  rw [← List.mem_append,Watch.batch,List.take_append_drop,List.take_length]

theorem ExactlyOnce.ran (exactly : ExactlyOnce toLower trigger s) {id : String}
    (ran : (trigger.workflowID,id) ∈ s.world.runs) : s.world.runs.count (trigger.workflowID,id) = 1 := by
  obtain ⟨event,member,rfl,due⟩ := exactly.asked id ran
  exact exactly.once event member due

theorem ExactlyOnce.settled (exactly : ExactlyOnce toLower trigger s)
    (due : trigger.due toLower event = true) (settled : ¬trigger.owed toLower s.world event = true) :
    s.world.runs.count (trigger.workflowID,event.id) = 1 := by
  rw [owed_iff,not_and_not_right] at settled
  exact exactly.ran (settled due)

theorem polled_exactly (sound : Sound tokens trigger s) (exactly : ExactlyOnce toLower trigger s)
    (polled : Polled tokens toLower trigger s turn world) (clear : Clear tokens toLower trigger s turn) :
    ExactlyOnce toLower trigger { s with world, polled := s.log.length } := by
  have listed : ∀ event ∈ s.batch, trigger.owed toLower s.world event = true →
      ∃ entry ∈ s.page tokens trigger, trigger.owed toLower s.world entry = true ∧ entry.id = event.id := by
    intro event member owed
    obtain ⟨entry,within,due,same⟩ := clear.listed event member owed
    exact ⟨entry,within,owed_iff.mpr ⟨due,same ▸ (owed_iff.mp owed).2⟩,same⟩
  cases polled with
  | quiet _ none =>
    have settled : ∀ event ∈ s.batch, ¬trigger.owed toLower s.world event = true := by
      intro event member owed
      obtain ⟨entry,within,owed,_⟩ := listed event member owed
      obtain ⟨i,at_⟩ := List.mem_iff_getElem?.mp within
      exact none (entry,i) (List.mem_zipIdx_iff_getElem?.mpr at_) (sound.owed_open owed)
    constructor
    · intro event member due
      rcases (mem_log s event).mp member with before | batch
      · exact exactly.once event before due
      · exact exactly.settled due (settled event batch)
    · intro id ran
      obtain ⟨event,member,asked⟩ := exactly.asked id ran
      exact ⟨event,(mem_log s event).mpr (.inl member),asked⟩
  | @ran _ x _ _ member free first =>
    have fresh : (trigger.workflowID,x.1.id) ∉ s.world.runs := by
      intro ran
      obtain ⟨y,within,before,owed⟩ := clear.held x member free.1 (decide_eq_true ran) free.2
      exact first y within before (sound.owed_open owed)
    have batch := sound.page_batch (List.fst_mem_of_mem_zipIdx member)
    constructor
    · intro event within due
      by_cases same : x.1.id = event.id
      · rw [← same,List.count_cons_self,List.count_eq_zero.mpr fresh]
      · rw [List.count_cons_of_ne fun run => same (congrArg Prod.snd run)]
        rcases (mem_log s event).mp within with before | late
        · exact exactly.once event before due
        · refine exactly.settled due fun owed => same ?_
          exact clear.single x.1 batch (owed_iff.mpr ⟨free.1,fresh⟩) event late owed
    · intro id ran
      rcases List.mem_cons.mp ran with run | ran
      · cases run
        exact ⟨x.1,(mem_log s x.1).mpr (.inr batch),rfl,free.1⟩
      · obtain ⟨event,within,asked⟩ := exactly.asked id ran
        exact ⟨event,(mem_log s event).mpr (.inl within),asked⟩

theorem exactly_clear (sound : Sound tokens trigger s)
    (polled : Polled tokens toLower trigger s turn world)
    (exactly : ExactlyOnce toLower trigger { s with world, polled := s.log.length }) :
    Clear tokens toLower trigger s turn := by
  have counted : ∀ event ∈ s.batch, trigger.due toLower event = true →
      world.runs.count (trigger.workflowID,event.id) = 1 := by
    intro event member due
    exact exactly.once event ((mem_log s event).mpr (.inr member)) due
  cases polled with
  | quiet _ none =>
    have settled : ∀ event ∈ s.batch, ¬trigger.owed toLower s.world event = true := by
      intro event member owed
      obtain ⟨due,fresh⟩ := owed_iff.mp owed
      have counted := counted event member due
      rw [List.count_eq_zero.mpr fresh] at counted
      contradiction
    refine ⟨fun event member owed => absurd owed (settled event member),?_,?_⟩
    · exact fun a member owed => absurd owed (settled a member)
    · exact fun x member due _ free => absurd ⟨due,free⟩ (none x member)
  | @ran _ x _ _ member free first =>
    have batch := sound.page_batch (List.fst_mem_of_mem_zipIdx member)
    have fresh : (trigger.workflowID,x.1.id) ∉ s.world.runs := by
      have counted := counted x.1 batch free.1
      rw [List.count_cons_self,Nat.add_eq_right] at counted
      exact List.count_eq_zero.mp counted
    have only : ∀ event ∈ s.batch, trigger.owed toLower s.world event = true → x.1.id = event.id := by
      intro event member owed
      by_contra other
      obtain ⟨due,fresh⟩ := owed_iff.mp owed
      have counted := counted event member due
      rw [List.count_cons_of_ne fun run => other (congrArg Prod.snd run),List.count_eq_zero.mpr fresh] at counted
      contradiction
    refine ⟨fun event within owed => ?_,fun a within owed b within' owed' => ?_,fun y within due ran free' => ?_⟩
    · exact ⟨x.1,List.fst_mem_of_mem_zipIdx member,free.1,only event within owed⟩
    · exact (only a within owed).symm.trans (only b within' owed')
    · refine ⟨x,member,?_,owed_iff.mpr ⟨free.1,fresh⟩⟩
      have late : ¬y.2 < x.2 := fun before => first y within before ⟨due,free'⟩
      have apart : y.2 ≠ x.2 := by
        intro same
        have at_ := List.mem_zipIdx_iff_getElem?.mp within
        rw [same,List.mem_zipIdx_iff_getElem?.mp member] at at_
        rw [Option.some.inj at_] at fresh
        exact fresh (of_decide_eq_true ran)
      omega

/-- Whether a poll keeps events and runs in step is a matter of its batch and of the claims. -/
theorem polled_iff (sound : Sound tokens trigger s) (exactly : ExactlyOnce toLower trigger s)
    (step : watchStep tokens toLower trigger (.poll turn) s = some t) :
    ExactlyOnce toLower trigger t ↔ Clear tokens toLower trigger s turn := by
  cases step
  exact ⟨exactly_clear sound (poll_polled sound.stored),polled_exactly sound exactly (poll_polled sound.stored)⟩

theorem Sound.step {label : WatchLabel} (sound : Sound tokens trigger s)
    (step : watchStep tokens toLower trigger label s = some t) : Sound tokens trigger t := by
  cases label with
  | change event =>
    cases step
    refine ⟨sound.stored,sound.claimed,?_⟩
    rw [List.length_append]
    exact Nat.le_add_right_of_le sound.reached
  | poll turn =>
    cases step
    have polled : Polled tokens toLower trigger s turn (s.poll tokens toLower trigger turn) :=
      poll_polled sound.stored
    generalize s.poll tokens toLower trigger turn = world at polled
    cases polled with
    | quiet stored => exact ⟨stored,sound.claimed,Nat.le_refl _⟩
    | ran stored =>
      refine ⟨stored,fun claim member own => ?_,Nat.le_refl _⟩
      rcases List.mem_cons.mp member with rfl | old
      · exact List.mem_cons_self
      · exact List.mem_cons_of_mem _ (sound.claimed claim old own)

theorem ExactlyOnce.change (sound : Sound tokens trigger s) (exactly : ExactlyOnce toLower trigger s) :
    ExactlyOnce toLower trigger { s with log := s.log ++ [event] } := by
  have same : (s.log ++ [event]).take s.polled = s.log.take s.polled :=
    List.take_append_of_le_length sound.reached
  constructor
  · intro event member
    exact exactly.once event (same ▸ member)
  · intro id ran
    rw [same]
    exact exactly.asked id ran

/-- What CreateWorkflowCalendar inserts, with the token that GetSyncToken has got. -/
theorem createCalendar_created {store store' : Store} {wf : Workflow} {syncToken : String} {now : Int}
    {claims : List (WorkflowID × String × Int)} {runs : List (WorkflowID × String)}
    (before : store.workflows trigger.workflowID = some wf) (none : wf.calendars = [])
    (id : store.nextCalendar = trigger.rowID) (token : syncToken = "" ∨ syncToken = tokens.token 0)
    (created : store.createCalendar trigger.workflowID trigger.config syncToken now = .ok store')
    (unclaimed : ∀ claim ∈ claims, claim.1 ≠ trigger.workflowID)
    (silent : ∀ run ∈ runs, run.1 ≠ trigger.workflowID) : Created tokens trigger ⟨store',claims,runs⟩ where
  stored := by
    rw [Store.createCalendar,before] at created
    cases created
    refine ⟨_,⟨store.nextCalendar,trigger.config,syncToken,.queued,now⟩,if_pos rfl,?_,id,rfl,fun _ => token⟩
    rw [none]
    rfl
  unclaimed := unclaimed
  silent := silent

theorem Created.sound (created : Created tokens trigger world) : Sound tokens trigger ⟨[],world,0⟩ :=
  ⟨created.stored,fun claim member own => absurd own (created.unclaimed claim member),Nat.le_refl _⟩

theorem Created.exactly (created : Created tokens trigger world) : ExactlyOnce toLower trigger ⟨[],world,0⟩ :=
  ⟨nofun,fun _ ran => absurd rfl (created.silent _ ran)⟩

/-- While every poll is clear, every cancelled event that has been polled has had one run. -/
theorem cancelled_once (tokens : SyncTokens) (toLower : String → String) (trigger : Trigger) (world : World)
    (created : Created tokens trigger world) (s : Watch)
    (reach : Reach (watch tokens toLower trigger world) (Cleared tokens toLower trigger) s) :
    ExactlyOnce toLower trigger s := by
  have both : Sound tokens trigger s ∧ ExactlyOnce toLower trigger s := by
    refine reach.invariant (fun s => Sound tokens trigger s ∧ ExactlyOnce toLower trigger s)
      ⟨created.sound,created.exactly⟩ ?_
    rintro s label t _ ⟨sound,exactly⟩ cleared step
    refine ⟨sound.step step,?_⟩
    cases label with
    | change event => cases step; exact exactly.change sound
    | poll turn => exact (polled_iff sound exactly step).mpr cleared
  exact both.2

end Invariant

section Runs

instance (tokens : SyncTokens) (toLower : String → String) (trigger : Trigger) (s : Watch) (turn : Turn) :
    Decidable (Clear tokens toLower trigger s turn) :=
  decidable_of_iff (_ ∧ _ ∧ _)
    ⟨fun ⟨listed,single,held⟩ => ⟨listed,single,held⟩,fun clear => ⟨clear.listed,clear.single,clear.held⟩⟩

instance (tokens : SyncTokens) (toLower : String → String) (trigger : Trigger) (s : Watch) :
    (label : WatchLabel) → Decidable (Cleared tokens toLower trigger s label)
  | .change _ => isTrue trivial
  | .poll turn => inferInstanceAs (Decidable (Clear tokens toLower trigger s turn))

/-- Sync tokens that count the changes in dots. -/
def dots : SyncTokens where
  token := fun n => String.ofList (List.replicate (n + 1) '.')
  changes := fun syncToken => syncToken.length - 1
  changes_token := by simp
  filled := by simp

/-- A workflow that waits for the cancelled events of the primary calendar. -/
def primary : Trigger := ⟨1,1,cancellations.config,"primary",rfl,rfl,rfl⟩

def oneWatched : World :=
  ⟨(Store.fresh fun _ => true).put 1 ⟨"alice","reminder","a mail",.active,.empty,[],
    [{ cancellations with syncToken := "." }],0,0⟩,[],[]⟩

theorem oneWatched_created : Created dots primary oneWatched where
  stored := ⟨_,_,rfl,rfl,rfl,rfl,fun _ => .inr (by decide +kernel)⟩
  unclaimed := nofun
  silent := nofun

def standup : Event := ⟨"standup","Daily standup","","",none,[],"cancelled",none,none⟩

def retro : Event := ⟨"retro","Retrospective","","",none,[],"cancelled",none,none⟩

/-- A poll at an hour of the first of January 2030. -/
def hour (h : Nat) : Turn :=
  let now := 1893456000000000000 + h * (60 * minute)
  ⟨now,fun _ => now,true,h⟩

/-- Two events are cancelled in turn, the first one is listed again. -/
theorem turns_once : ∃ s, Reach (watch dots String.toLower primary oneWatched)
      (Cleared dots String.toLower primary) s ∧
    s.world.runs = [(1,"retro"),(1,"standup")] ∧ ExactlyOnce String.toLower primary s := by
  have run : ∃ s, Reach (watch dots String.toLower primary oneWatched) (Cleared dots String.toLower primary) s ∧
      s.world.runs = [(1,"retro"),(1,"standup")] :=
    follow_exists [.change standup,.poll (hour 1),.change standup,.change retro,.poll (hour 2)] (by decide +kernel)
  obtain ⟨s,reach,runs⟩ := run
  exact ⟨s,reach,runs,cancelled_once dots String.toLower primary oneWatched oneWatched_created s reach⟩

/-- Of two events that are cancelled between two polls, one is lost. -/
theorem retro_lost : ¬∀ tokens toLower trigger world, Created tokens trigger world → ∀ s,
    Reach (watch tokens toLower trigger world) (fun _ _ => True) s → ExactlyOnce toLower trigger s := by
  intro always
  have run : ∃ s, Reach (watch dots String.toLower primary oneWatched) (fun _ _ => True) s ∧
      ∃ event ∈ s.log.take s.polled, primary.due String.toLower event = true ∧
        s.world.runs.count (primary.workflowID,event.id) = 0 :=
    follow_exists [.change standup,.change retro,.poll (hour 1),.poll (hour 2),.poll (hour 3)] (by decide +kernel)
  obtain ⟨s,reach,event,member,due,none⟩ := run
  have once := (always dots String.toLower primary oneWatched oneWatched_created s reach).once event member due
  rw [none] at once
  contradiction

end Runs

end TinyAutomator.Workflows
