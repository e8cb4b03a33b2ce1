import Mathlib.Algebra.Group.Int.Defs
import TinyAutomator.Workflows.Polls
import TinyAutomator.Lib.Fold

/-! The check of one calendar row: which events a listing holds, which of them triggers,
and what the check leaves behind in the table and in Redis. -/
namespace TinyAutomator.Workflows

structure Person where
  displayName : String
  email : String

/-- What checkEventChanges reads of an event; `start` and `finish` are its DateTime texts. -/
structure Event where
  id : String
  summary : String
  description : String
  location : String
  organizer : Option Person
  attendees : List Person
  status : String
  start : Option String
  finish : Option String

/-- One page of a listing. -/
structure Events where
  items : List Event
  nextSyncToken : String

/-- Instants and durations of the check are in nanoseconds. -/
def minute : Int := 60 * 10 ^ 9

/-- What a check is answered. `moment` is the time at which it looks at the event with an
index, `redis` tells for which of them Redis answers. -/
structure CalendarEnv where
  cancelled : Bool
  interrupted : Bool
  now : Int
  moment : Nat → Int
  parseRFC3339 : String → Option Int
  toLower : String → String
  getSyncToken : String → UserID → Except String String
  initCalendarClient : UserID → Except String Unit
  getEventsByTimeRange : String → Int → Int → Except String Events
  getEventsBySyncToken : String → String → Except String Events
  redis : Nat → Bool
  orchestrateWorkflow : UserID → WorkflowID → Except String Int
  answers : Bool

/-- The tables, the event claims in Redis with their expiry, and the runs that checks
have started, each with the event that triggered it. -/
structure World where
  store : Store
  claims : List (WorkflowID × String × Int)
  runs : List (WorkflowID × String)

inductive Stop where
  | failed (err : String)
  | nilDereference

section Matching

/-- The texts of an event in one line. -/
def searchableText (toLower : String → String) (event : Event) : String :=
  let people := event.organizer.toList ++ event.attendees
  let fields := [event.summary,event.description,event.location] ++
    people.flatMap fun person => [person.displayName,person.email]
  toLower (String.join ((fields.filter (· ≠ "")).map (· ++ " ")))

def contains (text part : String) : Bool := part.toList <:+: text.toList

def matchesKeywords (toLower : String → String) (event : Event) (keywords : List String) : Bool :=
  keywords.all fun keyword => contains (searchableText toLower event) (toLower keyword)

def CalendarConfig.isStarting (config : CalendarConfig) : Bool := config.eventStatusCondition = "starting"

def CalendarConfig.timeBasedTrigger (config : CalendarConfig) : Bool :=
  config.eventStatusCondition = "starting" || config.eventStatusCondition = "ending"

/-- Whether the time condition holds at an instant. -/
def inWindow (starting : Bool) (minutes eventTime now : Int) : Bool :=
  if starting then eventTime - minutes * minute < now && now < eventTime
  else eventTime < now && now < eventTime + minutes * minute

def shouldTriggerWorkflow (env : CalendarEnv) (now : Int) (config : CalendarConfig) (event : Event) :
    Except String Bool :=
  if !matchesKeywords env.toLower event config.keywords then .ok false
  else if config.eventStatusCondition ≠ "cancelled" ∧ event.status = "cancelled" then .ok false
  else if config.eventStatusCondition = "cancelled" ∧ event.status ≠ "cancelled" then .ok false
  else
    match config.timeCondition with
    | none => .ok true
    | some minutes =>
      -- all-day events have no DateTime
      match (if config.isStarting then event.start else event.finish).getD "" with
      | "" => .ok false
      | eventTime =>
        match env.parseRFC3339 eventTime with
        | none => .error ("failed to parse event time: " ++ eventTime)
        | some eventTime => .ok (inWindow config.isStarting minutes eventTime now)

end Matching

section Check

variable (env : CalendarEnv) (c : Claimed CalendarRow)

/-- SetNX finds no key that has not expired. -/
def World.free (x : World) (now : Int) (w : WorkflowID) (eventID : String) : Bool :=
  !x.claims.any fun claim => claim.1 = w && claim.2.1 = eventID && decide (now < claim.2.2)

def World.tryEventClaim (x : World) (now : Int) (w : WorkflowID) (eventID : String) (ttl : Int) :
    World × Bool :=
  if x.free now w eventID then ({ x with claims := (w,eventID,now + ttl) :: x.claims },true) else (x,false)

/-- How long a claim holds. -/
def CalendarConfig.ttl (config : CalendarConfig) : Int :=
  if config.timeBasedTrigger then config.timeCondition.getD 0 * minute else 24 * 60 * minute

/-- The loop over the events; it stops at the first event that it can claim. -/
def claimEvent : Nat → List Event → World → World × Option Event
  | _, [], x => (x,none)
  | i, event :: rest, x =>
    match shouldTriggerWorkflow env (env.moment i) c.row.config event with
    | .error _ | .ok false => claimEvent (i + 1) rest x
    | .ok true =>
      if env.redis i then
        match x.tryEventClaim (env.moment i) c.workflowID event.id c.row.config.ttl with
        | (y,true) => (y,some event)
        | (y,false) => claimEvent (i + 1) rest y
      else claimEvent (i + 1) rest x

def failing {α : Type} (reason : String) : Except String α → Except Stop α
  | .ok a => .ok a
  | .error err => .error (.failed (reason ++ err))

def dereference {α : Type} : Option α → Except Stop α
  | some a => .ok a
  | none => .error .nilDereference

def errSyncTokenExpired : Stop := .failed "sync token expired"

/-- The row's sync token, or a new one if it has none. -/
def refreshSyncToken : Except Stop String :=
  if c.row.syncToken = "" then do
    let calendarID ← dereference c.row.config.calendarID
    let syncToken ← failing "failed to get sync token: " (env.getSyncToken calendarID c.userID)
    if syncToken = "" then .error errSyncTokenExpired else .ok syncToken
  else .ok c.row.syncToken

def listEvents (config : CalendarConfig) (syncToken : String) : Except Stop Events :=
  if config.timeBasedTrigger then do
    let minutes ← dereference config.timeCondition
    let calendarID ← dereference config.calendarID
    let timeMin := if config.isStarting then env.now else env.now - minutes * minute
    failing "failed to get events by time range: "
      (env.getEventsByTimeRange calendarID timeMin (env.now + minutes * minute))
  else do
    let calendarID ← dereference config.calendarID
    match env.getEventsBySyncToken calendarID syncToken with
    | .ok events => .ok events
    | .error err =>
      -- a 410 Gone response resets the token of the row in memory only
      if contains err "410" then .error errSyncTokenExpired
      else .error (.failed ("failed to get events by sync token: " ++ err))

/-- checkEventChanges up to the listing. -/
def fetchEvents : Except Stop Events := do
  failing "failed to validate calendar config: " (validateCalendarConfig c.row.config)
  let syncToken ← refreshSyncToken env c
  failing "failed to init calendar client: " (env.initCalendarClient c.userID)
  listEvents env c.row.config syncToken

/-- checkEventChanges up to its update, with the next sync token. -/
def searchEvents (x : World) : World × Except Stop String :=
  match fetchEvents env c with
  | .error stop => (x,.error stop)
  | .ok events =>
    match claimEvent env c 0 events.items x with
    | (y,none) => (y,.ok events.nextSyncToken)
    | (y,some event) =>
      let failed := "workflow execution failed for event " ++ event.id ++ ": "
      match env.orchestrateWorkflow c.userID c.workflowID with
      | .error err => (y,.error (.failed (failed ++ err)))
      | .ok runID =>
        if runID = -1 then (y,.error (.failed (failed ++ "%!w(<nil>)")))
        else ({ y with runs := (c.workflowID,event.id) :: y.runs },.ok events.nextSyncToken)

/-- The update at the end of a check, with the config as the poll has read it. -/
def World.updateWorkflowCalendar (x : World) (nextSyncToken : String) (lastSyncedAt : Int) : World :=
  { x with store := x.store.amend c.workflowID fun wf =>
      wf.updateCalendars c.row.config nextSyncToken .queued lastSyncedAt }

def checkEventChanges (x : World) : World × Except Stop Unit :=
  match searchEvents env c x with
  | (y,.error stop) => (y,.error stop)
  | (y,.ok nextSyncToken) =>
    if env.answers then (y.updateWorkflowCalendar c nextSyncToken (env.now / 10 ^ 6),.ok ())
    else (y,.error (.failed "failed to update workflow calendar: failed to update workflow calendar"))

/-- The exported method waits for checkEventChanges in a goroutine of its own. -/
def CheckEventChanges (x : World) : World × Except Stop Unit :=
  match (if env.cancelled then (x,.error (.failed "context canceled")) else checkEventChanges env c x) with
  | (y,.error .nilDereference) => (y,.error .nilDereference)
  | (y,result) =>
    (y,if env.interrupted then .error (.failed "context cancelled: context canceled") else result)

end Check

section Outcome

variable {env : CalendarEnv} {c : Claimed CalendarRow} {x y : World} {events : Events}

/-- The loop would claim the event at an index. -/
structure Claimable (env : CalendarEnv) (c : Claimed CalendarRow) (x : World) (i : Nat) (event : Event) :
    Prop where
  triggers : shouldTriggerWorkflow env (env.moment i) c.row.config event = .ok true
  redis : env.redis i = true
  free : x.free (env.moment i) c.workflowID event.id = true

/-- Either no event can be claimed, or the first one that can is. -/
theorem claimEvent_cases (env : CalendarEnv) (c : Claimed CalendarRow) (x : World) (k : Nat)
    (items : List Event) :
    (claimEvent env c k items x = (x,none) ∧
      ∀ (i : Nat) event, items[i]? = some event → ¬Claimable env c x (k + i) event) ∨
    ∃ (i : Nat) (event : Event), items[i]? = some event ∧ Claimable env c x (k + i) event ∧
      (∀ (j : Nat) earlier, j < i → items[j]? = some earlier → ¬Claimable env c x (k + j) earlier) ∧
      claimEvent env c k items x = ({ x with
        claims := (c.workflowID,event.id,env.moment (k + i) + c.row.config.ttl) :: x.claims },some event) := by
  induction items generalizing k with
  | nil => exact .inl ⟨rfl,nofun⟩
  | cons event rest ih =>
    by_cases claimable : Claimable env c x k event
    · refine .inr ⟨0,event,rfl,claimable,nofun,?_⟩
      simp [claimEvent,claimable.triggers,claimable.redis,World.tryEventClaim,claimable.free]
    · have skips : claimEvent env c k (event :: rest) x = claimEvent env c (k + 1) rest x := by
        rw [claimEvent]
        split
        next => rfl
        next => rfl
        next triggers =>
          split
          next redis =>
            have taken : ¬x.free (env.moment k) c.workflowID event.id = true :=
              fun free => claimable ⟨triggers,redis,free⟩
            rw [World.tryEventClaim,if_neg taken]
          next => rfl
      rw [skips]
      rcases ih (k + 1) with ⟨silent,none⟩ | ⟨i,found,at_,claimable',first,claimed⟩
      · refine .inl ⟨silent,fun i event' at_ => ?_⟩
        cases i with
        | zero => cases at_; exact claimable
        | succ i => rw [← Nat.succ_add_eq_add_succ]; exact none i event' at_
      · refine .inr ⟨i + 1,found,at_,?_,?_,?_⟩
        · rw [← Nat.succ_add_eq_add_succ]; exact claimable'
        · intro j earlier before at_
          cases j with
          | zero => cases at_; exact claimable
          | succ j =>
            rw [← Nat.succ_add_eq_add_succ]
            exact first j earlier (Nat.lt_of_succ_lt_succ before) at_
        · rw [claimed,Nat.add_right_comm,Nat.add_assoc]

/-- The token that a listing uses. -/
def CalendarEnv.syncToken (env : CalendarEnv) (c : Claimed CalendarRow) (calendarID : String) :
    Except String String :=
  if c.row.syncToken = "" then env.getSyncToken calendarID c.userID else .ok c.row.syncToken

/-- What Google answers to a listing. -/
def CalendarEnv.listed (env : CalendarEnv) (config : CalendarConfig) (calendarID syncToken : String) :
    Except String Events :=
  if config.timeBasedTrigger then
    let minutes := config.timeCondition.getD 0
    env.getEventsByTimeRange calendarID (if config.isStarting then env.now else env.now - minutes * minute)
      (env.now + minutes * minute)
  else env.getEventsBySyncToken calendarID syncToken

@[simp] theorem failing_ok {α : Type} {reason : String} {result : Except String α} {a : α} :
    failing reason result = .ok a ↔ result = .ok a := by
  cases result <;> simp [failing]

@[simp] theorem failing_nil {α : Type} {reason : String} {result : Except String α} :
    failing reason result ≠ .error .nilDereference := by
  cases result <;> simp [failing]

@[simp] theorem dereference_some {α : Type} (a : α) : dereference (some a) = .ok a := rfl

theorem valid_minutes {config : CalendarConfig} (valid : validateCalendarConfig config = .ok ())
    (timed : config.timeBasedTrigger = true) : ∃ minutes, config.timeCondition = some minutes := by
  cases condition : config.timeCondition with
  | some minutes => exact ⟨minutes,rfl⟩
  | none =>
    rw [CalendarConfig.timeBasedTrigger,Bool.or_eq_true,decide_eq_true_eq,decide_eq_true_eq] at timed
    simp only [validateCalendarConfig,condition] at valid
    split at valid
    next => contradiction
    next =>
      split at valid
      next => contradiction
      next => contradiction

section Calls

variable {calendarID token : String} {config : CalendarConfig}

theorem refreshSyncToken_ok (known : c.row.config.calendarID = some calendarID) :
    refreshSyncToken env c = .ok token ↔ env.syncToken c calendarID = .ok token ∧ token ≠ "" := by
  unfold refreshSyncToken CalendarEnv.syncToken
  by_cases empty : c.row.syncToken = ""
  · rw [if_pos empty,if_pos empty,known,dereference_some,Fold.bind_ok]
    constructor
    · rintro ⟨_,⟨⟩,refreshed⟩
      obtain ⟨fresh,answered,refreshed⟩ := Fold.bind_ok.mp refreshed
      split at refreshed
      next => contradiction
      next filled => cases refreshed; exact ⟨failing_ok.mp answered,filled⟩
    · intro ⟨answered,filled⟩
      exact ⟨_,rfl,Fold.bind_ok.mpr ⟨token,failing_ok.mpr answered,if_neg filled⟩⟩
  · rw [if_neg empty,if_neg empty]
    constructor
    · intro kept
      cases kept
      exact ⟨rfl,empty⟩
    · rintro ⟨⟨⟩,_⟩
      rfl

theorem refreshSyncToken_returns (known : c.row.config.calendarID = some calendarID) :
    refreshSyncToken env c ≠ .error .nilDereference := by
  unfold refreshSyncToken
  split
  next =>
    rw [known,dereference_some]
    intro stops
    obtain ⟨_,_,stops⟩ := (Fold.bind_error.mp stops).resolve_left nofun
    obtain ⟨fresh,_,stops⟩ := (Fold.bind_error.mp stops).resolve_left failing_nil
    split at stops <;> cases stops
  next => nofun

theorem listEvents_ok (valid : validateCalendarConfig config = .ok ())
    (known : config.calendarID = some calendarID) :
    listEvents env config token = .ok events ↔ env.listed config calendarID token = .ok events := by
  unfold listEvents CalendarEnv.listed
  by_cases timed : config.timeBasedTrigger = true
  · obtain ⟨minutes,set⟩ := valid_minutes valid timed
    simp [timed,known,set,bind,Except.bind]
  · simp only [timed,known,dereference_some,bind,Except.bind]
    cases env.getEventsBySyncToken calendarID token with
    | ok listed => simp
    | error err =>
      simp only [Bool.false_eq_true,if_false,reduceCtorEq,iff_false]
      split <;> nofun

theorem listEvents_returns (valid : validateCalendarConfig config = .ok ())
    (known : config.calendarID = some calendarID) : listEvents env config token ≠ .error .nilDereference := by
  unfold listEvents
  by_cases timed : config.timeBasedTrigger = true
  · obtain ⟨minutes,set⟩ := valid_minutes valid timed
    simp [timed,known,set,bind,Except.bind]
  · simp only [timed,known,dereference_some,bind,Except.bind]
    cases env.getEventsBySyncToken calendarID token with
    | ok listed => nofun
    | error err =>
      simp only [Bool.false_eq_true,if_false]
      split <;> nofun

theorem listEvents_nil (valid : validateCalendarConfig config = .ok ()) (unknown : config.calendarID = none) :
    listEvents env config token = .error .nilDereference := by
  unfold listEvents
  by_cases timed : config.timeBasedTrigger = true
  · obtain ⟨minutes,set⟩ := valid_minutes valid timed
    simp [timed,unknown,set,dereference,bind,Except.bind]
  · simp [timed,unknown,dereference,bind,Except.bind]

/-- The calls of a check with a calendar id, one after another. -/
theorem fetchEvents_ok (known : c.row.config.calendarID = some calendarID) :
    fetchEvents env c = .ok events ↔ validateCalendarConfig c.row.config = .ok () ∧
      ∃ token, env.syncToken c calendarID = .ok token ∧ token ≠ "" ∧
        env.initCalendarClient c.userID = .ok () ∧ env.listed c.row.config calendarID token = .ok events := by
  unfold fetchEvents
  constructor
  · intro fetched
    obtain ⟨⟨⟩,valid,fetched⟩ := Fold.bind_ok.mp fetched
    obtain ⟨token,refreshed,fetched⟩ := Fold.bind_ok.mp fetched
    obtain ⟨⟨⟩,client,fetched⟩ := Fold.bind_ok.mp fetched
    have valid := failing_ok.mp valid
    obtain ⟨answered,filled⟩ := (refreshSyncToken_ok known).mp refreshed
    exact ⟨valid,token,answered,filled,failing_ok.mp client,(listEvents_ok valid known).mp fetched⟩
  · intro ⟨valid,token,answered,filled,client,listed⟩
    refine Fold.bind_ok.mpr ⟨(),failing_ok.mpr valid,?_⟩
    refine Fold.bind_ok.mpr ⟨token,(refreshSyncToken_ok known).mpr ⟨answered,filled⟩,?_⟩
    exact Fold.bind_ok.mpr ⟨(),failing_ok.mpr client,(listEvents_ok valid known).mpr listed⟩

theorem fetchEvents_returns (known : c.row.config.calendarID = some calendarID) :
    fetchEvents env c ≠ .error .nilDereference := by
  intro stops
  obtain ⟨⟨⟩,valid,stops⟩ := (Fold.bind_error.mp stops).resolve_left failing_nil
  obtain ⟨token,_,stops⟩ := (Fold.bind_error.mp stops).resolve_left (refreshSyncToken_returns known)
  obtain ⟨_,_,stops⟩ := (Fold.bind_error.mp stops).resolve_left failing_nil
  exact listEvents_returns (failing_ok.mp valid) known stops

/-- Without a calendar id a check never gets to the events. -/
theorem fetchEvents_nil (unknown : c.row.config.calendarID = none) :
    fetchEvents env c = .error .nilDereference ↔ validateCalendarConfig c.row.config = .ok () ∧
      (c.row.syncToken ≠ "" → env.initCalendarClient c.userID = .ok ()) := by
  unfold fetchEvents refreshSyncToken
  cases valid : validateCalendarConfig c.row.config with
  | error err => simp [failing,bind,Except.bind]
  | ok =>
    by_cases empty : c.row.syncToken = ""
    · simp [failing,bind,Except.bind,empty,unknown,dereference]
    · cases client : env.initCalendarClient c.userID with
      | error err => simp [failing,bind,Except.bind,empty]
      | ok => simp [failing,bind,Except.bind,empty,listEvents_nil valid unknown]

theorem fetchEvents_unknown (unknown : c.row.config.calendarID = none) : fetchEvents env c ≠ .ok events := by
  intro fetched
  obtain ⟨⟨⟩,valid,fetched⟩ := Fold.bind_ok.mp fetched
  obtain ⟨token,_,fetched⟩ := Fold.bind_ok.mp fetched
  obtain ⟨⟨⟩,_,fetched⟩ := Fold.bind_ok.mp fetched
  rw [listEvents_nil (failing_ok.mp valid) unknown] at fetched
  contradiction

end Calls

/-- A row is stored as the poll that took it has read it. -/
def Taken (c : Claimed CalendarRow) (s : Store) : Prop :=
  ∃ wf, s.workflows c.workflowID = some wf ∧ c.row ∈ wf.calendars ∧ c.row.executionState = .running

/-- A later poll can select the row. -/
def Requeued (c : Claimed CalendarRow) (s : Store) : Prop :=
  ∀ wf, s.workflows c.workflowID = some wf → ∀ row ∈ wf.calendars, row.id = c.row.id →
    row.executionState = .queued

def Returns (result : Except Stop Unit) : Prop := result ≠ .error .nilDereference

/-- Every call that a check comes to goes well. A row without a calendar id comes to no
listing: the check panics there. -/
structure Smooth (env : CalendarEnv) (c : Claimed CalendarRow) (x : World) : Prop where
  started : env.cancelled = false
  config : validateCalendarConfig c.row.config = .ok ()
  syncToken : ∀ calendarID, c.row.config.calendarID = some calendarID →
    ∃ token, token ≠ "" ∧ env.syncToken c calendarID = .ok token
  client : c.row.syncToken ≠ "" ∨ c.row.config.calendarID ≠ none → env.initCalendarClient c.userID = .ok ()
  events : ∀ calendarID token, c.row.config.calendarID = some calendarID →
    env.syncToken c calendarID = .ok token → ∃ events,
      env.listed c.row.config calendarID token = .ok events ∧
      ∀ (i : Nat) event, events.items[i]? = some event → Claimable env c x i event →
        ∃ runID, env.orchestrateWorkflow c.userID c.workflowID = .ok runID ∧ runID ≠ -1

/-- What a poll takes is stored as it has read it. -/
theorem claim_taken {s : Polls} {key : WorkflowID × Nat} {keys : List (WorkflowID × Nat)}
    (claimed : s.claimCalendar key = some c) (member : key ∈ keys) : Taken c (s.store.runCalendars keys) := by
  obtain ⟨wf,row,stored,within,wanted,rfl⟩ := claim_some claimed
  have same : row.id = key.2 := by
    rw [Bool.and_eq_true,decide_eq_true_eq] at wanted
    exact wanted.1
  refine ⟨_,congrArg (Option.map _) stored,?_,rfl⟩
  refine List.mem_map.mpr ⟨row,within,if_pos ?_⟩
  rw [same]
  exact member

/-- What comes of a search. -/
inductive Search (env : CalendarEnv) (c : Claimed CalendarRow) (x : World) : World × Except Stop String → Prop where
  | stopped {stop : Stop} (fetched : fetchEvents env c = .error stop) : Search env c x (x,.error stop)
  | quiet {events : Events} (fetched : fetchEvents env c = .ok events)
      (none : ∀ (i : Nat) event, events.items[i]? = some event → ¬Claimable env c x i event) :
      Search env c x (x,.ok events.nextSyncToken)
  | failed {events : Events} {i : Nat} {event : Event} {err : String}
      (fetched : fetchEvents env c = .ok events) (at_ : events.items[i]? = some event)
      (claimable : Claimable env c x i event)
      (refused : ∀ runID, env.orchestrateWorkflow c.userID c.workflowID = .ok runID → runID = -1) :
      Search env c x ({ x with claims :=
        (c.workflowID,event.id,env.moment i + c.row.config.ttl) :: x.claims },.error (.failed err))
  | ran {events : Events} {i : Nat} {event : Event} {runID : Int}
      (fetched : fetchEvents env c = .ok events) (at_ : events.items[i]? = some event)
      (claimable : Claimable env c x i event)
      (started : env.orchestrateWorkflow c.userID c.workflowID = .ok runID) (fine : runID ≠ -1) :
      Search env c x ({ x with
        claims := (c.workflowID,event.id,env.moment i + c.row.config.ttl) :: x.claims
        runs := (c.workflowID,event.id) :: x.runs },.ok events.nextSyncToken)

theorem searchEvents_search (env : CalendarEnv) (c : Claimed CalendarRow) (x : World) :
    Search env c x (searchEvents env c x) := by
  unfold searchEvents
  split
  next stop fetched => exact .stopped fetched
  next events fetched =>
    rcases claimEvent_cases env c x 0 events.items with ⟨silent,none⟩ | ⟨i,event,at_,claimable,_,claimed⟩
    · rw [silent]
      exact .quiet fetched fun i event at_ => Nat.zero_add i ▸ none i event at_
    · rw [claimed]
      rw [Nat.zero_add] at claimable ⊢
      dsimp only
      split
      next err refused => exact .failed fetched at_ claimable fun runID started => by simp [refused] at started
      next runID started =>
        split
        next refused =>
          refine .failed fetched at_ claimable fun other started' => ?_
          obtain rfl := Except.ok.inj (started.symm.trans started')
          exact refused
        next fine => exact .ran fetched at_ claimable started fine

theorem Search.store {result : World × Except Stop String} (search : Search env c x result) :
    result.1.store = x.store := by
  cases search with
  | stopped | quiet | failed | ran => rfl

/-- A search ends well if and only if it comes to the events and starts the run they ask for. -/
theorem Search.ok {result : World × Except Stop String} (search : Search env c x result) :
    (∃ token, result.2 = .ok token) ↔ ∃ events, fetchEvents env c = .ok events ∧
      ∀ (i : Nat) event, events.items[i]? = some event → Claimable env c x i event →
        ∃ runID, env.orchestrateWorkflow c.userID c.workflowID = .ok runID ∧ runID ≠ -1 := by
  cases search with
  | stopped fetched =>
    refine iff_of_false nofun ?_
    rintro ⟨events,ok,_⟩
    rw [fetched] at ok
    contradiction
  | @quiet events fetched none =>
    refine iff_of_true ⟨_,rfl⟩ ⟨events,fetched,fun i event at_ claimable => ?_⟩
    exact absurd claimable (none i event at_)
  | @failed events i event err fetched at_ claimable refused =>
    refine iff_of_false nofun ?_
    rintro ⟨other,ok,runs⟩
    obtain rfl := Except.ok.inj (fetched.symm.trans ok)
    obtain ⟨runID,started,fine⟩ := runs i event at_ claimable
    exact fine (refused runID started)
  | @ran events i event runID fetched at_ claimable started fine =>
    exact iff_of_true ⟨_,rfl⟩ ⟨events,fetched,fun _ _ _ _ => ⟨runID,started,fine⟩⟩

theorem Search.nil {result : World × Except Stop String} (search : Search env c x result) :
    result.2 = .error .nilDereference ↔ fetchEvents env c = .error .nilDereference := by
  cases search with
  | stopped fetched =>
    rw [fetched]
    exact ⟨fun stop => Except.error.inj stop ▸ rfl,fun stop => Except.error.inj stop ▸ rfl⟩
  | quiet fetched | failed fetched | ran fetched =>
    rw [fetched]
    exact iff_of_false nofun nofun

/-- A check is its search, followed by its update if the search ends well. -/
theorem checkEventChanges_ok (answers : env.answers = true) {token : String}
    (found : (searchEvents env c x).2 = .ok token) : checkEventChanges env c x =
      ((searchEvents env c x).1.updateWorkflowCalendar c token (env.now / 10 ^ 6),.ok ()) := by
  unfold checkEventChanges
  split
  next failed => rw [failed] at found; contradiction
  next searched =>
    rw [searched] at found ⊢
    cases found
    rw [if_pos answers]

theorem checkEventChanges_error {stop : Stop} (failed : (searchEvents env c x).2 = .error stop) :
    checkEventChanges env c x = ((searchEvents env c x).1,.error stop) := by
  unfold checkEventChanges
  split
  next searched => rw [searched] at failed ⊢; cases failed; rfl
  next searched => rw [searched] at failed; contradiction

theorem CheckEventChanges_store : (CheckEventChanges env c x).1 =
    if env.cancelled = true then x else (checkEventChanges env c x).1 := by
  unfold CheckEventChanges
  cases env.cancelled with
  | true => rfl
  | false =>
    obtain ⟨y,result⟩ := checkEventChanges env c x
    rcases result with (_ | _) | _ <;> rfl

theorem CheckEventChanges_returns : Returns (CheckEventChanges env c x).2 ↔
    env.cancelled = true ∨ (checkEventChanges env c x).2 ≠ .error .nilDereference := by
  unfold CheckEventChanges Returns
  cases env.cancelled with
  | true => cases env.interrupted <;> simp
  | false =>
    obtain ⟨y,result⟩ := checkEventChanges env c x
    rcases result with (_ | _) | _ <;> cases env.interrupted <;> simp

/-- A claimed row is queued again by the update at the end of its check, and by nothing else. -/
theorem requeued_checked (taken : Taken c x.store) (answers : env.answers = true) :
    Requeued c (checkEventChanges env c x).1.store ↔ ∃ token, (searchEvents env c x).2 = .ok token := by
  obtain ⟨wf,stored,member,running⟩ := taken
  have same := (searchEvents_search env c x).store
  cases result : (searchEvents env c x).2 with
  | error stop =>
    rw [checkEventChanges_error result]
    refine iff_of_false (fun requeued => ?_) nofun
    have queued := requeued wf (same ▸ stored) c.row member rfl
    rw [running] at queued
    contradiction
  | ok token =>
    rw [checkEventChanges_ok answers result]
    refine iff_of_true (fun wf' after row within _ => ?_) ⟨token,rfl⟩
    rw [World.updateWorkflowCalendar,same,Store.amend_self,stored] at after
    cases after
    obtain ⟨old,_,rfl⟩ := List.mem_map.mp within
    rfl

theorem checkEventChanges_nil (answers : env.answers = true) :
    (checkEventChanges env c x).2 = .error .nilDereference ↔ fetchEvents env c = .error .nilDereference := by
  rw [← (searchEvents_search env c x).nil]
  cases result : (searchEvents env c x).2 with
  | error stop =>
    rw [checkEventChanges_error result,Except.error.injEq,Except.error.injEq]
  | ok token =>
    rw [checkEventChanges_ok answers result]
    exact iff_of_false nofun nofun

/-- Without a calendar id all goes well until the check panics. -/
theorem smooth_unknown (started : env.cancelled = false) (unknown : c.row.config.calendarID = none) :
    Smooth env c x ↔ fetchEvents env c = .error .nilDereference := by
  rw [fetchEvents_nil unknown]
  constructor
  · intro smooth
    exact ⟨smooth.config,fun filled => smooth.client (.inl filled)⟩
  · intro ⟨valid,client⟩
    have absent : ∀ calendarID, c.row.config.calendarID ≠ some calendarID := by
      intro calendarID present
      rw [unknown] at present
      contradiction
    refine ⟨started,valid,fun _ present => absurd present (absent _),?_,fun _ _ present => absurd present (absent _)⟩
    exact fun reached => client (reached.resolve_right (not_not.mpr unknown))

/-- With one it comes to its events and starts the run they ask for. -/
theorem smooth_known {calendarID : String} (started : env.cancelled = false)
    (known : c.row.config.calendarID = some calendarID) :
    Smooth env c x ↔ ∃ events, fetchEvents env c = .ok events ∧
      ∀ (i : Nat) event, events.items[i]? = some event → Claimable env c x i event →
        ∃ runID, env.orchestrateWorkflow c.userID c.workflowID = .ok runID ∧ runID ≠ -1 := by
  constructor
  · intro smooth
    obtain ⟨token,filled,answered⟩ := smooth.syncToken calendarID known
    obtain ⟨events,listed,runs⟩ := smooth.events calendarID token known answered
    have client := smooth.client (.inr (by rw [known]; nofun))
    exact ⟨events,(fetchEvents_ok known).mpr ⟨smooth.config,token,answered,filled,client,listed⟩,runs⟩
  · intro ⟨events,fetched,runs⟩
    obtain ⟨valid,token,answered,filled,client,listed⟩ := (fetchEvents_ok known).mp fetched
    refine ⟨started,valid,?_,fun _ => client,?_⟩
    · intro other same
      obtain rfl := Option.some.inj (known.symm.trans same)
      exact ⟨token,filled,answered⟩
    · intro other token' same answered'
      obtain rfl := Option.some.inj (known.symm.trans same)
      obtain rfl := Except.ok.inj (answered.symm.trans answered')
      exact ⟨events,listed,runs⟩

/-- When a check returns, its row is queued again if and only if all went well. -/
theorem requeued_iff (env : CalendarEnv) (c : Claimed CalendarRow) (x : World) (taken : Taken c x.store)
    (answers : env.answers = true) :
    (Returns (CheckEventChanges env c x).2 → Requeued c (CheckEventChanges env c x).1.store) ↔
      Smooth env c x := by
  rw [CheckEventChanges_store,CheckEventChanges_returns]
  by_cases cancelled : env.cancelled = true
  · rw [if_pos cancelled]
    refine iff_of_false (fun kept => ?_) fun smooth => ?_
    · obtain ⟨wf,stored,member,running⟩ := taken
      have queued := kept (.inl cancelled) wf stored c.row member rfl
      rw [running] at queued
      contradiction
    · have started := smooth.started
      rw [cancelled] at started
      contradiction
  · rw [if_neg cancelled,requeued_checked taken answers,(searchEvents_search env c x).ok,Ne,
      checkEventChanges_nil answers]
    have started := Bool.eq_false_iff.mpr cancelled
    simp only [started,Bool.false_eq_true,false_or]
    cases known : c.row.config.calendarID with
    | none =>
      rw [smooth_unknown started known]
      constructor
      · intro kept
        by_contra returns
        obtain ⟨events,fetched,_⟩ := kept returns
        exact fetchEvents_unknown known fetched
      · exact fun stops returns => absurd stops returns
    | some calendarID =>
      rw [smooth_known started known]
      exact ⟨fun kept => kept (fetchEvents_returns known),fun smooth _ => smooth⟩

end Outcome

section Checks

/-- A check for which everything goes well and nothing has changed. -/
def CalendarEnv.calm : CalendarEnv where
  cancelled := false
  interrupted := false
  now := 1893456000000000000
  moment := fun _ => 1893456000000000000
  parseRFC3339 := fun _ => none
  toLower := String.toLower
  getSyncToken := fun _ _ => .ok "token"
  initCalendarClient := fun _ => .ok ()
  getEventsByTimeRange := fun _ _ _ => .ok ⟨[],""⟩
  getEventsBySyncToken := fun _ _ => .ok ⟨[],"token"⟩
  redis := fun _ => true
  orchestrateWorkflow := fun _ _ => .ok 1
  answers := true

/-- The row of a workflow that waits for cancelled events. -/
def cancellations : CalendarRow := ⟨1,⟨some "primary",[],none,"cancelled"⟩,"token",.queued,0⟩

def oneQueued : Polls where
  store := (Store.fresh fun _ => true).put 1 ⟨"alice","reminder","a mail",.active,.empty,[],[cancellations],0,0⟩
  jobs := []
  checks := []
  silenced := []
  log := []

def oneTaken : Claimed CalendarRow := ⟨1,"alice",cancellations.running,false,.claimed⟩

def oneCalendar : World := ⟨oneQueued.store.runCalendars [(1,1)],[],[]⟩

theorem oneTaken_taken : Taken oneTaken oneCalendar.store :=
  claim_taken (rfl : oneQueued.claimCalendar (1,1) = some oneTaken) (List.mem_singleton_self _)

/-- A check without changes queues its row again. -/
theorem calm_requeued : Requeued oneTaken (CheckEventChanges .calm oneTaken oneCalendar).1.store := by
  have smooth : Smooth .calm oneTaken oneCalendar := by
    refine ⟨rfl,rfl,fun _ _ => ⟨"token",by decide,rfl⟩,fun _ => rfl,fun _ _ _ _ => ⟨⟨[],"token"⟩,rfl,?_⟩⟩
    exact fun _ _ none => absurd none nofun
  exact (requeued_iff .calm oneTaken oneCalendar oneTaken_taken rfl).mpr smooth nofun

/-- Google is not available for a moment, and the trigger is lost. -/
theorem unavailable_running : ¬∀ (env : CalendarEnv) (c : Claimed CalendarRow) (x : World),
    Taken c x.store → env.answers = true → Returns (CheckEventChanges env c x).2 →
      Requeued c (CheckEventChanges env c x).1.store := by
  intro survives
  have queued := survives { CalendarEnv.calm with
    getEventsBySyncToken := fun _ _ => .error "googleapi: Error 503: Service Unavailable" }
    oneTaken oneCalendar oneTaken_taken rfl nofun _ rfl cancellations.running (List.mem_singleton_self _) rfl
  contradiction

end Checks

end TinyAutomator.Workflows
