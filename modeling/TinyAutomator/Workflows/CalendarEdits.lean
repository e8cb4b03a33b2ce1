import TinyAutomator.Workflows.Calendar
import TinyAutomator.Lib.Pool

/-! Whether a user's edit of a calendar trigger stays. A check writes back the config that
its poll has read, with a sync token of the calendar in that config. -/
namespace TinyAutomator.Workflows

open Transition

inductive CheckPhase where
  | claimed
  | found (nextSyncToken : String) (lastSyncedAt : Int)
  | done
  deriving DecidableEq

/-- A check at work on the row that its poll has claimed. -/
structure Check where
  row : Claimed CalendarRow
  phase : CheckPhase

/-- `edited` is the config of the last edit of a workflow's calendar trigger. -/
structure Checks where
  world : World
  checks : List Check
  edited : WorkflowID → Option CalendarConfig

inductive CheckLabel where
  | poll (keys : List (WorkflowID × Nat))
  | search (check : Nat) (env : CalendarEnv)
  | sync (check : Nat) (answers : Bool)
  | edit (workflowID : WorkflowID) (config : CalendarConfig) (syncToken : String) (lastSyncedAt : Int)

def Checks.claim (s : Checks) : WorkflowID × Nat → Option (Claimed CalendarRow) :=
  Polls.claimCalendar ⟨s.world.store,[],[],[],[]⟩

/-- CheckEventChanges up to its update. -/
def search (env : CalendarEnv) (c : Claimed CalendarRow) (x : World) : World × Except Stop String :=
  if env.cancelled then (x,.error (.failed "context canceled")) else searchEvents env c x

/-- A check does not look at the tables before its update, so what it does up to there is one
step. A check that fails leaves its row to itself. -/
def checkStep : CheckLabel → Checks → Option Checks
  | .poll keys, s =>
    if Returned s.claim keys then some { s with
      world := { s.world with store := s.world.store.runCalendars keys }
      checks := s.checks ++ (keys.filterMap s.claim).map (⟨·,.claimed⟩) }
    else none
  | .search i env, s =>
    match s.checks[i]? with
    | some ⟨c,.claimed⟩ =>
      match search env c s.world with
      | (world,.ok token) => some { s with
          world, checks := s.checks.set i ⟨c,.found token (env.now / 10 ^ 6)⟩ }
      | (world,.error _) => some { s with world, checks := s.checks.set i ⟨c,.done⟩ }
    | _ => none
  | .sync i answers, s =>
    match s.checks[i]? with
    | some ⟨c,.found token lastSyncedAt⟩ => some { s with
        world := if answers then s.world.updateWorkflowCalendar c token lastSyncedAt else s.world
        checks := s.checks.set i ⟨c,.done⟩ }
    | _ => none
  | .edit w config syncToken lastSyncedAt, s => some { s with
      world := { s.world with
        store := s.world.store.amend w fun wf => wf.updateCalendars config syncToken .queued lastSyncedAt }
      edited := fun x => if x = w then some config else s.edited x }

def calendars (world : World) : System Checks CheckLabel := ⟨⟨world,[],fun _ => none⟩,checkStep⟩

theorem CheckEventChanges_search (env : CalendarEnv) (c : Claimed CalendarRow) (x : World) :
    (CheckEventChanges env c x).1 =
      match search env c x with
      | (y,.ok token) => if env.answers then y.updateWorkflowCalendar c token (env.now / 10 ^ 6) else y
      | (y,.error _) => y := by
  rw [CheckEventChanges_store]
  unfold search checkEventChanges
  cases env.cancelled with
  | true => rfl
  | false =>
    obtain ⟨y,result⟩ := searchEvents env c x
    cases result with
    | error stop => rfl
    | ok token => cases env.answers <;> rfl

/-- A check that nothing crosses does what CheckEventChanges does. -/
theorem check_uncrossed {world : World} {s : Checks} {i : Nat} {c : Claimed CalendarRow}
    (env : CalendarEnv) (at_ : s.checks[i]? = some ⟨c,.claimed⟩) :
    ∃ t, Path (calendars world) (fun _ _ => True) s t ∧ t.world = (CheckEventChanges env c s.world).1 ∧
      t.checks[i]? = some ⟨c,.done⟩ := by
  rw [CheckEventChanges_search]
  have inside : i < s.checks.length := (List.getElem?_eq_some_iff.mp at_).1
  have searched : (calendars world).step (.search i env) s = checkStep (.search i env) s := rfl
  simp only [checkStep,at_] at searched
  cases found : search env c s.world with
  | mk y result =>
    rw [found] at searched
    cases result with
    | error stop =>
      exact ⟨_,.single trivial searched,rfl,List.getElem?_set_self inside⟩
    | ok token =>
      let checks := s.checks.set i ⟨c,.found token (env.now / 10 ^ 6)⟩
      have moved : checks[i]? = some ⟨c,.found token (env.now / 10 ^ 6)⟩ := List.getElem?_set_self inside
      have synced : (calendars world).step (.sync i env.answers) { s with world := y, checks } = some { s with
          world := if env.answers then y.updateWorkflowCalendar c token (env.now / 10 ^ 6) else y
          checks := checks.set i ⟨c,.done⟩ } := by
        simp only [calendars,checkStep,moved]
      refine ⟨_,(Path.single trivial searched).tail trivial synced,rfl,?_⟩
      exact List.getElem?_set_self (by rw [List.length_set]; exact inside)

/-- A calendar row of a workflow. -/
def Store.HasCalendar (s : Store) (w : WorkflowID) (row : CalendarRow) : Prop :=
  ∃ wf, s.workflows w = some wf ∧ row ∈ wf.calendars

/-- The token was obtained for the calendar of the config. -/
def Fits (belongs : String → String → Prop) (config : CalendarConfig) (syncToken : String) : Prop :=
  ∀ calendarID, config.calendarID = some calendarID → belongs syncToken calendarID

/-- A token that Google sends about a calendar belongs to that calendar. -/
structure Genuine (belongs : String → String → Prop) (env : CalendarEnv) : Prop where
  synced : ∀ calendarID token events,
    env.getEventsBySyncToken calendarID token = .ok events → belongs events.nextSyncToken calendarID
  ranged : ∀ calendarID timeMin timeMax events,
    env.getEventsByTimeRange calendarID timeMin timeMax = .ok events → belongs events.nextSyncToken calendarID

/-- The handler of an edit gets its token for the calendar of the new config. -/
def Answered (belongs : String → String → Prop) : CheckLabel → Prop
  | .search _ env => Genuine belongs env
  | .edit _ config syncToken _ => Fits belongs config syncToken
  | .poll _ | .sync .. => True

/-- No check of a workflow is between its claim and its end. -/
def Unchecked (s : Checks) (w : WorkflowID) : Prop :=
  ∀ check ∈ s.checks, check.row.workflowID = w → check.phase = .done

/-- Once all checks of an edited workflow have finished, its row holds the last edit. -/
def ConfigsKept (belongs : String → String → Prop) (s : Checks) : Prop :=
  ∀ w config, s.edited w = some config → Unchecked s w → ∀ row, s.world.store.HasCalendar w row →
    row.config = config ∧ Fits belongs config row.syncToken

/-- An edit does not fall between a claim and the end of its check. -/
def Unhurried (s : Checks) : CheckLabel → Prop
  | .edit w .. => Unchecked s w
  | .poll _ | .search .. | .sync .. => True

section Invariant

variable {belongs : String → String → Prop} {s t : Checks} {i : Nat} {w : WorkflowID}
  {c : Claimed CalendarRow} {env : CalendarEnv} {token : String}

theorem runCalendars_has {store : Store} {keys : List (WorkflowID × Nat)} {row : CalendarRow}
    (has : (store.runCalendars keys).HasCalendar w row) :
    ∃ old, store.HasCalendar w old ∧ old.config = row.config ∧ old.syncToken = row.syncToken := by
  obtain ⟨wf,stored,member⟩ := has
  obtain ⟨wf,before,rfl⟩ := Option.map_eq_some_iff.mp stored
  obtain ⟨old,within,rfl⟩ := List.mem_map.mp member
  refine ⟨old,⟨wf,before,within⟩,?_⟩
  split
  next => exact ⟨rfl,rfl⟩
  next => exact ⟨rfl,rfl⟩

theorem updateCalendars_has {store : Store} {x : WorkflowID} {config : CalendarConfig}
    {state : ExecutionState} {lastSyncedAt : Int} {row : CalendarRow}
    (has : (store.amend w fun wf => wf.updateCalendars config token state lastSyncedAt).HasCalendar x row) :
    (x ≠ w ∧ store.HasCalendar x row) ∨ x = w ∧ row.config = config ∧ row.syncToken = token := by
  obtain ⟨wf,stored,member⟩ := has
  by_cases same : x = w
  · subst same
    rw [Store.amend_self] at stored
    obtain ⟨wf,before,rfl⟩ := Option.map_eq_some_iff.mp stored
    obtain ⟨old,within,rfl⟩ := List.mem_map.mp member
    exact .inr ⟨rfl,rfl,rfl⟩
  · rw [Store.amend_other _ _ same] at stored
    exact .inl ⟨same,wf,stored,member⟩

theorem claimed_config {key : WorkflowID × Nat} (claimed : s.claim key = some c) :
    c.workflowID = key.1 ∧ ∃ row, s.world.store.HasCalendar key.1 row ∧ row.config = c.row.config := by
  unfold Checks.claim Polls.claimCalendar at claimed
  obtain ⟨wf,row,stored,member,_,rfl⟩ := claim_some claimed
  exact ⟨rfl,row,⟨wf,stored,member⟩,rfl⟩

theorem checkSearch_some (step : checkStep (.search i env) s = some t) :
    ∃ c phase, s.checks[i]? = some ⟨c,.claimed⟩ ∧ t = { s with
      world := (search env c s.world).1, checks := s.checks.set i ⟨c,phase⟩ } ∧
      ∀ token lastSyncedAt, phase = .found token lastSyncedAt → (search env c s.world).2 = .ok token := by
  simp only [checkStep] at step
  split at step
  next c at_ =>
    split at step
    next world token found =>
      cases step
      refine ⟨c,_,at_,by rw [found],fun _ _ same => ?_⟩
      cases same
      rw [found]
    next world stop failed =>
      cases step
      exact ⟨c,.done,at_,by rw [failed],nofun⟩
  next => contradiction

theorem checkSync_some {answers : Bool} (step : checkStep (.sync i answers) s = some t) :
    ∃ c token lastSyncedAt, s.checks[i]? = some ⟨c,.found token lastSyncedAt⟩ ∧ t = { s with
      world := if answers then s.world.updateWorkflowCalendar c token lastSyncedAt else s.world
      checks := s.checks.set i ⟨c,.done⟩ } := by
  simp only [checkStep] at step
  split at step
  next c token lastSyncedAt at_ => cases step; exact ⟨c,token,lastSyncedAt,at_,rfl⟩
  next => contradiction

theorem checkPoll_some {keys : List (WorkflowID × Nat)} (step : checkStep (.poll keys) s = some t) :
    t = { s with
      world := { s.world with store := s.world.store.runCalendars keys }
      checks := s.checks ++ (keys.filterMap s.claim).map (⟨·,.claimed⟩) } := by
  simp only [checkStep] at step
  split at step
  next => cases step; rfl
  next => contradiction

theorem search_fits (genuine : Genuine belongs env) {x : World}
    (found : (search env c x).2 = .ok token) : Fits belongs c.row.config token := by
  unfold search at found
  split at found
  next => contradiction
  next =>
    intro calendarID known
    have listed : ∀ events, fetchEvents env c = .ok events → belongs events.nextSyncToken calendarID := by
      intro events fetched
      obtain ⟨_,token,_,_,_,listed⟩ := (fetchEvents_ok known).mp fetched
      unfold CalendarEnv.listed at listed
      split at listed
      next => exact genuine.ranged _ _ _ _ listed
      next => exact genuine.synced _ _ _ listed
    have search := searchEvents_search env c x
    generalize searchEvents env c x = result at search found
    cases search with
    | stopped | failed => contradiction
    | quiet fetched _ => cases found; exact listed _ fetched
    | ran fetched => cases found; exact listed _ fetched

theorem search_store (env : CalendarEnv) (c : Claimed CalendarRow) (x : World) :
    (search env c x).1.store = x.store := by
  unfold search
  split
  next => rfl
  next => exact (searchEvents_search env c x).store

/-- A row of an edited workflow holds the edit, and a check at work has read it. -/
structure Configured (belongs : String → String → Prop) (s : Checks) : Prop where
  rows : ∀ w config, s.edited w = some config → ∀ row, s.world.store.HasCalendar w row →
    row.config = config ∧ Fits belongs config row.syncToken
  checks : ∀ check ∈ s.checks, check.phase ≠ .done → ∀ config,
    s.edited check.row.workflowID = some config → check.row.row.config = config ∧
      ∀ token lastSyncedAt, check.phase = .found token lastSyncedAt → Fits belongs config token

theorem Configured.poll (configured : Configured belongs s) (keys : List (WorkflowID × Nat)) :
    Configured belongs { s with
      world := { s.world with store := s.world.store.runCalendars keys }
      checks := s.checks ++ (keys.filterMap s.claim).map (⟨·,.claimed⟩) } where
  rows := by
    intro w config edited row has
    obtain ⟨old,before,same,token⟩ := runCalendars_has has
    rw [← same,← token]
    exact configured.rows w config edited old before
  checks := by
    intro check member active config edited
    rcases List.mem_append.mp member with old | new
    · exact configured.checks check old active config edited
    · obtain ⟨c,taken,rfl⟩ := List.mem_map.mp new
      obtain ⟨key,_,claimed⟩ := List.mem_filterMap.mp taken
      obtain ⟨owner,row,has,same⟩ := claimed_config claimed
      rw [← same]
      exact ⟨(configured.rows _ config edited row (owner ▸ has)).1,nofun⟩

theorem Configured.set (configured : Configured belongs s) {phase phase' : CheckPhase} {world : World}
    (at_ : s.checks[i]? = some ⟨c,phase⟩) (active : phase ≠ .done) (store : world.store = s.world.store)
    (fits : ∀ token lastSyncedAt, phase' = .found token lastSyncedAt → Fits belongs c.row.config token) :
    Configured belongs { s with world, checks := s.checks.set i ⟨c,phase'⟩ } where
  rows := by
    intro w config edited row has
    exact configured.rows w config edited row (store ▸ has)
  checks := by
    refine Pool.forall_set configured.checks fun _ config edited => ?_
    obtain ⟨same,_⟩ := configured.checks _ (List.mem_of_getElem? at_) active config edited
    exact ⟨same,fun token lastSyncedAt found => same ▸ fits token lastSyncedAt found⟩

theorem Configured.sync (configured : Configured belongs s) {lastSyncedAt : Int}
    (at_ : s.checks[i]? = some ⟨c,.found token lastSyncedAt⟩) : Configured belongs { s with
      world := s.world.updateWorkflowCalendar c token lastSyncedAt
      checks := s.checks.set i ⟨c,.done⟩ } where
  rows := by
    intro w config edited row has
    rcases updateCalendars_has has with ⟨_,before⟩ | ⟨rfl,same,fresh⟩
    · exact configured.rows w config edited row before
    · obtain ⟨held,fits⟩ := configured.checks _ (List.mem_of_getElem? at_) nofun config edited
      exact ⟨same.trans held,fresh ▸ fits token lastSyncedAt rfl⟩
  checks := Pool.forall_set configured.checks fun active => absurd rfl active

theorem Configured.edit (configured : Configured belongs s) {config : CalendarConfig} {lastSyncedAt : Int}
    (fits : Fits belongs config token) (idle : Unchecked s w) : Configured belongs { s with
      world := { s.world with
        store := s.world.store.amend w fun wf => wf.updateCalendars config token .queued lastSyncedAt }
      edited := fun x => if x = w then some config else s.edited x } where
  rows := by
    intro x config' edited row has
    dsimp only at edited
    rcases updateCalendars_has has with ⟨other,before⟩ | ⟨rfl,same,fresh⟩
    · rw [if_neg other] at edited
      exact configured.rows x config' edited row before
    · rw [if_pos rfl] at edited
      cases edited
      exact ⟨same,fresh ▸ fits⟩
  checks := by
    intro check member active config' edited
    have other : check.row.workflowID ≠ w := fun own => active (idle check member own)
    dsimp only at edited
    rw [if_neg other] at edited
    exact configured.checks check member active config' edited

theorem Configured.step {label : CheckLabel} (configured : Configured belongs s)
    (answered : Answered belongs label) (unhurried : Unhurried s label)
    (step : checkStep label s = some t) : Configured belongs t := by
  cases label with
  | poll keys =>
    obtain rfl := checkPoll_some step
    exact configured.poll keys
  | search i env =>
    obtain ⟨c,phase,at_,rfl,found⟩ := checkSearch_some step
    refine configured.set at_ nofun (search_store env c s.world) ?_
    exact fun token lastSyncedAt same => search_fits answered (found token lastSyncedAt same)
  | sync i answers =>
    obtain ⟨c,token,lastSyncedAt,at_,rfl⟩ := checkSync_some step
    cases answers with
    | true => exact configured.sync at_
    | false => exact configured.set at_ nofun rfl nofun
  | edit w config syncToken lastSyncedAt =>
    cases step
    exact configured.edit answered unhurried

/-- Edits that no check crosses stay, with a token of their calendar. -/
theorem unhurried_kept (belongs : String → String → Prop) (world : World) (s : Checks)
    (reach : Reach (calendars world) (fun s label => Answered belongs label ∧ Unhurried s label) s) :
    ConfigsKept belongs s := by
  have configured : Configured belongs s := by
    have initial : Configured belongs (calendars world).init := by
      constructor <;> simp [calendars]
    refine reach.invariant (Configured belongs) initial ?_
    intro s label t _ configured allowed step
    exact configured.step allowed.1 allowed.2 step
  intro w config edited _
  exact configured.rows w config edited

/-- Config and token are written together: whatever an edit loses, the tokens fit. -/
structure Fitting (belongs : String → String → Prop) (s : Checks) : Prop where
  rows : ∀ w row, s.world.store.HasCalendar w row → Fits belongs row.config row.syncToken
  checks : ∀ check ∈ s.checks, ∀ token lastSyncedAt, check.phase = .found token lastSyncedAt →
    Fits belongs check.row.row.config token

theorem Fitting.step {label : CheckLabel} (fitting : Fitting belongs s) (answered : Answered belongs label)
    (step : checkStep label s = some t) : Fitting belongs t := by
  cases label with
  | poll keys =>
    obtain rfl := checkPoll_some step
    constructor
    · intro w row has
      obtain ⟨old,before,config,token⟩ := runCalendars_has has
      rw [← config,← token]
      exact fitting.rows w old before
    · intro check member
      rcases List.mem_append.mp member with old | new
      · exact fitting.checks check old
      · obtain ⟨c,_,rfl⟩ := List.mem_map.mp new
        nofun
  | search i env =>
    obtain ⟨c,phase,_,rfl,found⟩ := checkSearch_some step
    constructor
    · intro w row has
      exact fitting.rows w row (search_store env c s.world ▸ has)
    · apply Pool.forall_set fitting.checks
      exact fun token lastSyncedAt same => search_fits answered (found token lastSyncedAt same)
  | sync i answers =>
    obtain ⟨c,token,lastSyncedAt,at_,rfl⟩ := checkSync_some step
    refine ⟨fun w row has => ?_,Pool.forall_set fitting.checks nofun⟩
    cases answers with
    | false => exact fitting.rows w row has
    | true =>
      rcases updateCalendars_has has with ⟨_,before⟩ | ⟨_,config,fresh⟩
      · exact fitting.rows w row before
      · rw [config,fresh]
        exact fitting.checks _ (List.mem_of_getElem? at_) token lastSyncedAt rfl
  | edit w config syncToken lastSyncedAt =>
    cases step
    refine ⟨fun x row has => ?_,fitting.checks⟩
    rcases updateCalendars_has has with ⟨_,before⟩ | ⟨_,config,fresh⟩
    · exact fitting.rows x row before
    · rw [config,fresh]
      exact answered

/-- A row's token is never one of another calendar than that in its config. -/
theorem tokens_fit (belongs : String → String → Prop) (world : World)
    (initial : ∀ w row, world.store.HasCalendar w row → Fits belongs row.config row.syncToken) (s : Checks)
    (reach : Reach (calendars world) (fun _ label => Answered belongs label) s) :
    ∀ w row, s.world.store.HasCalendar w row → Fits belongs row.config row.syncToken := by
  have fitting : Fitting belongs s := by
    refine reach.invariant (Fitting belongs) ⟨initial,by simp [calendars]⟩ ?_
    intro s label t _ fitting answered step
    exact fitting.step answered step
  exact fitting.rows

end Invariant

section Requests

variable {env : Env} {left : Nat} {config : Config} {s : Checks} {t : Store}

/-- The handler's Update is an edit: its token is one of the calendar in its config. -/
theorem update_edit {belongs : String → String → Prop}
    (genuine : ∀ userID calendarID token, env.syncToken userID calendarID = .ok token → belongs token calendarID)
    (updated : TriggerHandler.calendarEvent.update env left config s.world.store = .ok t) :
    ∃ w c syncToken, config.workflowID = some (.int32 w) ∧ buildCalendarConfig config = .ok c ∧
      Answered belongs (.edit w c syncToken env.now) ∧
      checkStep (.edit w c syncToken env.now) s = some { s with
        world := { s.world with store := t }
        edited := fun x => if x = w then some c else s.edited x } := by
  obtain ⟨c,built,updated⟩ := Fold.bind_ok.mp updated
  split at updated
  next w known =>
    split at updated
    next userID user =>
      split at updated
      next calendarID present =>
        obtain ⟨syncToken,answered,updated⟩ := Fold.bind_ok.mp updated
        obtain ⟨⟨⟩,_,updated⟩ := Fold.bind_ok.mp updated
        split at updated
        next =>
          cases updated
          refine ⟨w,c,syncToken,known,wrap_ok.mp built,?_,rfl⟩
          intro other same
          obtain rfl := Option.some.inj (present.symm.trans same)
          have answered := wrap_ok.mp answered
          unfold getSyncToken at answered
          split at answered
          next => exact genuine _ _ _ (wrap_ok.mp answered)
          next => contradiction
        next => contradiction
      next => contradiction
    next => contradiction
  next => contradiction

end Requests

section Runs

instance (s : Checks) (w : WorkflowID) : Decidable (Unchecked s w) :=
  inferInstanceAs (Decidable (∀ check ∈ s.checks, _ → _))

instance (s : Checks) : (label : CheckLabel) → Decidable (Unhurried s label)
  | .edit w .. => inferInstanceAs (Decidable (Unchecked s w))
  | .poll _ | .search .. | .sync .. => isTrue trivial

/-- A token starts with the calendar that it is of. -/
def TokenOf (syncToken calendarID : String) : Prop :=
  syncToken = calendarID ++ "#1" ∨ syncToken = calendarID ++ "#2"

/-- Nothing has changed, and Google answers with the next token of the calendar. -/
def unchangedSince (next : String) : CalendarEnv := { CalendarEnv.calm with
  getEventsBySyncToken := fun calendarID _ => .ok ⟨[],calendarID ++ next⟩
  getEventsByTimeRange := fun calendarID _ _ => .ok ⟨[],calendarID ++ next⟩ }

theorem unchangedSince_genuine {next : String} (known : next = "#1" ∨ next = "#2") :
    Genuine TokenOf (unchangedSince next) := by
  have belongs : ∀ calendarID, TokenOf (calendarID ++ next) calendarID := by
    intro calendarID
    rcases known with rfl | rfl
    · exact .inl rfl
    · exact .inr rfl
  constructor
  · rintro calendarID token events ⟨⟩
    exact belongs calendarID
  · rintro calendarID timeMin timeMax events ⟨⟩
    exact belongs calendarID

/-- The trigger with a keyword. -/
def teamMeetings : CalendarConfig := ⟨some "team@example.com",["meeting"],none,"cancelled"⟩

/-- A workflow that waits for the cancelled events of the primary calendar. -/
def oneWaiting : World := ⟨oneQueued.store,[],[]⟩

/-- A check, an edit, and a check on the new calendar. -/
def meetingRun : List CheckLabel := [.poll [(1,1)],.search 0 (unchangedSince "#1"),.sync 0 true,
  .edit 1 teamMeetings "team@example.com#1" 1893456000000,.poll [(1,1)],.search 1 (unchangedSince "#2"),.sync 1 true]

theorem meetingRun_answered : ∀ label ∈ meetingRun, Answered TokenOf label := by
  have first : Genuine TokenOf (unchangedSince "#1") := unchangedSince_genuine (.inl rfl)
  have second : Genuine TokenOf (unchangedSince "#2") := unchangedSince_genuine (.inr rfl)
  have fits : Fits TokenOf teamMeetings "team@example.com#1" := by
    rintro calendarID ⟨⟩
    exact .inl (by decide +kernel)
  simp [meetingRun,Answered,first,second,fits]

/-- The trigger is edited between two checks. -/
theorem meetings_kept : ∃ s, Reach (calendars oneWaiting)
      (fun s label => Answered TokenOf label ∧ Unhurried s label) s ∧
    (s.edited 1 = some teamMeetings ∧ Unchecked s 1 ∧ (s.world.store.workflows 1).map (·.calendars) =
      some [⟨1,teamMeetings,"team@example.com#2",.queued,1893456000000⟩]) ∧ ConfigsKept TokenOf s := by
  obtain ⟨s,reach,shape⟩ : ∃ s, Reach (calendars oneWaiting)
      (fun s label => Answered TokenOf label ∧ Unhurried s label) s ∧
      (s.edited 1 = some teamMeetings ∧ Unchecked s 1 ∧ (s.world.store.workflows 1).map (·.calendars) =
        some [⟨1,teamMeetings,"team@example.com#2",.queued,1893456000000⟩]) :=
    follow_exists_all meetingRun meetingRun_answered (by decide +kernel)
  exact ⟨s,reach,shape,unhurried_kept _ _ s reach⟩

/-- A check that was at work during the edit takes the trigger back to the primary calendar. -/
def meetingsCrossed : List CheckLabel := [.poll [(1,1)],.search 0 (unchangedSince "#1"),
  .edit 1 teamMeetings "team@example.com#1" 1893456000000,.sync 0 true]

theorem meetings_lost : ¬∀ belongs world s,
    Reach (calendars world) (fun _ label => Answered belongs label) s → ConfigsKept belongs s := by
  intro kept
  have answered : ∀ label ∈ meetingsCrossed, Answered TokenOf label := by
    intro label member
    refine meetingRun_answered label ?_
    simp only [meetingsCrossed,meetingRun,List.mem_cons,List.not_mem_nil] at member ⊢
    tauto
  obtain ⟨s,reach,edited,idle,stored⟩ : ∃ s, Reach (calendars oneWaiting)
      (fun _ label => Answered TokenOf label ∧ True) s ∧
      (s.edited 1 = some teamMeetings ∧ Unchecked s 1 ∧ s.world.store.workflows 1 =
        some ⟨"alice","reminder","a mail",.active,.empty,[],
          [⟨1,cancellations.config,"primary#1",.queued,1893456000000⟩],0,0⟩) :=
    follow_exists_all meetingsCrossed answered (by decide +kernel)
  have holds := kept _ _ s (reach.mono fun _ _ allowed => allowed.1) 1 _ edited idle _
    ⟨_,stored,List.mem_singleton_self _⟩
  exact absurd holds.1 (by decide)

end Runs

end TinyAutomator.Workflows
