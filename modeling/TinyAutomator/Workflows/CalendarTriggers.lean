import TinyAutomator.Workflows.Saves

/-! Whether creating and updating a calendar trigger come to the same row. Execute falls back
to the primary calendar, Update takes the calendar id as it is given. -/
namespace TinyAutomator.Workflows

def Store.calendarRows (s : Store) (w : WorkflowID) : List CalendarRow :=
  (s.workflows w).toList.flatMap (·.calendars)

/-- What one row holds, the other holds. -/
def SameTrigger (a b : CalendarRow) : Prop :=
  a.config = b.config ∧ a.executionState = b.executionState

/-- Update does not panic, it goes through if and only if Execute does, and it leaves the rows
of the workflow as Execute would have stored them. -/
structure Alike (env : Env) (left : Nat) (config : Config) (w : WorkflowID) (s : Store) : Prop where
  returns : TriggerHandler.update env left config s .calendarEvent ≠ .error nilDereference
  follows : ∀ t row, TriggerHandler.execute env left config s .calendarEvent = .ok t →
    t.calendarRows w = s.calendarRows w ++ [row] →
      ∃ u, TriggerHandler.update env left config s .calendarEvent = .ok u ∧
        ∀ old ∈ u.calendarRows w, SameTrigger old row
  only : ∀ u, TriggerHandler.update env left config s .calendarEvent = .ok u →
    ∃ t, TriggerHandler.execute env left config s .calendarEvent = .ok t

/-- No sync token for the primary calendar and none for the calendar without a name, or a
database that does not answer. -/
def Unserved (env : Env) (left : Nat) (s : Store) (userID : UserID) : Prop :=
  env.answers (.triggerRow left) = false ∨
    ∀ calendarID, calendarID = primaryCalendarID ∨ calendarID = "" →
      ∀ token, getSyncToken env s calendarID userID ≠ .ok token

/-- Of the keys that are calendarID up to case, in their order, the last one has this string. -/
def NamesCalendar (config : Config) (calendarID : String) : Prop :=
  (config.matching "calendarID" config.calendarID).getLast? = some (.str calendarID)

instance (config : Config) (calendarID : String) : Decidable (NamesCalendar config calendarID) :=
  inferInstanceAs (Decidable (_ = _))

/-- The config names a calendar, or an empty name does no harm. -/
def Named (env : Env) (left : Nat) (config : Config) (s : Store) (userID : UserID) : Prop :=
  ∃ calendarID, NamesCalendar config calendarID ∧
    (calendarID = "" → Unserved env left s userID)

section Handler

variable {env : Env} {left : Nat} {config : Config} {userID : UserID} {w : WorkflowID} {s t u : Store}
  {c : CalendarConfig} {row : CalendarRow} {calendarID : String}

theorem wrap_returns {α : Type} {text : String} (first : text.toList.head? = some 'f') {x : Except String α} :
    wrap text x ≠ .error nilDereference := by
  cases x with
  | ok a => nofun
  | error err =>
    intro panics
    have same : text ++ err = nilDereference := Except.error.inj panics
    have heads := congrArg (fun text => text.toList.head?) same
    rw [String.toList_append] at heads
    cases chars : text.toList with
    | nil => rw [chars] at first; contradiction
    | cons char rest =>
      rw [chars] at first heads
      cases first
      have last : nilDereference.toList.head? = some 'r' := by decide +kernel
      rw [List.cons_append,List.head?_cons,last] at heads
      contradiction

theorem built_calendarID (built : buildCalendarConfig config = .ok c) (calendarID : String) :
    c.calendarID = some calendarID ↔ NamesCalendar config calendarID := by
  obtain ⟨id,decoded,built⟩ := Fold.bind_ok.mp (wrap_ok.mp built)
  obtain ⟨keywords,_,built⟩ := Fold.bind_ok.mp built
  obtain ⟨timeCondition,_,built⟩ := Fold.bind_ok.mp built
  obtain ⟨eventStatus,_,built⟩ := Fold.bind_ok.mp built
  cases built
  exact decodeString_last decoded calendarID

theorem NamesCalendar.unique {other : String} (names : NamesCalendar config calendarID)
    (also : NamesCalendar config other) : other = calendarID :=
  Json.str.inj (Option.some.inj (also.symm.trans names))

theorem accepted_built (accepted : TriggerHandler.validate env env.isFuture config .calendarEvent = .ok ()) :
    ∃ c, buildCalendarConfig config = .ok c ∧ validateCalendarConfig c = .ok () := by
  simp only [TriggerHandler.validate] at accepted
  split at accepted
  next => contradiction
  next c built => exact ⟨c,wrap_ok.mp built,wrap_ok.mp accepted⟩

structure Sent (config : Config) (c : CalendarConfig) (userID : UserID) (w : WorkflowID) : Prop where
  built : buildCalendarConfig config = .ok c
  valid : validateCalendarConfig c = .ok ()
  owner : config.workflowID = some (.int32 w)
  user : config.userID = some (.str userID)

theorem update_unnamed (sent : Sent config c userID w) (unnamed : c.calendarID = none) :
    TriggerHandler.update env left config s .calendarEvent = .error nilDereference := by
  simp only [TriggerHandler.update,sent.built,wrap,sent.owner,sent.user]
  dsimp only [bind,Except.bind]
  rw [unnamed]

theorem update_named (sent : Sent config c userID w) (named : c.calendarID = some calendarID) :
    TriggerHandler.update env left config s .calendarEvent =
      (wrap "failed to get sync token: " (getSyncToken env s calendarID userID)).bind fun syncToken =>
        if env.answers (.triggerRow left) then
          .ok (s.amend w fun wf => wf.updateCalendars c syncToken .queued env.now)
        else .error "failed to update workflow calendar: failed to update workflow calendar" := by
  simp only [TriggerHandler.update,sent.built,wrap,sent.owner,sent.user]
  dsimp only [bind,Except.bind]
  rw [named,sent.valid]
  rfl

theorem execute_built (sent : Sent config c userID w) :
    TriggerHandler.execute env left config s .calendarEvent =
      (wrap "failed to create workflow calendar: "
        (getSyncToken env s (c.withPrimary.calendarID.getD primaryCalendarID) userID)).bind fun syncToken =>
        if env.answers (.triggerRow left) then
          wrap "failed to create workflow calendar: " (s.createCalendar w c.withPrimary syncToken env.now)
        else .error "failed to create workflow calendar: failed to create workflow calendar" := by
  simp only [TriggerHandler.execute,sent.built,wrap,sent.owner,sent.user]
  rfl

theorem update_ok_iff (sent : Sent config c userID w) (named : c.calendarID = some calendarID) :
    TriggerHandler.update env left config s .calendarEvent = .ok u ↔
      ∃ syncToken, getSyncToken env s calendarID userID = .ok syncToken ∧
        env.answers (.triggerRow left) = true ∧
        u = s.amend w fun wf => wf.updateCalendars c syncToken .queued env.now := by
  rw [update_named sent named]
  constructor
  · intro updated
    obtain ⟨syncToken,answered,updated⟩ := Fold.bind_ok.mp updated
    split at updated
    next answers => cases updated; exact ⟨syncToken,wrap_ok.mp answered,answers,rfl⟩
    next => contradiction
  · rintro ⟨syncToken,answered,answers,rfl⟩
    exact Fold.bind_ok.mpr ⟨syncToken,wrap_ok.mpr answered,if_pos answers⟩

theorem execute_ok_iff (sent : Sent config c userID w) (stored : s.calendarRows w ≠ []) :
    (∃ t, TriggerHandler.execute env left config s .calendarEvent = .ok t) ↔
      env.answers (.triggerRow left) = true ∧ ∃ syncToken,
        getSyncToken env s (c.withPrimary.calendarID.getD primaryCalendarID) userID = .ok syncToken := by
  rw [execute_built sent]
  constructor
  · rintro ⟨t,executed⟩
    obtain ⟨syncToken,answered,executed⟩ := Fold.bind_ok.mp executed
    split at executed
    next answers => exact ⟨answers,syncToken,wrap_ok.mp answered⟩
    next => contradiction
  · rintro ⟨answers,syncToken,answered⟩
    cases known : s.workflows w with
    | none => simp [Store.calendarRows,known] at stored
    | some wf =>
      have created : ∃ t, s.createCalendar w c.withPrimary syncToken env.now = .ok t := by
        rw [Store.createCalendar,known]
        exact ⟨_,rfl⟩
      obtain ⟨t,created⟩ := created
      exact ⟨t,Fold.bind_ok.mpr ⟨syncToken,wrap_ok.mpr answered,(if_pos answers).trans (wrap_ok.mpr created)⟩⟩

theorem execute_row (sent : Sent config c userID w)
    (executed : TriggerHandler.execute env left config s .calendarEvent = .ok t) :
    ∃ row, t.calendarRows w = s.calendarRows w ++ [row] ∧ row.config = c.withPrimary ∧
      row.executionState = .queued := by
  rw [execute_built sent] at executed
  obtain ⟨syncToken,_,executed⟩ := Fold.bind_ok.mp executed
  split at executed
  next =>
    obtain ⟨wf,known,put,_⟩ := createCalendar_ok (wrap_ok.mp executed)
    refine ⟨⟨s.nextCalendar,c.withPrimary,syncToken,.queued,env.now⟩,?_,rfl,rfl⟩
    simp [Store.calendarRows,known,put]
  next => contradiction

end Handler

section Agreement

variable {env : Env} {left : Nat} {config : Config} {userID : UserID} {w : WorkflowID} {s t u : Store}
  {c : CalendarConfig} {row old : CalendarRow} {calendarID : String}

theorem updated_rows {syncToken : String}
    (member : old ∈ (s.amend w fun wf => wf.updateCalendars c syncToken .queued env.now).calendarRows w) :
    old.config = c ∧ old.executionState = .queued := by
  unfold Store.calendarRows at member
  rw [Store.amend_self] at member
  obtain ⟨wf,present,within⟩ := List.mem_flatMap.mp member
  obtain ⟨before,_,rfl⟩ := Option.map_eq_some_iff.mp (Option.mem_toList.mp present)
  obtain ⟨row,_,rfl⟩ := List.mem_map.mp within
  exact ⟨rfl,rfl⟩

theorem updated_some {syncToken : String} (stored : s.calendarRows w ≠ []) :
    (s.amend w fun wf => wf.updateCalendars c syncToken .queued env.now).calendarRows w ≠ [] := by
  unfold Store.calendarRows at stored ⊢
  rw [Store.amend_self]
  cases known : s.workflows w with
  | none => rw [known] at stored; exact stored
  | some wf =>
    rw [known] at stored
    simpa [Workflow.updateCalendars] using stored

theorem withPrimary_named (named : c.calendarID = some calendarID) (filled : calendarID ≠ "") :
    c.withPrimary = c := by
  rw [CalendarConfig.withPrimary,named,Option.getD_some,if_neg filled]

theorem withPrimary_empty (named : c.calendarID = some "") :
    c.withPrimary = { c with calendarID := some primaryCalendarID } := by
  rw [CalendarConfig.withPrimary,named,Option.getD_some,if_pos rfl]

theorem update_returns (sent : Sent config c userID w) (named : c.calendarID = some calendarID) :
    TriggerHandler.update env left config s .calendarEvent ≠ .error nilDereference := by
  rw [update_named sent named]
  intro panics
  rcases Fold.bind_error.mp panics with token | ⟨syncToken,_,written⟩
  · exact wrap_returns (by decide +kernel) token
  · split at written
    next => contradiction
    next =>
      have same := Except.error.inj written
      revert same
      decide +kernel

/-- With the name of a calendar both calls ask for the same sync token. -/
theorem alike_named (sent : Sent config c userID w) (stored : s.calendarRows w ≠ [])
    (named : c.calendarID = some calendarID) (filled : calendarID ≠ "") : Alike env left config w s := by
  have same := withPrimary_named named filled
  have asked : c.withPrimary.calendarID.getD primaryCalendarID = calendarID := by
    rw [same,named,Option.getD_some]
  constructor
  case returns => exact update_returns sent named
  case follows =>
    intro t row executed added
    obtain ⟨answers,syncToken,answered⟩ := (execute_ok_iff sent stored).mp ⟨t,executed⟩
    rw [asked] at answered
    refine ⟨_,(update_ok_iff sent named).mpr ⟨syncToken,answered,answers,rfl⟩,fun old member => ?_⟩
    obtain ⟨row',added',config',state'⟩ := execute_row sent executed
    obtain rfl := List.singleton_inj.mp (List.append_cancel_left (added.symm.trans added'))
    obtain ⟨config,state⟩ := updated_rows member
    exact ⟨by rw [config,config',same],by rw [state,state']⟩
  case only =>
    intro u updated
    obtain ⟨syncToken,answered,answers,_⟩ := (update_ok_iff sent named).mp updated
    exact (execute_ok_iff sent stored).mpr ⟨answers,syncToken,asked.symm ▸ answered⟩

/-- With an empty name only Execute goes to the primary calendar. -/
theorem alike_empty (sent : Sent config c userID w) (stored : s.calendarRows w ≠ [])
    (named : c.calendarID = some "") : Alike env left config w s ↔ Unserved env left s userID := by
  have primary := withPrimary_empty named
  have asked : c.withPrimary.calendarID.getD primaryCalendarID = primaryCalendarID := by
    rw [primary,Option.getD_some]
  constructor
  · intro alike
    have differ : ∀ t, TriggerHandler.execute env left config s .calendarEvent ≠ .ok t := by
      intro t executed
      obtain ⟨row,added,config,_⟩ := execute_row sent executed
      obtain ⟨u,updated,all⟩ := alike.follows t row executed added
      obtain ⟨syncToken,_,_,rfl⟩ := (update_ok_iff sent named).mp updated
      obtain ⟨old,member⟩ := List.exists_mem_of_ne_nil _ (updated_some stored)
      have ids := congrArg CalendarConfig.calendarID (all old member).1
      rw [(updated_rows member).1,config,named,primary] at ids
      exact absurd (Option.some.inj ids) (by decide +kernel)
    by_cases answers : env.answers (.triggerRow left) = true
    · refine .inr fun calendarID which token answered => ?_
      rcases which with rfl | rfl
      · obtain ⟨t,executed⟩ := (execute_ok_iff sent stored).mpr ⟨answers,token,asked.symm ▸ answered⟩
        exact differ t executed
      · have updated := (update_ok_iff sent named).mpr ⟨token,answered,answers,rfl⟩
        obtain ⟨t,executed⟩ := alike.only _ updated
        exact differ t executed
    · exact .inl (Bool.eq_false_iff.mpr answers)
  · intro unserved
    constructor
    case returns => exact update_returns sent named
    case follows =>
      intro t row executed
      obtain ⟨answers,syncToken,answered⟩ := (execute_ok_iff sent stored).mp ⟨t,executed⟩
      rw [asked] at answered
      rcases unserved with down | none_
      · exact absurd (down.symm.trans answers) nofun
      · exact absurd answered (none_ _ (.inl rfl) syncToken)
    case only =>
      intro u updated
      obtain ⟨syncToken,answered,answers,_⟩ := (update_ok_iff sent named).mp updated
      rcases unserved with down | none_
      · exact absurd (down.symm.trans answers) nofun
      · exact absurd answered (none_ _ (.inr rfl) syncToken)

/-- Update agrees with Execute if and only if the config names a calendar. -/
theorem alike_iff (env : Env) (left : Nat) (config : Config) (userID : UserID) (w : WorkflowID) (s : Store)
    (accepted : TriggerHandler.validate env env.isFuture config .calendarEvent = .ok ())
    (stored : s.calendarRows w ≠ []) :
    Alike env left (Config.withIDs config userID w) w s ↔ Named env left config s userID := by
  obtain ⟨c,built,valid⟩ := accepted_built accepted
  have sent : Sent (Config.withIDs config userID w) c userID w := ⟨built,valid,rfl,rfl⟩
  cases named : c.calendarID with
  | none =>
    refine iff_of_false (fun alike => alike.returns (update_unnamed sent named)) ?_
    rintro ⟨calendarID,given,_⟩
    rw [(built_calendarID built calendarID).mpr given] at named
    contradiction
  | some calendarID =>
    have given := (built_calendarID built calendarID).mp named
    by_cases empty : calendarID = ""
    · subst empty
      rw [alike_empty sent stored named]
      constructor
      · exact fun unserved => ⟨"",given,fun _ => unserved⟩
      · rintro ⟨calendarID,also,unserved⟩
        obtain rfl := given.unique also
        exact unserved rfl
    · exact iff_of_true (alike_named sent stored named empty) ⟨calendarID,given,fun none_ => absurd none_ empty⟩

end Agreement

section Configs

/-- Ten minutes before the start of an event of some calendar. -/
def remindConfig (calendarID : Option Json) : Config := { Config.blank with
  calendarID
  timeCondition := some (.num 10)
  eventStatus := some (.str "starting") }

/-- The key is calendarID up to case. -/
example : NamesCalendar { Config.blank with rest := [("calendarId",.str "team")] } "team" := by
  decide +kernel

/-- A workflow with a calendar row, of a user with a Google token. -/
def remindStore : Store := (Store.fresh fun _ => true).put 1
  ⟨"alice","reminder","a mail",.active,.empty,[],
    [⟨1,⟨some "primary",[],some 5,"starting"⟩,"token",.queued,0⟩],0,0⟩

theorem primary_alike :
    Alike .calm 0 (Config.withIDs (remindConfig (some (.str "primary"))) "alice" 1) 1 remindStore := by
  have named : Named .calm 0 (remindConfig (some (.str "primary"))) remindStore "alice" :=
    ⟨"primary",rfl,nofun⟩
  exact (alike_iff .calm 0 _ "alice" 1 remindStore (by decide +kernel) (by decide +kernel)).mpr named

/-- A changed trigger without a calendar id, which Execute puts on the primary calendar. -/
theorem unnamed_panics : ¬∀ env left config userID w s,
    TriggerHandler.validate env env.isFuture config .calendarEvent = .ok () →
      s.calendarRows w ≠ [] → Alike env left (Config.withIDs config userID w) w s := by
  intro alike
  have panics : TriggerHandler.update .calm 0 (Config.withIDs (remindConfig none) "alice" 1) remindStore
      .calendarEvent = .error nilDereference := rfl
  exact (alike .calm 0 (remindConfig none) "alice" 1 remindStore (by decide +kernel)
    (by decide +kernel)).returns panics

end Configs

end TinyAutomator.Workflows
