import TinyAutomator.Workflows.Calendar
import TinyAutomator.Lib.Transition

/-! How often an event fires. A check looks at one event after another; each look is the
window check and the claim of one event at one instant, and the checks of any number of
pollers interleave between them. -/
namespace TinyAutomator.Workflows

open Transition

structure Look where
  check : Claimed CalendarRow
  event : Event
  moment : Int
  redis : Bool

/-- `won` are the looks that triggered and got their claim, the latest first. -/
structure Looks where
  world : World
  now : Int
  won : List Look

def Look.ttl (look : Look) : Int := look.check.row.config.ttl

/-- One turn of the loop in checkEventChanges. -/
def lookStep (env : CalendarEnv) (look : Look) (s : Looks) : Option Looks :=
  if look.moment < s.now then none
  else
    match shouldTriggerWorkflow env look.moment look.check.row.config look.event, look.redis with
    | .ok true, true =>
      match s.world.tryEventClaim look.moment look.check.workflowID look.event.id look.ttl with
      | (world,true) => some ⟨world,look.moment,look :: s.won⟩
      | (world,false) => some ⟨world,look.moment,s.won⟩
    | _, _ => some { s with now := look.moment }

/-- Any checks from any state of Redis on; `env` parses times and folds case. -/
def looks (env : CalendarEnv) (world : World) (now : Int) : System Looks Look :=
  ⟨⟨world,now,[]⟩,lookStep env⟩

/-- Whatever is listed under the id of an event of a workflow has its start and end. -/
def Unmoved (w : WorkflowID) (event : Event) (_ : Looks) (look : Look) : Prop :=
  look.check.workflowID = w → look.event.id = event.id →
    look.event.start = event.start ∧ look.event.finish = event.finish

instance (w : WorkflowID) (event : Event) (s : Looks) (look : Look) : Decidable (Unmoved w event s look) :=
  inferInstanceAs (Decidable (_ → _))

def Look.of (w : WorkflowID) (config : CalendarConfig) (event : Event) (look : Look) : Bool :=
  look.check.workflowID = w && look.check.row.config = config && look.event.id = event.id

section Turns

variable {env env' : CalendarEnv} {s t : Looks} {look : Look} {w : WorkflowID} {event : Event}
  {config : CalendarConfig} {c : Claimed CalendarRow}

theorem lookStep_cases (step : lookStep env look s = some t) : s.now ≤ look.moment ∧
    (t = { s with now := look.moment } ∨
      shouldTriggerWorkflow env look.moment look.check.row.config look.event = .ok true ∧
      s.world.free look.moment look.check.workflowID look.event.id = true ∧
      t = ⟨{ s.world with claims :=
          (look.check.workflowID,look.event.id,look.moment + look.ttl) :: s.world.claims },
        look.moment,look :: s.won⟩) := by
  unfold lookStep at step
  split at step
  next => contradiction
  next ordered =>
    refine ⟨Int.not_lt.mp ordered,?_⟩
    split at step
    next triggers redis =>
      by_cases free : s.world.free look.moment look.check.workflowID look.event.id = true
      · rw [World.tryEventClaim,if_pos free] at step
        cases step
        exact .inr ⟨triggers,free,rfl⟩
      · rw [World.tryEventClaim,if_neg free] at step
        cases step
        exact .inl rfl
    next => cases step; exact .inl rfl

theorem inWindow_short {starting : Bool} {minutes time first second : Int}
    (before : inWindow starting minutes time first = true)
    (after : inWindow starting minutes time second = true) : second < first + minutes * minute := by
  unfold inWindow at before after
  cases starting with
  | true =>
    simp only [if_true,Bool.and_eq_true,decide_eq_true_eq] at before after
    omega
  | false =>
    simp only [Bool.false_eq_true,if_false,Bool.and_eq_true,decide_eq_true_eq] at before after
    omega

/-- The time of an event that the condition is about. -/
def CalendarConfig.eventTime (config : CalendarConfig) (event : Event) : String :=
  (if config.isStarting then event.start else event.finish).getD ""

theorem triggers_window {now minutes : Int} (condition : config.timeCondition = some minutes)
    (triggers : shouldTriggerWorkflow env now config event = .ok true) :
    ∃ time, env.parseRFC3339 (config.eventTime event) = some time ∧
      inWindow config.isStarting minutes time now = true := by
  unfold shouldTriggerWorkflow at triggers
  split at triggers
  next => cases triggers
  next =>
    split at triggers
    next => cases triggers
    next =>
      split at triggers
      next => cases triggers
      next =>
        rw [condition] at triggers
        dsimp only at triggers
        split at triggers
        next => cases triggers
        next =>
          split at triggers
          next => cases triggers
          next time parsed => exact ⟨time,parsed,Except.ok.inj triggers⟩

theorem ttl_minutes {minutes : Int} (timed : config.timeBasedTrigger = true)
    (condition : config.timeCondition = some minutes) : config.ttl = minutes * minute := by
  rw [CalendarConfig.ttl,if_pos timed,condition,Option.getD_some]

end Turns

section Runs

variable {env : CalendarEnv} {s t : Looks} {look : Look} {w : WorkflowID} {event : Event}
  {config : CalendarConfig}

/-- What won still has its claim in Redis, and at most one look has won the event. -/
structure Claiming (env : CalendarEnv) (w : WorkflowID) (config : CalendarConfig) (event : Event)
    (s : Looks) : Prop where
  held : ∀ look ∈ s.won, look.of w config event = true →
    (w,event.id,look.moment + config.ttl) ∈ s.world.claims ∧
      ∃ e : Event, e.start = event.start ∧ e.finish = event.finish ∧
        shouldTriggerWorkflow env look.moment config e = .ok true
  once : (s.won.filter (·.of w config event)).length ≤ 1

theorem Look.of_iff : look.of w config event = true ↔
    look.check.workflowID = w ∧ look.check.row.config = config ∧ look.event.id = event.id := by
  unfold Look.of
  simp only [Bool.and_eq_true,decide_eq_true_eq,and_assoc]

theorem free_expired {x : World} {now until_ : Int} {eventID : String}
    (free : x.free now w eventID = true) (held : (w,eventID,until_) ∈ x.claims) : until_ ≤ now := by
  unfold World.free at free
  rw [Bool.not_eq_true',List.any_eq_false] at free
  have expired := free _ held
  simp only [decide_true,Bool.true_and,decide_eq_true_eq] at expired
  omega

theorem Claiming.second (claiming : Claiming env w config event s)
    (valid : validateCalendarConfig config = .ok ()) (timed : config.timeBasedTrigger = true)
    (unmoved : Unmoved w event s look) (own : look.of w config event = true)
    (triggers : shouldTriggerWorkflow env look.moment look.check.row.config look.event = .ok true)
    (free : s.world.free look.moment look.check.workflowID look.event.id = true) :
    ∀ other ∈ s.won, other.of w config event = false := by
  intro other member
  by_contra same
  rw [Bool.not_eq_false] at same
  obtain ⟨held,e,start,finish,earlier⟩ := claiming.held other member same
  obtain ⟨rfl,rfl,id⟩ := Look.of_iff.mp own
  obtain ⟨start',finish'⟩ := unmoved rfl id
  rw [id] at free
  obtain ⟨minutes,condition⟩ := valid_minutes valid timed
  obtain ⟨time,parsed,within⟩ := triggers_window condition earlier
  obtain ⟨time',parsed',within'⟩ := triggers_window condition triggers
  have text : look.check.row.config.eventTime look.event = look.check.row.config.eventTime e := by
    unfold CalendarConfig.eventTime
    rw [start',finish',start,finish]
  rw [text,parsed] at parsed'
  cases parsed'
  have short := inWindow_short within within'
  have expired := free_expired free held
  rw [ttl_minutes timed condition] at expired
  omega

theorem Claiming.step (claiming : Claiming env w config event s)
    (valid : validateCalendarConfig config = .ok ()) (timed : config.timeBasedTrigger = true)
    (unmoved : Unmoved w event s look) (step : lookStep env look s = some t) :
    Claiming env w config event t := by
  obtain ⟨_,rfl | ⟨triggers,free,rfl⟩⟩ := lookStep_cases step
  · exact ⟨claiming.held,claiming.once⟩
  · constructor
    case held =>
      intro x member own
      rcases List.mem_cons.mp member with rfl | old
      · obtain ⟨rfl,rfl,id⟩ := Look.of_iff.mp own
        obtain ⟨start,finish⟩ := unmoved rfl id
        exact ⟨id ▸ List.mem_cons_self,x.event,start,finish,triggers⟩
      · obtain ⟨held,earlier⟩ := claiming.held x old own
        exact ⟨List.mem_cons_of_mem _ held,earlier⟩
    case once =>
      by_cases own : look.of w config event = true
      · have none_ : s.won.filter (·.of w config event) = [] := by
          apply List.filter_eq_nil_iff.mpr
          intro other member
          rw [claiming.second valid timed unmoved own triggers free other member]
          nofun
        rw [List.filter_cons_of_pos own,none_]
        exact Nat.le_refl 1
      · rw [List.filter_cons_of_neg own]
        exact claiming.once

/-- A time based trigger fires at most once for an event. -/
theorem claimed_once (env : CalendarEnv) (world : World) (now : Int) (w : WorkflowID)
    (config : CalendarConfig) (event : Event) (valid : validateCalendarConfig config = .ok ())
    (timed : config.timeBasedTrigger = true) (s : Looks)
    (reach : Reach (looks env world now) (Unmoved w event) s) :
    (s.won.filter (·.of w config event)).length ≤ 1 := by
  have initial : Claiming env w config event (looks env world now).init := by
    constructor <;> simp [looks]
  have claiming := reach.invariant (Claiming env w config event) initial
    fun s look t _ claiming unmoved step => claiming.step valid timed unmoved step
  exact claiming.once

def reminding : CalendarConfig := ⟨some "primary",[],some 10,"starting"⟩

def meeting : Event where
  id := "meeting"
  summary := "standup"
  description := ""
  location := ""
  organizer := none
  attendees := []
  status := "confirmed"
  start := some "2030-01-01T00:00:00Z"
  finish := some "2030-01-01T00:30:00Z"

def lookBefore (minutes : Int) : Look :=
  ⟨⟨1,"alice",⟨1,reminding,"token",.running,0⟩,false,.claimed⟩,meeting,
    1893456000000000000 - minutes * minute,true⟩

/-- Three polls during the ten minutes, of which the first fires. -/
theorem meeting_once : ∃ s, Reach (looks { CalendarEnv.calm with
      parseRFC3339 := fun _ => some 1893456000000000000 } oneCalendar 0) (Unmoved 1 meeting) s ∧
    (s.won ≠ [] ∧ s.now = 1893456000000000000 - minute) ∧
    (s.won.filter (·.of 1 reminding meeting)).length ≤ 1 := by
  have run : ∃ s, Reach (looks { CalendarEnv.calm with
      parseRFC3339 := fun _ => some 1893456000000000000 } oneCalendar 0) (Unmoved 1 meeting) s ∧
      (s.won.isEmpty = false ∧ s.now = 1893456000000000000 - minute) :=
    follow_exists [lookBefore 9,lookBefore 5,lookBefore 1] (by decide +kernel)
  obtain ⟨s,reach,won,now⟩ := run
  exact ⟨s,reach,⟨by simpa using won,now⟩,claimed_once _ _ _ 1 reminding meeting rfl rfl s reach⟩

end Runs

section Loop

variable {env : CalendarEnv} {c : Claimed CalendarRow} {event : Event} {rest : List Event} {s : Looks} {k : Nat}

theorem claimEvent_turn (ready : s.now ≤ env.moment k) :
    ∃ t, lookStep env ⟨c,event,env.moment k,env.redis k⟩ s = some t ∧ t.now = env.moment k ∧
      (t.won = ⟨c,event,env.moment k,env.redis k⟩ :: s.won ∧
        claimEvent env c k (event :: rest) s.world = (t.world,some event) ∨
      t.won = s.won ∧
        claimEvent env c k (event :: rest) s.world = claimEvent env c (k + 1) rest t.world) := by
  unfold lookStep
  dsimp only
  rw [if_neg (Int.not_lt.mpr ready),claimEvent]
  cases triggers : shouldTriggerWorkflow env (env.moment k) c.row.config event with
  | error err => exact ⟨_,rfl,rfl,.inr ⟨rfl,rfl⟩⟩
  | ok should =>
    cases should with
    | false => exact ⟨_,rfl,rfl,.inr ⟨rfl,rfl⟩⟩
    | true =>
      cases redis : env.redis k with
      | false => exact ⟨_,rfl,rfl,.inr ⟨rfl,rfl⟩⟩
      | true =>
        dsimp only [Look.ttl]
        by_cases free : s.world.free (env.moment k) c.workflowID event.id = true
        · rw [World.tryEventClaim,if_pos free,if_pos rfl]
          exact ⟨_,rfl,rfl,.inl ⟨rfl,rfl⟩⟩
        · rw [World.tryEventClaim,if_neg free,if_pos rfl]
          exact ⟨_,rfl,rfl,.inr ⟨rfl,rfl⟩⟩

/-- The loop of a check is a run of looks, of which at most the last one wins. -/
theorem claimEvent_looks (world : World) (now : Int) (ok : Guard Looks Look)
    (ordered : ∀ i, env.moment i ≤ env.moment (i + 1)) (items : List Event) (ready : s.now ≤ env.moment k)
    (allowed : ∀ s, ∀ event ∈ items, ∀ i, ok s ⟨c,event,env.moment i,env.redis i⟩) :
    ∃ t, Path (looks env world now) ok s t ∧ t.world = (claimEvent env c k items s.world).1 ∧
      t.won.map (·.event) = (claimEvent env c k items s.world).2.toList ++ s.won.map (·.event) := by
  induction items generalizing k s with
  | nil => exact ⟨s,.refl,rfl,rfl⟩
  | cons event rest ih =>
    obtain ⟨t,step,at_,turn⟩ := @claimEvent_turn env c event rest s k ready
    have first : Path (looks env world now) ok s t := .single (allowed s event List.mem_cons_self k) step
    rcases turn with ⟨won,claimed⟩ | ⟨won,goes⟩
    · rw [claimed]
      exact ⟨t,first,rfl,by rw [won]; rfl⟩
    · have later : t.now ≤ env.moment (k + 1) := at_ ▸ ordered k
      obtain ⟨u,path,world',won'⟩ := ih later fun s event member =>
        allowed s event (List.mem_cons_of_mem _ member)
      rw [goes]
      exact ⟨u,first.trans path,world',won ▸ won'⟩

end Loop

end TinyAutomator.Workflows
