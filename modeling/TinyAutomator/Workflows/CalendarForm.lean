import TinyAutomator.Lib.JsText
import TinyAutomator.Workflows.Triggers

/-! The inspector's form for a calendar trigger, and what the service says to the config that
the form saves. -/
namespace TinyAutomator.Workflows.CalendarForm

/-- A number of JavaScript. -/
inductive Number where
  | finite (value : Rat)
  | infinite (negative : Bool)
  | nan
  deriving DecidableEq

/-- The value of a form field. -/
inductive Value where
  | undefined
  | null
  | boolean (value : Bool)
  | number (value : Number)
  | string (value : String)
  | object
  deriving DecidableEq

structure FormState where
  eventStatus : Value
  calendarID : Value
  keywords : Value
  timeCondition : Value
  deriving DecidableEq

inductive EventStatus where
  | cancelled
  | starting
  | ending
  deriving DecidableEq

def EventStatus.text : EventStatus → String
  | .cancelled => "cancelled"
  | .starting => "starting"
  | .ending => "ending"

/-- The output of the schema: the event status, null or one of three, and for the last two of
them the time. -/
structure FormData where
  calendarID : Option String
  keywords : String
  event : Option (EventStatus × Option Number)
  deriving DecidableEq

def maxMinutes : Rat := 60 * 24 * 7 * 4

/-- `z.number().max(60 * 24 * 7 * 4)`: neither NaN nor above the bound, and no least value. -/
def timeSchema : Value → Option Number
  | .number (.finite value) => if value ≤ maxMinutes then some (.finite value) else none
  | .number (.infinite true) => some (.infinite true)
  | .number (.infinite false) | .number .nan | .undefined | .null | .boolean _ | .string _ | .object => none

/-- The discriminator picks the shape; the other fields that the shape does not name are dropped. -/
def eventSchema (eventStatus timeCondition : Value) : Option (Option (EventStatus × Option Number)) :=
  match eventStatus with
  | .null => some none
  | .string "cancelled" => some (some (.cancelled,none))
  | .string "starting" => (timeSchema timeCondition).map fun time => some (.starting,some time)
  | .string "ending" => (timeSchema timeCondition).map fun time => some (.ending,some time)
  | _ => none

/-- `z.string().nullable().optional()`. -/
def calendarSchema : Value → Option (Option String)
  | .undefined | .null => some none
  | .string text => some (some text)
  | .boolean _ | .number _ | .object => none

def keywordsSchema : Value → Option String
  | .string text => some text
  | .undefined | .null | .boolean _ | .number _ | .object => none

def calendarTriggerFormSchema (state : FormState) : Option FormData :=
  match eventSchema state.eventStatus state.timeCondition, calendarSchema state.calendarID,
    keywordsSchema state.keywords with
  | some event, some calendarID, some keywords => some ⟨calendarID,keywords,event⟩
  | _, _, _ => none

/-- JSON.stringify writes null for what is no finite number. -/
def Number.json : Number → Json
  | .finite value => .num value
  | .infinite _ | .nan => .null

/-- The config that the form puts in the node, as it is sent. -/
def savedData (data : FormData) (event : EventStatus × Option Number) : Config :=
  let calendarID := if data.calendarID.getD "" = "" then "primary" else data.calendarID.getD ""
  let keywords := (JsText.split ',' data.keywords).map JsText.trim
  { Config.blank with
    eventStatus := some (.str event.1.text)
    calendarID := some (.str calendarID)
    keywords := some (.strs (keywords.map some))
    timeCondition := event.2.map Number.json }

/-- The schema refuses the form, or no event action is selected, or a config is saved. -/
inductive Submit where
  | invalid
  | toast (message : String)
  | saved (config : Config)
  deriving DecidableEq

def onSubmit (state : FormState) : Submit :=
  match calendarTriggerFormSchema state with
  | none => .invalid
  | some data =>
    match data.event with
    | none => .toast "Please select an event action"
    | some event => .saved (savedData data event)

/-- The service takes the config. -/
def Accepted (config : Config) : Prop :=
  ∃ c, buildCalendarConfig config = .ok c ∧ validateCalendarConfig c = .ok ()

def commas : Value → Nat
  | .string text => text.toList.count ','
  | .undefined | .null | .boolean _ | .number _ | .object => 0

/-- A whole number of minutes, one at least. -/
def Whole : Value → Prop
  | .number (.finite value) => value.den = 1 ∧ 1 ≤ value.num
  | .number (.infinite _) | .number .nan | .undefined | .null | .boolean _ | .string _ | .object => False

instance : DecidablePred Whole := fun value => by
  cases value with
  | number value =>
    cases value <;> rw [Whole] <;> infer_instance
  | undefined | null | boolean | string | object => exact .isFalse id

/-- The choices of the select for the time, in minutes. -/
def presets : List Rat := [0,15,30,60,720,1440,2880]

inductive TimeUnit where
  | minute
  | hour
  | day
  | week

def timeUnitToMinutes : TimeUnit → Nat
  | .minute => 1
  | .hour => 60
  | .day => 60 * 24
  | .week => 60 * 24 * 7

def convertToMinutes (amount : Rat) (unit : TimeUnit) : Rat := amount * timeUnitToMinutes unit

section Agreement

variable {state : FormState} {data : FormData} {event : EventStatus × Option Number} {config : Config}

/-- The time as the service decodes it. -/
def sentMinutes (time : Option Number) : Except String (Option Int) :=
  (time.map Number.json).toList.foldlM decodeInt none

theorem sentMinutes_none : sentMinutes none = .ok none := rfl

theorem sentMinutes_some {time : Number} : sentMinutes (some time) = decodeInt none time.json := by
  rw [sentMinutes,Option.map_some,Option.toList_some,List.foldlM_cons]
  cases decodeInt none time.json <;> rfl

theorem built_iff {c : CalendarConfig} : buildCalendarConfig (savedData data event) = .ok c ↔
    ∃ time, sentMinutes event.2 = .ok time ∧
      c = ⟨some (if data.calendarID.getD "" = "" then "primary" else data.calendarID.getD ""),
        (JsText.split ',' data.keywords).map JsText.trim,time,event.1.text⟩ := by
  have own := @matching_own (savedData data event) rfl
  have built : buildCalendarConfig (savedData data event) = wrap "failed to unmarshal calendar config: " do
      let time ← sentMinutes event.2
      return ⟨some (if data.calendarID.getD "" = "" then "primary" else data.calendarID.getD ""),
        (JsText.split ',' data.keywords).map JsText.trim,time,event.1.text⟩ := by
    simp only [buildCalendarConfig,own]
    simp only [savedData,Option.toList_some,List.foldlM_cons,List.foldlM_nil,
      decodeStrings_listed,decodeString,decodeText]
    rfl
  rw [built]
  cases sentMinutes event.2 with
  | error err => simp [wrap,bind,Except.bind]
  | ok time =>
    constructor
    · intro built
      cases built
      exact ⟨time,rfl,rfl⟩
    · rintro ⟨_,same,rfl⟩
      cases same
      rfl

/-- What the service checks of a config whose event status is one of the three. -/
theorem valid_iff {calendarID : Option String} {keywords : List String} {time : Option Int} {status : EventStatus} :
    validateCalendarConfig ⟨calendarID,keywords,time,status.text⟩ = .ok () ↔ keywords.length ≤ maxKeywords ∧
      (status = .cancelled ∧ time = none ∨
        status ≠ .cancelled ∧ ∃ minutes, time = some minutes ∧ minTimeMinutes ≤ minutes ∧ minutes ≤ maxTimeMinutes) := by
  have known : status.text ∈ eventStatuses := by cases status <;> decide
  rw [validateCalendarConfig,if_neg (not_not.mpr known)]
  by_cases many : maxKeywords < keywords.length
  · rw [if_pos many]
    constructor
    · intro passed
      contradiction
    · intro ⟨few,_⟩
      exact absurd many (Nat.not_lt.mpr few)
  · rw [if_neg many]
    have few := Nat.not_lt.mp many
    cases time with
    | none => cases status <;> simp [EventStatus.text,few]
    | some minutes =>
      have bounds : (if minutes < minTimeMinutes then Except.error "time_condition must be at least 1 minute"
          else if maxTimeMinutes < minutes then .error "time_condition must be less than 4 weeks"
          else .ok ()) = (.ok () : Except String Unit) ↔ minTimeMinutes ≤ minutes ∧ minutes ≤ maxTimeMinutes := by
        split
        next early => simp [Int.not_le.mpr early]
        next timely =>
          split
          next late => simp [Int.not_le.mpr late]
          next inside => simp [Int.not_lt.mp timely,Int.not_lt.mp inside]
      cases status with
      | cancelled => simp [EventStatus.text]
      | starting | ending => simpa [EventStatus.text,few] using bounds

/-- A time that the schema takes is below the bound of the service if it is whole. -/
theorem whole_le {value : Rat} (most : value ≤ maxMinutes) (whole : value.den = 1) :
    value.num ≤ maxTimeMinutes := by
  have bound : maxMinutes.den = 1 ∧ maxMinutes.num = maxTimeMinutes := by decide +kernel
  have scaled := (Rat.le_iff value maxMinutes).mp most
  rw [whole,bound.1,bound.2] at scaled
  simpa using scaled

/-- The time reaches the service as an integer of at least one minute exactly if it is one. -/
theorem decodeInt_iff {time : Number} (taken : timeSchema (.number time) = some time) :
    (∃ minutes, sentMinutes (some time) = .ok (some minutes) ∧ minTimeMinutes ≤ minutes ∧
      minutes ≤ maxTimeMinutes) ↔ Whole (.number time) := by
  rw [sentMinutes_some]
  cases time with
  | nan => contradiction
  | infinite negative =>
    refine ⟨?_,fun whole => whole.elim⟩
    rintro ⟨minutes,decoded,_⟩
    have null : decodeInt none (Number.infinite negative).json = .ok none := rfl
    rw [null] at decoded
    cases decoded
  | finite value =>
    have most : value ≤ maxMinutes := by
      by_contra beyond
      simp [timeSchema,beyond] at taken
    have decodes : decodeInt none (Number.finite value).json =
        if value.den = 1 ∧ -2 ^ 63 ≤ value.num ∧ value.num < 2 ^ 63 then .ok (some value.num)
        else .error "json: cannot unmarshal number into Go struct field of type int" := rfl
    rw [decodes]
    constructor
    · rintro ⟨minutes,decoded,least,_⟩
      split at decoded
      next inside =>
        cases decoded
        exact ⟨inside.1,least⟩
      next => contradiction
    · rintro ⟨whole,least⟩
      have bound := whole_le most whole
      refine ⟨value.num,if_pos ⟨whole,?_,?_⟩,least,bound⟩
      · omega
      · rw [maxTimeMinutes] at bound
        omega

theorem keywords_few : ((JsText.split ',' data.keywords).map JsText.trim).length ≤ maxKeywords ↔
    data.keywords.toList.count ',' < maxKeywords := by
  rw [List.length_map,JsText.split_length]
  omega

/-- What the schema has let through: an event status, with a time if it has one. -/
theorem eventSchema_cases {eventStatus timeCondition : Value} {event : EventStatus × Option Number}
    (taken : eventSchema eventStatus timeCondition = some (some event)) :
    event = (.cancelled,none) ∧ eventStatus = .string "cancelled" ∨
      ∃ status time, event = (status,some time) ∧ status ≠ .cancelled ∧ eventStatus ≠ .string "cancelled" ∧
        timeCondition = .number time ∧ timeSchema (.number time) = some time := by
  have timed : ∀ {time}, timeSchema timeCondition = some time → timeCondition = .number time := by
    intro time taken
    cases timeCondition with
    | number value =>
      cases value with
      | finite value =>
        simp only [timeSchema] at taken
        split at taken
        next => cases taken; rfl
        next => contradiction
      | infinite negative => cases negative <;> cases taken; rfl
      | nan => contradiction
    | undefined | null | boolean | string | object => contradiction
  unfold eventSchema at taken
  split at taken
  next => cases taken
  next => cases taken; exact .inl ⟨rfl,rfl⟩
  next =>
    obtain ⟨time,schema,same⟩ := Option.map_eq_some_iff.mp taken
    cases same
    have number := timed schema
    exact .inr ⟨.starting,time,rfl,by decide,by decide,number,number ▸ schema⟩
  next =>
    obtain ⟨time,schema,same⟩ := Option.map_eq_some_iff.mp taken
    cases same
    have number := timed schema
    exact .inr ⟨.ending,time,rfl,by decide,by decide,number,number ▸ schema⟩
  next => contradiction

theorem keywordsSchema_some {value : Value} {text : String} (taken : keywordsSchema value = some text) :
    value = .string text := by
  cases value with
  | string value => cases taken; rfl
  | undefined | null | boolean | number | object => contradiction

/-- What has been saved, and what the schema has said to the fields. -/
theorem onSubmit_saved (saved : onSubmit state = .saved config) :
    ∃ data event, config = savedData data event ∧ state.keywords = .string data.keywords ∧
      eventSchema state.eventStatus state.timeCondition = some (some event) := by
  unfold onSubmit at saved
  split at saved
  next => contradiction
  next data taken =>
    split at saved
    next => contradiction
    next event selected =>
      cases saved
      unfold calendarTriggerFormSchema at taken
      split at taken
      next eventTaken _ keywordsTaken =>
        cases taken
        exact ⟨_,event,rfl,keywordsSchema_some keywordsTaken,eventTaken.trans (congrArg some selected)⟩
      next => contradiction

theorem accepted_iff : Accepted (savedData data event) ↔ data.keywords.toList.count ',' < maxKeywords ∧
    (event.1 = .cancelled ∧ sentMinutes event.2 = .ok none ∨
      event.1 ≠ .cancelled ∧ ∃ minutes, sentMinutes event.2 = .ok (some minutes) ∧
        minTimeMinutes ≤ minutes ∧ minutes ≤ maxTimeMinutes) := by
  rw [← keywords_few]
  constructor
  · rintro ⟨c,built,valid⟩
    obtain ⟨time,decoded,rfl⟩ := built_iff.mp built
    obtain ⟨few,⟨cancelled,rfl⟩ | ⟨timed,minutes,rfl,bounds⟩⟩ := valid_iff.mp valid
    · exact ⟨few,.inl ⟨cancelled,decoded⟩⟩
    · exact ⟨few,.inr ⟨timed,minutes,decoded,bounds⟩⟩
  · rintro ⟨few,⟨cancelled,decoded⟩ | ⟨timed,minutes,decoded,bounds⟩⟩
    · exact ⟨_,built_iff.mpr ⟨_,decoded,rfl⟩,valid_iff.mpr ⟨few,.inl ⟨cancelled,rfl⟩⟩⟩
    · exact ⟨_,built_iff.mpr ⟨_,decoded,rfl⟩,valid_iff.mpr ⟨few,.inr ⟨timed,minutes,rfl,bounds⟩⟩⟩

/-- The event that the schema has let through, against what the fields of the form hold. -/
theorem selected_iff (taken : eventSchema state.eventStatus state.timeCondition = some (some event)) :
    Accepted (savedData data event) ↔ data.keywords.toList.count ',' < maxKeywords ∧
      (state.eventStatus = .string "cancelled" ∨ Whole state.timeCondition) := by
  rw [accepted_iff]
  apply and_congr_right'
  rcases eventSchema_cases taken with ⟨rfl,cancelled⟩ | ⟨status,time,rfl,timed,other,number,schema⟩
  · simp [cancelled,sentMinutes_none]
  · rw [number,← decodeInt_iff schema]
    simp [timed,other]

/-- The service takes what the form saves exactly if there are at most 20 keywords and the time,
if the event has one, is a whole number of minutes. -/
theorem saved_accepted_iff (saved : onSubmit state = .saved config) :
    Accepted config ↔ commas state.keywords < maxKeywords ∧
      (state.eventStatus = .string "cancelled" ∨ Whole state.timeCondition) := by
  obtain ⟨data,event,rfl,text,taken⟩ := onSubmit_saved saved
  rw [text]
  exact selected_iff taken

theorem preset_whole {preset : Rat} (offered : preset ∈ presets) :
    Whole (.number (.finite preset)) ↔ preset ≠ 0 := by
  have each : ∀ preset ∈ presets, Whole (.number (.finite preset)) ↔ preset ≠ 0 := by decide +kernel
  exact each preset offered

/-- Of the times that the select offers the service refuses the first and no other. -/
theorem preset_accepted_iff (saved : onSubmit state = .saved config) (few : commas state.keywords < maxKeywords)
    (timed : state.eventStatus ≠ .string "cancelled") {preset : Rat} (offered : preset ∈ presets)
    (chosen : state.timeCondition = .number (.finite preset)) : Accepted config ↔ preset ≠ 0 := by
  obtain ⟨data,event,rfl,text,taken⟩ := onSubmit_saved saved
  rw [text] at few
  rw [selected_iff taken,chosen,preset_whole offered]
  exact ⟨fun ⟨_,either⟩ => either.resolve_left timed,fun later => ⟨few,.inr later⟩⟩

theorem custom_whole {amount : Nat} (unit : TimeUnit) (some_ : 0 < amount) :
    Whole (.number (.finite (convertToMinutes amount unit))) := by
  have minutes : convertToMinutes amount unit = (amount * timeUnitToMinutes unit : Nat) := by
    rw [convertToMinutes,Rat.natCast_mul]
  have positive : 0 < amount * timeUnitToMinutes unit :=
    Nat.mul_pos some_ (by cases unit <;> decide)
  rw [minutes]
  refine ⟨Rat.den_natCast _,?_⟩
  rw [Rat.num_natCast]
  exact_mod_cast positive

/-- A custom amount that is a whole number is taken, whatever its unit. -/
theorem custom_accepted (saved : onSubmit state = .saved config) (few : commas state.keywords < maxKeywords)
    {amount : Nat} {unit : TimeUnit} (some_ : 0 < amount)
    (chosen : state.timeCondition = .number (.finite (convertToMinutes amount unit))) : Accepted config := by
  obtain ⟨data,event,rfl,text,taken⟩ := onSubmit_saved saved
  rw [text] at few
  exact (selected_iff taken).mpr ⟨few,.inr (chosen ▸ custom_whole unit some_)⟩

end Agreement

/-- An event that is about to start, with the time of a preset. -/
def upcoming (preset : Rat) : FormState where
  eventStatus := .string "starting"
  calendarID := .null
  keywords := .string "standup, team"
  timeCondition := .number (.finite preset)

def upcomingConfig (preset : Rat) : Config :=
  savedData ⟨none,"standup, team",some (.starting,some (.finite preset))⟩ (.starting,some (.finite preset))

theorem quarter_accepted : onSubmit (upcoming 15) = .saved (upcomingConfig 15) ∧ Accepted (upcomingConfig 15) := by
  have saved : onSubmit (upcoming 15) = .saved (upcomingConfig 15) := by decide +kernel
  exact ⟨saved,(saved_accepted_iff saved).mpr (by decide +kernel)⟩

/-- The preset "Immediately" is saved as 0 minutes. -/
theorem immediately_refused : ¬∀ state config, onSubmit state = .saved config → Accepted config := by
  intro claim
  obtain ⟨c,built,valid⟩ := claim (upcoming 0) (upcomingConfig 0) (by decide +kernel)
  have zero : buildCalendarConfig (upcomingConfig 0) =
      .ok ⟨some "primary",["standup","team"],some 0,"starting"⟩ := by decide +kernel
  cases zero.symm.trans built
  exact absurd valid (by decide +kernel)

end TinyAutomator.Workflows.CalendarForm
