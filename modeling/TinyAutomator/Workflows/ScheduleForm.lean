import TinyAutomator.Lib.Transition
import TinyAutomator.Lib.Zone
import TinyAutomator.Workflows.Triggers

/-! The inspector's form for a schedule trigger: a day and a time are picked in the browser's time
zone, and the service reads the instant that is saved. Instants are in milliseconds. -/
namespace TinyAutomator.Workflows.ScheduleForm

open Transition

section Time

variable (z : Zone)

/-- A time as the form keeps it, HH:mm. -/
def clockText (h m : Nat) : List Char := Rfc3339.pad 2 h ++ ':' :: Rfc3339.pad 2 m

/-- What date-fns's parse and a split with Number read of a time that is written with two digits. -/
def readClock (text : List Char) : Option (Nat × Nat) := do
  let (h,text) ← Rfc3339.field 2 0 23 text
  let text ← Rfc3339.symbol ':' text
  let (m,text) ← Rfc3339.field 2 0 59 text
  if text = [] then some (h,m) else none

def getNextHalfHour (date : Int) : List Char :=
  let roundedMinutes := (z.getMinutes date + 29) / 30 * 30
  if roundedMinutes = 60 then clockText ((z.getHours date + 1) % 24) 0
  else clockText (z.getHours date) roundedMinutes

/-- date-fns's parse on the day of `now`: the hour is set before the minute, and in the end the local
time is read once more. -/
def parse (now : Int) (value : List Char) : Option Int :=
  (readClock value).map fun clock =>
    let date := z.utc (Zone.timeOf (z.day now) clock.1 0)
    let date := z.utc (Zone.timeOf (z.day date) (z.getHours date) clock.2)
    z.utc (z.localTime date)

/-- None is an invalid date. -/
def combineDateAndTime (date : Int) (time : List Char) : Option Int :=
  (readClock time).map fun clock => z.setTime (z.midnight date) clock.1 clock.2

def toISOString (date : Int) : String := String.ofList (Rfc3339.render date)

end Time

section Picker

inductive Period where
  | am
  | pm
  deriving DecidableEq

/-- The three selects of the time picker; their two-digit texts are kept as numbers. -/
structure Parts where
  hour : Nat
  minute : Nat
  period : Period
  deriving DecidableEq

def Parts.of (h m : Nat) : Parts := ⟨if h % 12 = 0 then 12 else h % 12,m,if 12 ≤ h then .pm else .am⟩

def Parts.hour24 (parts : Parts) : Nat :=
  match parts.period with
  | .pm => if parts.hour < 12 then parts.hour + 12 else parts.hour
  | .am => if parts.hour = 12 then 0 else parts.hour

inductive Pick where
  | hour (option : Nat)
  | minute (option : Nat)
  | period (option : Period)

def Parts.pick (parts : Parts) : Pick → Parts
  | .hour option => { parts with hour := option }
  | .minute option => { parts with minute := option }
  | .period option => { parts with period := option }

def minuteOptions : List Nat := [0,10,20,30,40,50]

variable (z : Zone)

def dateTo12HourParts (date : Int) : Parts := Parts.of (z.getHours date) (z.getMinutes date)

def getTimePartsFromValue (now : Int) (value : List Char) (offset : Int) : Parts :=
  match parse z now value with
  | some parsed => dateTo12HourParts z parsed
  | none =>
    let later := now + offset * 60000
    let m := z.getMinutes later
    let minuteOption := (minuteOptions.find? (m ≤ ·)).getD 0
    let rounded := z.setMinutes later minuteOption
    let rounded := if minuteOption < m then z.setHours rounded (z.getHours rounded + 1) else rounded
    { dateTo12HourParts z rounded with minute := minuteOption }

def minuteOffset : Int := 10

def isTimeBeforeMinOffsetToday (now : Int) (parts : Parts) : Bool :=
  let candidate := z.setMinutes (z.setHours now parts.hour24) parts.minute
  -- setSeconds(0, 0)
  let candidate := z.utc (z.localTime candidate - z.clock candidate % 60000)
  candidate < now + minuteOffset * 60000

/-- The field after a pick. The parts that were shown come from a render at `shown`. -/
def handleTimePartChange (shown : Int) (value : List Char) (pick : Pick) : List Char :=
  let parts := (getTimePartsFromValue z shown value minuteOffset).pick pick
  clockText parts.hour24 parts.minute

end Picker

section Form

structure Form where
  scheduleType : Option String
  scheduledDate : Option Int
  scheduledTime : List Char

def ScheduleType.text : ScheduleType → String
  | .once => "once"
  | .daily => "daily"
  | .weekly => "weekly"
  | .monthly => "monthly"

/-- An option that is listed and not disabled. -/
def Form.offers (z : Zone) (form : Form) (pick : Pick) (shown now : Int) : Bool :=
  let listed := match pick with
    | .hour option => decide (1 ≤ option ∧ option ≤ 12)
    | .minute option => decide (option ∈ minuteOptions)
    | .period _ => true
  let todaySelected := form.scheduledDate.any fun date => z.day date = z.day now
  listed && !(todaySelected && isTimeBeforeMinOffsetToday z now
    ((getTimePartsFromValue z shown form.scheduledTime minuteOffset).pick pick))

def Form.typeIssues (form : Form) : List (String × String) :=
  match form.scheduleType with
  | none => [("scheduleType","Please select a schedule type")]
  | some text =>
    if (scheduleTypes text).isSome then []
    else [("scheduleType","Invalid enum value. Expected 'once' | 'daily' | 'weekly' | 'monthly', received '" ++
      text ++ "'")]

/-- The paths and messages of the issues; the dates are compared only if the fields are there. An
invalid date is not before any other. -/
def scheduleFormSchema (z : Zone) (now : Int) (form : Form) : List (String × String) :=
  match form.scheduledDate, form.typeIssues with
  | none, issues => issues ++ [("scheduledDate","Please select a date")]
  | some _, issue :: issues => issue :: issues
  | some date, [] =>
    (if z.midnight date < z.midnight now then [("scheduledDate","Date must be in the future")] else []) ++
    if (combineDateAndTime z date form.scheduledTime).any (· ≤ now) then
      [("scheduledTime","Time must be in the future")]
    else []

def savedConfig (scheduleType : String) (date : Int) : Config :=
  { Config.blank with
    scheduleType := some (.str scheduleType)
    scheduledDate := some (.str (toISOString date)) }

inductive Submit where
  | invalid (issues : List (String × String))
  | thrown
  | saved (config : Config)

def onSubmit (z : Zone) (now : Int) (form : Form) : Submit :=
  match scheduleFormSchema z now form with
  | issue :: issues => .invalid (issue :: issues)
  | [] =>
    match form.scheduleType, form.scheduledDate.bind (combineDateAndTime z · form.scheduledTime) with
    | some scheduleType, some date => .saved (savedConfig scheduleType date)
    -- toISOString of an invalid date
    | _, _ => .thrown

end Form

section Inspector

/-- The browser's zone, and its `new Date(value)`, which reads what toISOString writes. -/
structure Browser where
  zone : Zone
  date : Json → Option Int
  iso : ∀ t, 0 ≤ Rfc3339.year t ∧ Rfc3339.year t ≤ 9999 → date (.str (toISOString t)) = some t

/-- What the user has picked and is shown. -/
structure Chosen where
  day : Option Int
  parts : Parts
  deriving DecidableEq

/-- A save that was accepted at `now`. -/
structure Saved where
  scheduleType : String
  chosen : Chosen
  now : Int
  deriving DecidableEq

/-- The time that was picked, on a day. -/
def Saved.timeOn (r : Saved) (d : Int) : Int := Zone.timeOf d r.chosen.parts.hour24 r.chosen.parts.minute

/-- The form, if the inspector is open, and the node's config. -/
structure Panel where
  form : Option Form
  config : Config
  chosen : Chosen
  saved : Option Saved

inductive Input where
  | opened (now : Int)
  | reset (now : Int)
  | pickType (scheduleType : ScheduleType)
  | pickDay (day : Option Int) (now : Int)
  | pickPart (pick : Pick) (shown now : Int)
  | submit (now : Int)

variable (b : Browser)

def defaults (z : Zone) (now : Int) : Form := ⟨some "once",some now,getNextHalfHour z now⟩

/-- The form's first values; a config whose date is no date makes format throw. -/
def formValues (config : Config) (now : Int) : Option Form :=
  if config = Config.blank then some (defaults b.zone now)
  else (config.scheduledDate.bind b.date).map fun date =>
    ⟨asString config.scheduleType,some date,clockText (b.zone.getHours date) (b.zone.getMinutes date)⟩

/-- What a form shows before the user has picked anything. -/
def Form.shown (z : Zone) (form : Form) : Chosen where
  day := form.scheduledDate.map z.day
  parts := ((readClock form.scheduledTime).map fun clock => Parts.of clock.1 clock.2).getD (Parts.of 0 0)

def Panel.load (p : Panel) (form : Form) : Panel :=
  { p with form := some form, chosen := form.shown b.zone }

/-- The calendar gives the midnight of a day, or nothing when the selected day is clicked again. -/
def Panel.pickDay (p : Panel) (form : Form) (day : Option Int) : Panel :=
  { p with
    form := some { form with scheduledDate := day.map fun d => b.zone.utc (Zone.timeOf d 0 0) }
    chosen := { p.chosen with day } }

def Panel.pickPart (p : Panel) (form : Form) (pick : Pick) (shown : Int) : Panel :=
  { p with
    form := some { form with scheduledTime := handleTimePartChange b.zone shown form.scheduledTime pick }
    chosen := { p.chosen with parts := p.chosen.parts.pick pick } }

def Panel.submit (p : Panel) (form : Form) (now : Int) : Panel :=
  match onSubmit b.zone now form with
  | .saved config => { p with config, saved := some ⟨form.scheduleType.getD "",p.chosen,now⟩ }
  | .invalid _ | .thrown => p

def step : Input → Panel → Option Panel
  | .opened now, p => (formValues b p.config now).map (p.load b)
  | .reset now, p => p.form.map fun _ => p.load b (defaults b.zone now)
  | .pickType scheduleType, p =>
    p.form.map fun form => { p with form := some { form with scheduleType := some (ScheduleType.text scheduleType) } }
  | .pickDay day now, p =>
    if day.any fun d => b.zone.utc (Zone.timeOf d 0 0) < b.zone.midnight now then none
    else p.form.map fun form => p.pickDay b form day
  | .pickPart pick shown now, p => do
    let form ← p.form
    if form.offers b.zone pick shown now then some (p.pickPart b form pick shown) else none
  | .submit now, p => p.form.map fun form => p.submit b form now

/-- The inspector of a node with a config. -/
def panel (config : Config) : System Panel Input := ⟨⟨none,config,⟨none,Parts.of 0 0⟩,none⟩,step b⟩

/-- The user opens the inspector and saves, and picks nothing. -/
def Untouched : Guard Panel Input
  | _, .opened _ | _, .submit _ => True
  | _, _ => False

end Inspector

section Texts

variable {h m : Nat} {parts : Parts}

theorem readClock_clockText (hours : h < 24) (minutes : m < 60) : readClock (clockText h m) = some (h,m) := by
  have hour {rest : List Char} : Rfc3339.field 2 0 23 (Rfc3339.pad 2 h ++ rest) = some (h,rest) :=
    Rfc3339.field_pad (by omega) (Nat.zero_le h) (by omega)
  have minute : Rfc3339.field 2 0 59 (Rfc3339.pad 2 m) = some (m,[]) := by
    have read := @Rfc3339.field_pad 2 m 0 59 [] (by omega) (Nat.zero_le m) (by omega)
    rwa [List.append_nil] at read
  simp [readClock,clockText,hour,minute]

theorem hour24_of (hours : h < 24) : (Parts.of h m).hour24 = h := by
  unfold Parts.of Parts.hour24
  by_cases noon : 12 ≤ h
  · simp only [if_pos noon]
    split <;> split <;> omega
  · simp only [if_neg noon]
    split <;> split <;> omega

/-- The parts are among the times of a day. -/
def Parts.Listed (parts : Parts) : Prop := 1 ≤ parts.hour ∧ parts.hour ≤ 12 ∧ parts.minute < 60

theorem Parts.Listed.hour24 (listed : parts.Listed) :
    parts.hour24 < 24 ∧ Parts.of parts.hour24 parts.minute = parts := by
  obtain ⟨hour,minute,period⟩ := parts
  obtain ⟨first,last,_⟩ := listed
  dsimp only at first last
  unfold Parts.of Parts.hour24
  cases period with
  | am =>
    dsimp only
    split
    next noon => exact ⟨by decide,by rw [noon]; rfl⟩
    next => exact ⟨by omega,by rw [if_neg (by omega),if_neg (by omega),Nat.mod_eq_of_lt (by omega)]⟩
  | pm =>
    dsimp only
    split
    next => exact ⟨by omega,by rw [if_neg (by omega),if_pos (by omega),Nat.add_mod_right,Nat.mod_eq_of_lt (by omega)]⟩
    next =>
      obtain rfl : hour = 12 := by omega
      exact ⟨by decide,rfl⟩

theorem of_listed (minutes : m < 60) : (Parts.of h m).Listed := by
  unfold Parts.Listed Parts.of
  dsimp only
  split <;> omega

end Texts

section Fields

variable {b : Browser} {config : Config} {p q : Panel} {form : Form} {z : Zone} {a : Input}

/-- The form holds the time that is shown, and the day, unless the clocks skip the day's start. -/
structure Shows (z : Zone) (form : Form) (chosen : Chosen) : Prop where
  time : ∃ h m, form.scheduledTime = clockText h m ∧ h < 24 ∧ m < 60 ∧ chosen.parts = Parts.of h m
  picked : form.scheduledDate.isSome = chosen.day.isSome
  day : ∀ d date, chosen.day = some d → form.scheduledDate = some date → z.Begins d → z.day date = d

theorem Shows.pickDay {chosen : Chosen} (shows : Shows z form chosen) (day : Option Int) :
    Shows z { form with scheduledDate := day.map fun d => z.utc (Zone.timeOf d 0 0) } { chosen with day } where
  time := shows.time
  picked := Option.isSome_map
  day := by
    rintro d date rfl held begins
    cases held
    exact begins.1

theorem pick_listed {pick : Pick} {shown now : Int} {parts : Parts} (offered : form.offers z pick shown now = true)
    (listed : parts.Listed) : (parts.pick pick).Listed := by
  obtain ⟨first,last,minutes⟩ := listed
  have among := (Bool.and_eq_true_iff.mp offered).1
  cases pick with
  | hour option =>
    obtain ⟨first,last⟩ := of_decide_eq_true among
    exact ⟨first,last,minutes⟩
  | minute option =>
    have bound : ∀ option ∈ minuteOptions, option < 60 := by decide
    exact ⟨first,last,bound option (of_decide_eq_true among)⟩
  | period option => exact ⟨first,last,minutes⟩

/-- A time that today has, and its full hour, is parsed as the first instant with it. -/
theorem parse_clockText {h m : Nat} {now : Int} (hours : h < 24) (minutes : m < 60)
    (full : z.Has (Zone.timeOf (z.day now) h 0)) (today : z.Has (Zone.timeOf (z.day now) h m)) :
    parse z now (clockText h m) = some (z.utc (Zone.timeOf (z.day now) h m)) := by
  obtain ⟨day,hour,_⟩ := Zone.getters hours (by decide) (Zone.localTime_utc full)
  unfold parse
  rw [readClock_clockText hours minutes]
  dsimp only [Option.map_some]
  rw [day,hour,Zone.localTime_utc today]

theorem timeParts_eq {h m : Nat} {now : Int} (hours : h < 24) (minutes : m < 60)
    (full : z.Has (Zone.timeOf (z.day now) h 0)) (today : z.Has (Zone.timeOf (z.day now) h m)) (offset : Int) :
    getTimePartsFromValue z now (clockText h m) offset = Parts.of h m := by
  obtain ⟨_,hour,minute,_⟩ := Zone.getters hours minutes (Zone.localTime_utc today)
  unfold getTimePartsFromValue
  rw [parse_clockText hours minutes full today]
  dsimp only
  unfold dateTo12HourParts
  rw [hour,minute]

theorem Shows.pickPart {chosen : Chosen} (shows : Shows z form chosen) {pick : Pick} {shown now : Int}
    (offered : form.offers z pick shown now = true)
    (unskipped : ∀ clock ∈ readClock form.scheduledTime, z.Has (Zone.timeOf (z.day shown) clock.1 0) ∧
      z.Has (Zone.timeOf (z.day shown) clock.1 clock.2)) :
    Shows z { form with scheduledTime := handleTimePartChange z shown form.scheduledTime pick }
      { chosen with parts := chosen.parts.pick pick } where
  time := by
    obtain ⟨h,m,text,hours,minutes,parts⟩ := shows.time
    rw [text,readClock_clockText hours minutes] at unskipped
    obtain ⟨full,today⟩ := unskipped (h,m) rfl
    have before := timeParts_eq hours minutes full today minuteOffset
    have listed := pick_listed offered (@of_listed h m minutes)
    refine ⟨_,_,?_,listed.hour24.1,listed.2.2,?_⟩
    · unfold handleTimePartChange
      rw [text,before]
    · rw [parts,listed.hour24.2]
  picked := shows.picked
  day := shows.day

end Fields

section Saves

variable {b : Browser} {config : Config} {p q : Panel} {form : Form} {z : Zone} {a : Input} {now date : Int}

/-- What is saved: a listed type, and the combined date, which is later than the save. -/
theorem onSubmit_saved (submitted : onSubmit z now form = .saved config) :
    ∃ scheduleType day date, form.scheduleType = some scheduleType ∧ (scheduleTypes scheduleType).isSome = true ∧
      form.scheduledDate = some day ∧ combineDateAndTime z day form.scheduledTime = some date ∧ now < date ∧
      config = savedConfig scheduleType date := by
  unfold onSubmit at submitted
  split at submitted
  next => contradiction
  next accepted =>
    split at submitted
    next scheduleType date typed combined =>
      cases submitted
      obtain ⟨day,picked,combined⟩ := Option.bind_eq_some_iff.mp combined
      have listed : form.typeIssues = [] := by
        unfold scheduleFormSchema at accepted
        rw [picked] at accepted
        cases issues : form.typeIssues with
        | nil => rfl
        | cons issue rest => simp [issues] at accepted
      unfold scheduleFormSchema at accepted
      rw [picked,listed] at accepted
      have future := (List.append_eq_nil_iff.mp accepted).2
      rw [combined,Option.any_some] at future
      refine ⟨scheduleType,day,date,typed,?_,picked,combined,?_,rfl⟩
      · unfold Form.typeIssues at listed
        rw [typed] at listed
        by_contra unknown
        simp [unknown] at listed
      · by_contra past
        simp [Int.not_lt.mp past] at future
    next => contradiction

/-- The node holds what the user had picked when it was saved. -/
structure Panel.Sound (z : Zone) (p : Panel) : Prop where
  shows : ∀ form, p.form = some form → Shows z form p.chosen
  saved : ∀ r, p.saved = some r → ∃ date, p.config = savedConfig r.scheduleType date ∧
    (scheduleTypes r.scheduleType).isSome = true ∧ r.now < date ∧ r.chosen.parts.hour24 < 24 ∧
    r.chosen.parts.minute < 60 ∧ ∃ d, r.chosen.day = some d ∧
    (z.Begins d → date = z.utc (r.timeOn d))

theorem Panel.Sound.submit (sound : p.Sound b.zone) (held : p.form = some form) :
    (p.submit b form now).Sound b.zone := by
  unfold Panel.submit
  split
  next config submitted =>
    refine ⟨sound.shows,fun r saved => ?_⟩
    cases saved
    obtain ⟨scheduleType,day,date,typed,listed,picked,combined,later,rfl⟩ := onSubmit_saved submitted
    have shows := sound.shows form held
    obtain ⟨h,m,text,hours,minutes,parts⟩ := shows.time
    have chosen := shows.picked
    rw [picked] at chosen
    obtain ⟨d,chosen⟩ := Option.isSome_iff_exists.mp chosen.symm
    have clock : p.chosen.parts.hour24 = h ∧ p.chosen.parts.minute = m := by
      rw [parts,hour24_of hours]
      exact ⟨rfl,rfl⟩
    refine ⟨date,by rw [typed]; rfl,by rw [typed]; exact listed,later,clock.1 ▸ hours,clock.2 ▸ minutes,d,chosen,?_⟩
    intro begins
    have same := shows.day d day chosen picked begins
    unfold combineDateAndTime at combined
    rw [text,readClock_clockText hours minutes] at combined
    unfold Saved.timeOn
    rw [clock.1,clock.2,← Option.some.inj combined,← same]
    exact Zone.setTime_midnight (same.symm ▸ begins)
  next => exact sound
  next => exact sound

end Saves

section Examples

/-- The clocks go back by an hour at one o'clock of day 0. -/
def autumn : Zone where
  offset u := if u < 0 then 3600000 else 0
  utc x := if x < 3600000 then x - 3600000 else x
  exact := by
    intro u
    split <;> split <;> split <;> omega
  first := by
    intro u
    split <;> split <;> omega

def parseText (text : String) : Option Int := Rfc3339.parse text.toList

def reader : Browser where
  zone := autumn
  date
    | .str text => parseText text
    | _ => none
  iso t years := by
    simp only [parseText,toISOString,String.toList_ofList,Rfc3339.parse_render,if_pos years]

def again (p : Panel) : Option Panel := (step reader (.opened 0) p).bind (step reader (.submit (-864000000)))

end Examples

end TinyAutomator.Workflows.ScheduleForm
