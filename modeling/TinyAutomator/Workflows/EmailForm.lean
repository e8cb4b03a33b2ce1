import TinyAutomator.Lib.Addresses
import TinyAutomator.Lib.JsText
import TinyAutomator.Lib.Transition
import TinyAutomator.Lib.Utf8
import TinyAutomator.Mail
import TinyAutomator.Workflows.Triggers

/-! The inspector's form for send_email nodes, from what is typed, pasted and uploaded to the mail that
an execution of the node sends. -/
namespace TinyAutomator.Workflows.EmailForm

open Transition
open Rfc5322 (AddrSpec addresses)

section Form

/-- zod's check for addresses, which lets through letters of either case. -/
structure Zod where
  email : String → Bool
  addrSpec : ∀ text, email text = true → AddrSpec text
  lower : ∀ text, email text = true → email (JsText.toLowerCase text) = true

structure EmailFormValues where
  recipients : List String
  subject : String
  message : String
  deriving DecidableEq

def normalizeEmail (email : String) : String := JsText.toLowerCase (JsText.trim email)

variable (z : Zod)

def parseEmail (email : String) : Option String :=
  if z.email email then some (normalizeEmail email) else none

def maxMessageCharCount : Nat := 2500

def maxSubjectCharCount : Nat := 100

/-- The path and the message of the issue of a text, if it has one. -/
def textIssues (path required long : String) (most : Nat) (text : String) : List (String × String) :=
  if Utf8.utf16Length text < 1 then [(path,required)]
  else if most < Utf8.utf16Length text then [(path,long)]
  else []

def recipientIssues (recipients : List String) : List (String × String) :=
  if recipients.length > 0 then [] else [("recipients","At least one valid email recipient is required")]

def emailFormSchema (values : EmailFormValues) : Except (List (String × String)) EmailFormValues :=
  let recipients := values.recipients.filterMap (parseEmail z)
  let issues := recipientIssues recipients ++
    textIssues "subject" "Subject is required" "Subject must be under 100 characters" maxSubjectCharCount
      values.subject ++
    textIssues "message" "Message body is required" "Message must be under 2500 characters" maxMessageCharCount
      values.message
  if issues = [] then .ok { values with recipients } else .error issues

/-- The config that a save puts into the node. -/
def EmailFormValues.config (values : EmailFormValues) : Config :=
  { Config.blank with
    rest := [("message",.str values.message),("recipients",.strs (values.recipients.map some)),
      ("subject",.str values.subject)] }

/-- The values of a form that is mounted; a config that is neither empty nor an email's breaks it. -/
def defaultValues (config : Config) : Option EmailFormValues :=
  if config = Config.blank then some ⟨[],"",""⟩
  else
    match config.rest.lookup "recipients", config.rest.lookup "subject", config.rest.lookup "message" with
    | some (.strs recipients), some (.str subject), some (.str message) =>
      if none ∈ recipients then none else some ⟨recipients.filterMap id,subject,message⟩
    | _, _, _ => none

end Form

section Inspector

variable (z : Zod)

/-- RecipientInputField: an address that is entered moves to the end. -/
def handleAdd (recipients : List String) (email : String) : List String :=
  if email = "" then recipients else recipients.filter (· ≠ email) ++ [email]

def handlePaste (recipients : List String) (text : String) : List String :=
  if text.toList.any JsText.space then
    let newEmails := (JsText.splitRuns (fun c => JsText.space c || c == ',') text).map JsText.trim
    (recipients ++ newEmails).eraseDups
  else recipients

/-- RecipientChip's handleSave with RecipientChips' handleUpdate. -/
def handleUpdate (recipients : List String) (old edited : String) : List String :=
  recipients.map fun recipient => if recipient = old then (parseEmail z edited).getD edited else recipient

def handleRemove (recipients : List String) (recipient : String) : List String := recipients.filter (· ≠ recipient)

/-- The cells of a file with text in them; a file that is no CSV is taken as one without cells. -/
def parseEmailCsv (cells : List String) : List String := cells.filter (JsText.trim · ≠ "")

/-- The mounted form. An upload has kept the recipients of the render in which it was started. -/
structure Panel where
  node : ID
  values : EmailFormValues
  uploads : List (List String)

/-- The configs of the send_email nodes on the canvas. -/
structure Inspector where
  configs : ID → Config
  panel : Option Panel

inductive Input where
  | select (node : ID)
  | deselect
  | add (email : String)
  | paste (text : String)
  | update (old edited : String)
  | remove (recipient : String)
  | upload
  | parsed (upload : Nat) (cells : List String)
  | subject (text : String)
  | message (text : String)
  | reset
  | submit

def Panel.setRecipients (p : Panel) (recipients : List String) : Panel :=
  { p with values := { p.values with recipients } }

/-- What an input does to the form. -/
def Panel.edit (p : Panel) : Input → Option Panel
  | .add email => some (p.setRecipients (handleAdd p.values.recipients email))
  | .paste text => some (p.setRecipients (handlePaste p.values.recipients text))
  | .update old edited => some (p.setRecipients (handleUpdate z p.values.recipients old edited))
  | .remove recipient => some (p.setRecipients (handleRemove p.values.recipients recipient))
  | .upload => some { p with uploads := p.uploads ++ [p.values.recipients] }
  | .parsed i cells =>
    p.uploads[i]?.map fun recipients =>
      let p := { p with uploads := p.uploads.eraseIdx i }
      let emails := parseEmailCsv cells
      if emails = [] then p else p.setRecipients (recipients ++ emails)
  | .subject text => some { p with values := { p.values with subject := text } }
  | .message text => some { p with values := { p.values with message := text } }
  | .reset => some { p with values := ⟨[],"",""⟩ }
  | .select _ | .deselect | .submit => none

def Inspector.submit (s : Inspector) (p : Panel) : Inspector :=
  match emailFormSchema z p.values with
  | .ok data => { s with configs := fun n => if n = p.node then data.config else s.configs n }
  | .error _ => s

/-- From one send_email node to another the form stays mounted, and keeps its values. -/
def Inspector.select (s : Inspector) (node : ID) : Option Inspector :=
  match s.panel with
  | some p => some { s with panel := some { p with node } }
  | none => (defaultValues (s.configs node)).map fun values => { s with panel := some ⟨node,values,[]⟩ }

def step : Input → Inspector → Option Inspector
  | .select node, s => s.select node
  | .deselect, s => some { s with panel := none }
  | .submit, s => s.panel.map (s.submit z)
  | input, s => (s.panel.bind (Panel.edit z · input)).map fun p => { s with panel := some p }

def inspector (configs : ID → Config) : System Inspector Input := ⟨⟨configs,none⟩,step z⟩

def OneLine (text : String) : Prop := ∀ c ∈ text.toList, c ≠ '\r' ∧ c ≠ '\n'

/-- A field of one line takes no line ends. -/
def Typed : Guard Inspector Input
  | _, .subject text => OneLine text
  | _, _ => True

/-- Nodes are selected and saved as they are. -/
def Idle : Guard Inspector Input
  | s, .select _ => s.panel.isNone = true
  | _, .deselect | _, .submit => True
  | _, _ => False

end Inspector

section Execution

/-- ExtractEmailConfig. -/
def extractEmailConfig (config : Config) : Except String Mail.EmailConfig := do
  let recipients ← (folded config.rest "recipients").foldlM decodeStrings .none
  let subject ← (folded config.rest "subject").foldlM decodeText ""
  let message ← (folded config.rest "message").foldlM decodeText ""
  .ok ⟨recipients.shown.map Utf8.encode,Utf8.encode subject,Utf8.encode message⟩

/-- Execute, once Gmail has given the address of the user. -/
def execute (email : Mail.Bytes) (config : Config) : Except Mail.Bytes Mail.Bytes :=
  match extractEmailConfig config with
  | .error err => .error (Mail.ascii "invalid email config: failed to unmarshal config: " ++ Utf8.encode err)
  | .ok c => Mail.execute email c

def validate (parseAddress : Mail.Bytes → Bool) (config : Config) : Except Mail.Bytes Unit :=
  match extractEmailConfig config with
  | .error err => .error (Mail.ascii "failed to unmarshal config: " ++ Utf8.encode err)
  | .ok c => Mail.validate parseAddress c

end Execution

section Schema

variable {z : Zod} {email : String} {values data : EmailFormValues}

/-- What the schema lets through. -/
structure Sendable (z : Zod) (values : EmailFormValues) : Prop where
  some : values.recipients ≠ []
  emails : ∀ r ∈ values.recipients, z.email r = true
  normal : ∀ r ∈ values.recipients, normalizeEmail r = r
  subject : 1 ≤ Utf8.utf16Length values.subject ∧ Utf8.utf16Length values.subject ≤ maxSubjectCharCount
  message : 1 ≤ Utf8.utf16Length values.message ∧ Utf8.utf16Length values.message ≤ maxMessageCharCount

theorem trim_address (address : AddrSpec email) : JsText.trim email = email := by
  refine JsText.trim_self fun c member => ?_
  obtain ⟨above,below,_⟩ := address.printable member
  simp [JsText.space]
  omega

theorem normalizeEmail_address (taken : z.email email = true) : normalizeEmail email = JsText.toLowerCase email := by
  rw [normalizeEmail,trim_address (z.addrSpec email taken)]

theorem parseEmail_some {parsed : String} (taken : parseEmail z email = some parsed) :
    z.email parsed = true ∧ normalizeEmail parsed = parsed := by
  unfold parseEmail at taken
  split at taken
  next valid =>
    obtain rfl := Option.some.inj taken
    rw [normalizeEmail_address valid]
    have lower := z.lower email valid
    exact ⟨lower,by rw [normalizeEmail_address lower,JsText.toLowerCase_idem]⟩
  next => contradiction

theorem textIssues_nil {path required long text : String} {most : Nat} :
    textIssues path required long most text = [] ↔ 1 ≤ Utf8.utf16Length text ∧ Utf8.utf16Length text ≤ most := by
  unfold textIssues
  split
  next => simp; omega
  next =>
    split
    next => simp; omega
    next => simp; omega

theorem recipientIssues_nil {recipients : List String} : recipientIssues recipients = [] ↔ recipients ≠ [] := by
  cases recipients <;> simp [recipientIssues]

theorem schema_ok : emailFormSchema z values = .ok data ↔
    data = { values with recipients := values.recipients.filterMap (parseEmail z) } ∧
    data.recipients ≠ [] ∧
    (1 ≤ Utf8.utf16Length values.subject ∧ Utf8.utf16Length values.subject ≤ maxSubjectCharCount) ∧
    1 ≤ Utf8.utf16Length values.message ∧ Utf8.utf16Length values.message ≤ maxMessageCharCount := by
  unfold emailFormSchema
  simp only [List.append_eq_nil_iff,recipientIssues_nil,textIssues_nil]
  split
  next valid =>
    obtain ⟨⟨some,subject⟩,message⟩ := valid
    constructor
    · rintro ⟨⟩
      exact ⟨rfl,some,subject,message⟩
    · rintro ⟨rfl,_⟩
      rfl
  next invalid =>
    refine ⟨fun wrong => by contradiction,?_⟩
    rintro ⟨rfl,some,subject,message⟩
    exact absurd ⟨⟨some,subject⟩,message⟩ invalid

theorem schema_sendable (ok : emailFormSchema z values = .ok data) : Sendable z data ∧ data.subject = values.subject := by
  obtain ⟨is,some,subject,message⟩ := schema_ok.mp ok
  have parsed : ∀ r ∈ data.recipients, z.email r = true ∧ normalizeEmail r = r := by
    intro r member
    rw [is] at member
    obtain ⟨email,_,taken⟩ := List.mem_filterMap.mp member
    exact parseEmail_some taken
  refine ⟨⟨some,fun r member => (parsed r member).1,fun r member => (parsed r member).2,?_,?_⟩,?_⟩
  · rw [is]
    exact subject
  · rw [is]
    exact message
  · rw [is]

/-- What has been saved is saved again as it is. -/
theorem Sendable.schema (sendable : Sendable z values) : emailFormSchema z values = .ok values := by
  have same : values.recipients.filterMap (parseEmail z) = values.recipients := by
    refine (List.filterMap_congr fun r member => ?_).trans (List.filterMap_some)
    rw [parseEmail,if_pos (sendable.emails r member),sendable.normal r member]
  exact schema_ok.mpr ⟨by rw [same],sendable.some,sendable.subject,sendable.message⟩

theorem defaultValues_config : defaultValues values.config = some values := by
  have filled : values.config ≠ Config.blank := by
    intro blank
    have rest := congrArg Config.rest blank
    contradiction
  have listed : ∀ l : List String, none ∉ l.map some ∧ (l.map some).filterMap id = l := by
    intro l
    simp
  have recipients : values.config.rest.lookup "recipients" = some (.strs (values.recipients.map some)) := rfl
  have subject : values.config.rest.lookup "subject" = some (.str values.subject) := rfl
  have message : values.config.rest.lookup "message" = some (.str values.message) := rfl
  rw [defaultValues,if_neg filled,recipients,subject,message]
  simp [listed]

end Schema

section Mails

variable {z : Zod} {values : EmailFormValues} {text : String} {email : Mail.Bytes}

theorem folded_config : folded values.config.stored.rest "recipients" = [.strs (values.recipients.map some)] ∧
    folded values.config.stored.rest "subject" = [.str values.subject] ∧
    folded values.config.stored.rest "message" = [.str values.message] := by
  have apart : foldName "message" ≠ foldName "recipients" ∧ foldName "subject" ≠ foldName "recipients" ∧
      foldName "message" ≠ foldName "subject" := by decide +kernel
  simp [folded,EmailFormValues.config,Config.stored,Config.blank,Json.stored,apart,apart.1.symm,apart.2.1.symm,
    apart.2.2.symm]

theorem extract_config : extractEmailConfig values.config.stored =
    .ok ⟨values.recipients.map Utf8.encode,Utf8.encode values.subject,Utf8.encode values.message⟩ := by
  obtain ⟨recipients,subject,message⟩ := @folded_config values
  simp only [extractEmailConfig,recipients,subject,message,List.foldlM_cons,List.foldlM_nil,decodeStrings_listed,
    decodeText]
  rfl

end Mails

section Sessions

variable {z : Zod} {start : ID → Config} {s t : Inspector} {a : Input} {p q : Panel}

/-- Every config is empty or is one that a session of the form has saved. -/
def Configured (z : Zod) (configs : ID → Config) : Prop := ∀ n, configs n = Config.blank ∨
  ∃ v : EmailFormValues, configs n = v.config ∧ Sendable z v ∧ OneLine v.subject

structure Inspector.Sound (z : Zod) (s : Inspector) : Prop where
  configs : Configured z s.configs
  subject : ∀ p ∈ s.panel, OneLine p.values.subject

theorem edit_subject (edited : p.edit z a = some q) : q.node = p.node ∧
    (q.values.subject = p.values.subject ∨ q.values.subject = "" ∨ a = .subject q.values.subject) := by
  cases a with
  | subject text =>
    cases edited
    exact ⟨rfl,.inr (.inr rfl)⟩
  | reset =>
    cases edited
    exact ⟨rfl,.inr (.inl rfl)⟩
  | parsed i cells =>
    obtain ⟨recipients,_,rfl⟩ := Option.map_eq_some_iff.mp edited
    dsimp only
    split <;> exact ⟨rfl,.inl rfl⟩
  | add | paste | update | remove | upload | message =>
    cases edited
    exact ⟨rfl,.inl rfl⟩
  | select | deselect | submit => contradiction

/-- What an input can do: mount or unmount a form, save it, or edit it. -/
theorem step_cases (stepped : step z a s = some t) :
    (∃ node, a = .select node ∧ s.select node = some t) ∨ (a = .deselect ∧ t = { s with panel := none }) ∨
    (∃ p, a = .submit ∧ s.panel = some p ∧ t = s.submit z p) ∨
    ∃ p q, s.panel = some p ∧ p.edit z a = some q ∧ t = { s with panel := some q } := by
  cases a with
  | select node => exact .inl ⟨node,rfl,stepped⟩
  | deselect => exact .inr (.inl ⟨rfl,(Option.some.inj stepped).symm⟩)
  | submit =>
    obtain ⟨p,mounted,rfl⟩ := Option.map_eq_some_iff.mp stepped
    exact .inr (.inr (.inl ⟨p,rfl,mounted,rfl⟩))
  | add | paste | update | remove | upload | parsed | subject | message | reset =>
    obtain ⟨q,edited,rfl⟩ := Option.map_eq_some_iff.mp stepped
    obtain ⟨p,mounted,edited⟩ := Option.bind_eq_some_iff.mp edited
    exact .inr (.inr (.inr ⟨p,q,mounted,edited,rfl⟩))

theorem Inspector.Sound.step (sound : s.Sound z) (typed : Typed s a) (stepped : EmailForm.step z a s = some t) :
    t.Sound z := by
  rcases step_cases stepped with ⟨node,rfl,mounts⟩ | ⟨_,rfl⟩ | ⟨p,_,mounted,rfl⟩ | ⟨p,q,mounted,edited,rfl⟩
  · unfold Inspector.select at mounts
    split at mounts
    next p mounted =>
      cases mounts
      refine ⟨sound.configs,fun q is => ?_⟩
      obtain rfl := Option.some.inj is
      exact sound.subject p mounted
    next =>
      obtain ⟨values,default,rfl⟩ := Option.map_eq_some_iff.mp mounts
      refine ⟨sound.configs,fun q is => ?_⟩
      obtain rfl := Option.some.inj is
      rcases sound.configs node with blank | ⟨v,saved,_,oneLine⟩
      · rw [blank] at default
        cases default
        exact fun c member => by simp at member
      · rw [saved,defaultValues_config] at default
        cases default
        exact oneLine
  · exact ⟨sound.configs,fun q is => by contradiction⟩
  · unfold Inspector.submit
    split
    next data ok =>
      obtain ⟨sendable,subject⟩ := schema_sendable ok
      refine ⟨fun n => ?_,sound.subject⟩
      dsimp only
      split
      next => exact .inr ⟨data,rfl,sendable,subject ▸ sound.subject p mounted⟩
      next => exact sound.configs n
    next => exact sound
  · refine ⟨sound.configs,fun r is => ?_⟩
    obtain rfl := Option.some.inj is
    rcases (edit_subject edited).2 with same | empty | rfl
    · exact same ▸ sound.subject p mounted
    · rw [empty]
      exact fun c member => by simp at member
    · exact typed

theorem reach_sound (configured : Configured z start)
    (reach : Reach (inspector z start) Typed s) : s.Sound z := by
  refine reach.invariant (Inspector.Sound z) ⟨configured,fun p is => by contradiction⟩ ?_
  intro s a t _ sound typed stepped
  exact sound.step typed stepped

theorem config_inj {v w : EmailFormValues} (same : v.config = w.config) : v = w := by
  have read := congrArg defaultValues same
  rw [defaultValues_config,defaultValues_config] at read
  exact Option.some.inj read

theorem config_ne_blank {v : EmailFormValues} : v.config ≠ Config.blank := by
  intro blank
  have rest := congrArg Config.rest blank
  contradiction

end Sessions

section Results

variable {z : Zod} {start : ID → Config} {s t : Inspector} {n : ID} {values : EmailFormValues}

instance (text : String) : Decidable (OneLine text) :=
  decidable_of_iff (text.toList.all fun c => c ≠ '\r' && c ≠ '\n') (by simp [OneLine])

instance (s : Inspector) (a : Input) : Decidable (Typed s a) := by
  cases a <;> unfold Typed <;> infer_instance

instance (s : Inspector) (a : Input) : Decidable (Idle s a) := by
  cases a <;> unfold Idle <;> infer_instance

instance (text : List Char) : Decidable (Rfc5322.DotAtom text) :=
  decidable_of_iff ((text.splitOn '.').all fun part => part ≠ [] && part.all Rfc5322.atext) (by simp [Rfc5322.DotAtom])

/-- A check that takes one address, in two spellings. -/
def friend : Zod where
  email := fun text => text = "Ann@Example.com" ∨ text = "ann@example.com"
  addrSpec := by
    intro text taken
    rcases of_decide_eq_true taken with rfl | rfl
    · exact ⟨"Ann".toList,"Example.com".toList,by decide +kernel⟩
    · exact ⟨"ann".toList,"example.com".toList,by decide +kernel⟩
  lower := by
    intro text taken
    rcases of_decide_eq_true taken with rfl | rfl <;> decide +kernel

/-- The service's check, which nothing calls, takes a saved config exactly if its subject has at most
256 bytes; the form counts 100 characters. -/
theorem saved_validated_iff (configured : Configured z start)
    (reach : Reach (inspector z start) Typed s) (saved : s.configs n = values.config) {parseAddress : Mail.Bytes → Bool}
    (takes : ∀ text, AddrSpec text → parseAddress (Utf8.encode text) = true) :
    validate parseAddress (s.configs n).stored = .ok () ↔ (Utf8.encode values.subject).length ≤ 256 := by
  obtain ⟨v,is,sendable,_⟩ := ((reach_sound configured reach).configs n).resolve_left (saved ▸ config_ne_blank)
  obtain rfl := config_inj (saved.symm.trans is)
  have addresses : (values.recipients.map Utf8.encode).find? (!parseAddress ·) = none := by
    rw [List.find?_eq_none]
    intro a member
    obtain ⟨r,within,rfl⟩ := List.mem_map.mp member
    simp [takes r (z.addrSpec r (sendable.emails r within))]
  have message : (Utf8.encode values.message).length ≤ 10000 := by
    have bytes := @Utf8.encode_length_le values.message
    have units := sendable.message.2
    unfold maxMessageCharCount at units
    omega
  rw [saved,validate,extract_config]
  simp only [Mail.validate,List.length_map,List.length_eq_zero_iff,sendable.some,if_false,addresses,
    Nat.not_lt.mpr message]
  split
  next => simp; omega
  next => simp; omega

/-- A subject of a hundred signs of three bytes each. -/
def longSubject : String := String.ofList (List.replicate 100 '件')

theorem longSubject_refused : ∃ s, Reach (inspector friend fun _ => Config.blank) Typed s ∧
    s.configs (.row 1) = EmailFormValues.config ⟨["ann@example.com"],longSubject,"See you."⟩ ∧
    validate (fun _ => true) (s.configs (.row 1)).stored ≠ .ok () := by
  obtain ⟨s,reach,is⟩ : ∃ s, Reach (inspector friend fun _ => Config.blank) Typed s ∧
      s.configs (.row 1) = EmailFormValues.config ⟨["ann@example.com"],longSubject,"See you."⟩ :=
    follow_exists [.select (.row 1),.add "Ann@Example.com",.subject longSubject,.message "See you.",.submit]
      (by decide +kernel)
  refine ⟨s,reach,is,fun ok => ?_⟩
  exact absurd ((saved_validated_iff (fun _ => .inl rfl) reach is fun _ _ => rfl).mp ok) (by decide +kernel)

end Results

end TinyAutomator.Workflows.EmailForm
