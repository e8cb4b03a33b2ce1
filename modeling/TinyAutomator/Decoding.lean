import Mathlib.Algebra.Group.Int.Defs
import TinyAutomator.Lib.Fold
import TinyAutomator.Models
import Mathlib.Data.List.Basic

/-! encoding/json, decoding an object into a struct. A key goes to the field of its name, or
to the field whose name it is up to case. The keys come in the order in which json.Marshal
writes a map, and a later value is decoded over what an earlier one has left. -/
namespace TinyAutomator

/-- foldRune where it meets ASCII: the long s and the Kelvin sign fold to letters. -/
def foldRune (c : Char) : Char :=
  if c = '\u017F' then 'S' else if c = '\u212A' then 'K' else c.toUpper

def foldName (key : String) : String := String.ofList (key.toList.map foldRune)

/-- The values, in order, that the decoder takes for a field. -/
def folded (entries : List (String × Json)) (name : String) : List Json :=
  (entries.filter fun entry => foldName entry.1 = foldName name).map (·.2)

/-- The same for a field whose own key has a place of its own in the model. -/
def Config.matching (c : Config) (name : String) (own : Option Json) : List Json :=
  folded (c.rest.filter (·.1 < name)) name ++ own.toList ++ folded (c.rest.filter (name < ·.1)) name

section Fields

/-- Into a `*string`; null makes it nil. -/
def decodeString (_ : Option String) : Json → Except String (Option String)
  | .null => .ok none
  | .str value => .ok (some value)
  | _ => .error "json: cannot unmarshal value into Go struct field of type string"

/-- Into a string; null leaves it as it is. -/
def decodeText (field : String) : Json → Except String String
  | .null => .ok field
  | .str value => .ok value
  | _ => .error "json: cannot unmarshal value into Go struct field of type string"

/-- A `[]string` under the decoder, and what its backing array keeps beyond its length. -/
structure Strings where
  shown : List String
  kept : List String
  deriving DecidableEq

def Strings.none : Strings := ⟨[],[]⟩

/-- Into a `[]string`; a null element leaves what the backing array holds there. -/
def decodeStrings (field : Strings) : Json → Except String Strings
  | .null | .strs [] => .ok .none
  | .strs values =>
    let backing := field.shown ++ field.kept
    .ok ⟨values.mapIdx fun i value => value.getD (backing[i]?.getD ""),backing.drop values.length⟩
  | _ => .error "json: cannot unmarshal value into Go struct field of type []string"

/-- Into a `*int`: the number must be an integer of 64 bits. -/
def decodeInt (_ : Option Int) (value : Json) : Except String (Option Int) :=
  match value.stored with
  | .null => .ok none
  | .num number =>
    if number.den = 1 ∧ -2 ^ 63 ≤ number.num ∧ number.num < 2 ^ 63 then .ok (some number.num)
    else .error "json: cannot unmarshal number into Go struct field of type int"
  | _ => .error "json: cannot unmarshal value into Go struct field of type int"

/-- Of several values for a string the last one counts. -/
theorem decodeString_last {values : List Json} {decoded : Option String}
    (ok : values.foldlM decodeString none = .ok decoded) (text : String) :
    decoded = some text ↔ values.getLast? = some (.str text) := by
  rcases List.eq_nil_or_concat values with rfl | ⟨before,last,rfl⟩
  · cases ok
    simp
  · rw [List.concat_eq_append] at ok ⊢
    rw [List.foldlM_append] at ok
    obtain ⟨field,_,ok⟩ := Fold.bind_ok.mp ok
    obtain ⟨found,read,ok⟩ := Fold.foldlM_cons_ok.mp ok
    cases ok
    rw [List.getLast?_concat]
    cases last <;> cases read <;> simp

theorem decodeStrings_listed (values : List String) :
    decodeStrings .none (.strs (values.map some)) = .ok ⟨values,[]⟩ := by
  cases values with
  | nil => rfl
  | cons first rest =>
    have kept : (rest.map some).mapIdx (fun _ value => value.getD "") = rest :=
      List.ext_getElem (by simp) (by simp)
    simp [decodeStrings,Strings.none,kept]

end Fields

section Stored

variable {α : Type} {decode : α → Json → Except String α}

@[simp] theorem decodeString_stored (field : Option String) (value : Json) :
    decodeString field value.stored = decodeString field value := by
  cases value <;> rfl

@[simp] theorem decodeText_stored (field : String) (value : Json) :
    decodeText field value.stored = decodeText field value := by
  cases value <;> rfl

@[simp] theorem decodeStrings_stored (field : Strings) (value : Json) :
    decodeStrings field value.stored = decodeStrings field value := by
  cases value <;> rfl

@[simp] theorem decodeInt_stored (field : Option Int) (value : Json) :
    decodeInt field value.stored = decodeInt field value := by
  cases value <;> rfl

/-- A decoder that does not see what storage changes decodes a list of values alike. -/
theorem decode_stored (same : ∀ field value, decode field value.stored = decode field value) (field : α)
    (values : List Json) : (values.map Json.stored).foldlM decode field = values.foldlM decode field := by
  rw [List.foldlM_map]
  simp only [same]

theorem folded_stored (entries : List (String × Json)) (name : String) :
    folded (entries.map fun entry => (entry.1,entry.2.stored)) name =
      (folded entries name).map Json.stored := by
  simp [folded,List.filter_map,Function.comp_def]

@[simp] theorem Config.stored_calendarID (c : Config) : c.stored.calendarID = c.calendarID.map Json.stored := rfl

@[simp] theorem Config.stored_keywords (c : Config) : c.stored.keywords = c.keywords.map Json.stored := rfl

@[simp] theorem Config.stored_timeCondition (c : Config) :
    c.stored.timeCondition = c.timeCondition.map Json.stored := rfl

@[simp] theorem Config.stored_eventStatus (c : Config) : c.stored.eventStatus = c.eventStatus.map Json.stored := rfl

@[simp] theorem matching_stored (c : Config) (name : String) (own : Option Json) :
    c.stored.matching name (own.map Json.stored) = (c.matching name own).map Json.stored := by
  simp only [Config.matching,Config.stored,List.filter_map,folded_stored,List.map_append,
    Function.comp_def,Option.toList_map]

theorem matching_own {c : Config} (none_ : c.rest = []) (name : String) (own : Option Json) :
    c.matching name own = own.toList := by
  simp [Config.matching,none_,folded]

end Stored

end TinyAutomator
