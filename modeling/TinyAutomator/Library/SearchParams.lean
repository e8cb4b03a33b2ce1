import TinyAutomator.Lib.JsText
import TinyAutomator.Lib.Urlencoded

/-! The filter state of the workflow library in the query string: how it is validated, and how
an update writes it. -/
namespace TinyAutomator.Library

abbrev Bytes := List UInt8

/-- The names and values of a URLSearchParams object. -/
abbrev URLSearchParams := List (String × String)

section Params

/-- `Object.fromEntries`: the last value of a name counts. -/
def fromEntries (params : URLSearchParams) (key : String) : Option String :=
  (params.reverse.find? (·.1 = key)).map (·.2)

/-- The first pair of the name gets the value, the others go; without one a pair is appended. -/
def URLSearchParams.set (key value : String) : URLSearchParams → URLSearchParams
  | [] => [(key,value)]
  | pair :: rest =>
    if pair.1 = key then (key,value) :: rest.filter (·.1 ≠ key) else pair :: URLSearchParams.set key value rest

def URLSearchParams.delete (key : String) (params : URLSearchParams) : URLSearchParams :=
  params.filter (·.1 ≠ key)

variable {params : URLSearchParams} {key other value : String} {pair : String × String}

theorem fromEntries_cons : fromEntries (pair :: params) key =
    (fromEntries params key).or (if pair.1 = key then some pair.2 else none) := by
  rw [fromEntries,fromEntries,List.reverse_cons,List.find?_append,Option.map_or]
  congr 1
  by_cases same : pair.1 = key <;> simp [same]

theorem fromEntries_filter (kept : other ≠ key) :
    fromEntries (params.filter (·.1 ≠ key)) other = fromEntries params other := by
  induction params with
  | nil => rfl
  | cons pair rest ih =>
    rw [fromEntries_cons,← ih]
    by_cases same : pair.1 = key
    · have away : pair.1 ≠ other := fun named => kept (named.symm.trans same)
      rw [List.filter_cons_of_neg (by simpa using same),if_neg away,Option.or_none]
    · rw [List.filter_cons_of_pos (by simpa using same),fromEntries_cons]

theorem fromEntries_filter_self : fromEntries (params.filter (·.1 ≠ key)) key = none := by
  induction params with
  | nil => rfl
  | cons pair rest ih =>
    by_cases same : pair.1 = key
    · rw [List.filter_cons_of_neg (by simpa using same),ih]
    · rw [List.filter_cons_of_pos (by simpa using same),fromEntries_cons,ih,if_neg same]
      rfl

@[simp] theorem fromEntries_delete_self : fromEntries (params.delete key) key = none := fromEntries_filter_self

theorem fromEntries_delete (kept : other ≠ key) : fromEntries (params.delete key) other = fromEntries params other :=
  fromEntries_filter kept

@[simp] theorem fromEntries_set_self : fromEntries (params.set key value) key = some value := by
  induction params with
  | nil => simp [URLSearchParams.set,fromEntries]
  | cons pair rest ih =>
    rw [URLSearchParams.set]
    split
    next =>
      rw [fromEntries_cons,fromEntries_filter_self]
      simp
    next other =>
      rw [fromEntries_cons,ih]
      rfl

theorem fromEntries_set (kept : other ≠ key) : fromEntries (params.set key value) other = fromEntries params other := by
  induction params with
  | nil => simp [URLSearchParams.set,fromEntries,Ne.symm kept]
  | cons pair rest ih =>
    rw [URLSearchParams.set]
    split
    next same =>
      have away : pair.1 ≠ other := fun named => kept (named.symm.trans same)
      rw [fromEntries_cons,fromEntries_cons,fromEntries_filter kept,if_neg (Ne.symm kept),if_neg away]
    next => rw [fromEntries_cons,fromEntries_cons,ih]

end Params

structure SearchParams where
  q : String
  tab : String
  tags : List String
  page : Nat
  deriving DecidableEq

def tabs : List String := ["draft","active","archived"]

/-- The schema of `tab`; `toLowerCase` is that of JavaScript. -/
def parseTab (toLowerCase : String → String) (value : Option String) : String :=
  match value with
  | some value => if toLowerCase value ∈ tabs then toLowerCase value else "active"
  | none => "active"

/-- The schema of `tags` has no `catch`: a tag of blanks makes it throw. -/
def parseTags (value : Option String) : Option (List String) :=
  match value with
  | some value =>
    let pieces := (JsText.split ',' value).filter (· ≠ "")
    if ∀ piece ∈ pieces, JsText.trim piece ≠ "" then some (pieces.map JsText.trim) else none
  | none => some []

def number (digits : List Char) : Nat := digits.foldl (fun n c => 10 * n + (c.toNat - '0'.toNat)) 0

def parsePage (value : Option String) : Nat :=
  match value with
  | some value => if value ≠ "" ∧ value.toList.all Char.isDigit = true then number value.toList else 1
  | none => 1

/-- `searchParamsSchema.parse`; none stands for the ZodError that it throws. -/
def searchParamsSchema (toLowerCase : String → String) (params : URLSearchParams) : Option SearchParams :=
  (parseTags (fromEntries params "tags")).map fun tags => {
    q := (fromEntries params "q").getD ""
    tab := parseTab toLowerCase (fromEntries params "tab")
    tags := tags
    page := parsePage (fromEntries params "page") }

/-- The hook of that name: the page is brought between 1 and `totalPages`. -/
def useValidatedSearchParams (toLowerCase : String → String) (totalPages : Nat) (params : URLSearchParams) :
    Option SearchParams :=
  (searchParamsSchema toLowerCase params).map fun parsed =>
    { parsed with page := max 1 (min parsed.page totalPages) }

/-- A value of `Partial<SearchParams>`. -/
inductive NewParam where
  | undefined
  | null
  | text (value : String)
  | number (value : Nat)
  | list (values : List String)
  deriving DecidableEq

def NewParam.string : NewParam → String
  | .undefined => "undefined"
  | .null => "null"
  | .text value => value
  | .number value => toString value
  | .list values => JsText.join ',' values

/-- One turn of the loop of updateParams. -/
def updateParam (key : String) (value : NewParam) (updatedParams : URLSearchParams) : URLSearchParams :=
  match value with
  | .undefined | .null => updatedParams.delete key
  | .text value =>
    if value = "" then updatedParams.delete key
    else if key = "tags" then updatedParams.set key value
    else
      let updatedParams := updatedParams.set key value
      if key ≠ "page" then updatedParams.set "page" "1" else updatedParams
  | .list values =>
    if key = "tags" then
      let updatedParams := updatedParams.set key (JsText.join ',' values)
      if values.length = 0 then updatedParams.delete key else updatedParams
    else updatedParams.delete key
  | .number value =>
    let updatedParams := updatedParams.set key (NewParam.number value).string
    if key ≠ "page" then updatedParams.set "page" "1" else updatedParams

def updateParams (newParams : List (String × NewParam)) (prev : URLSearchParams) : URLSearchParams :=
  newParams.foldl (fun updatedParams entry => updateParam entry.1 entry.2 updatedParams) prev

section Location

def utf8 (text : String) : Bytes := text.toByteArray.data.toList

/-- UTF-8 decoding; `replaced` is what the browser makes of bytes that are no UTF-8. -/
def utf8Decode (replaced : Bytes → String) (bytes : Bytes) : String :=
  (String.fromUTF8? ⟨bytes.toArray⟩).getD (replaced bytes)

/-- The query string of the parameters, and the parameters that are read from a query string. -/
def search (params : URLSearchParams) : Bytes :=
  Urlencoded.serialize (params.map fun pair => (utf8 pair.1,utf8 pair.2))

def readSearch (replaced : Bytes → String) (query : Bytes) : URLSearchParams :=
  (Urlencoded.parse query).map fun pair => (utf8Decode replaced pair.1,utf8Decode replaced pair.2)

theorem utf8Decode_utf8 (replaced : Bytes → String) (text : String) :
    utf8Decode replaced (utf8 text) = text := by
  have same : (⟨(utf8 text).toArray⟩ : ByteArray) = text.toByteArray := by simp [utf8]
  rw [utf8Decode,same,String.fromUTF8?,dif_pos text.isValidUTF8]
  rfl

/-- The parameters survive the location. -/
theorem readSearch_search (replaced : Bytes → String) (params : URLSearchParams) :
    readSearch replaced (search params) = params := by
  simp [readSearch,search,Urlencoded.parse_serialize,Function.comp_def,utf8Decode_utf8]

end Location

end TinyAutomator.Library
