import TinyAutomator.Library.SearchParams

/-! An update of the filters, written to the query string and read back. Tags share one value,
with commas between them. -/
namespace TinyAutomator.Library

/-- Valid new values for some of the filters. -/
structure Update where
  q : Option String
  tab : Option String
  tags : Option (List String)
  known : ∀ value ∈ tab, value ∈ tabs
  clean : ∀ values ∈ tags, ∀ tag ∈ values, tag ≠ "" ∧ JsText.trim tag = tag

def Update.entries (u : Update) : List (String × NewParam) :=
  u.q.toList.map (fun value => ("q",.text value)) ++ u.tab.toList.map (fun value => ("tab",.text value)) ++
    u.tags.toList.map (fun values => ("tags",.list values))

/-- The tags that should be in force after an update. -/
def Update.tagsAfter (u : Update) (prev : URLSearchParams) : Option (List String) :=
  match u.tags with
  | some tags => some tags
  | none => parseTags (fromEntries prev "tags")

/-- In whatever order the loop meets the entries, the new values are read back from the query
string, and so are the old values of the filters that were not updated. -/
def RoundTrips (toLowerCase : String → String) (replaced : Bytes → String) (prev : URLSearchParams)
    (u : Update) : Prop :=
  ∀ entries, entries.Perm u.entries → ∃ state,
    searchParamsSchema toLowerCase (readSearch replaced (search (updateParams entries prev))) = some state ∧
    state.q = u.q.getD ((fromEntries prev "q").getD "") ∧
    state.tab = u.tab.getD (parseTab toLowerCase (fromEntries prev "tab")) ∧
    some state.tags = u.tagsAfter prev

/-- Every piece of the text is empty or has something besides blanks. -/
def Readable (value : Option String) : Prop :=
  ∀ text ∈ value, ∀ piece ∈ JsText.split ',' text, piece = "" ∨ JsText.trim piece ≠ ""

/-- New tags have no comma; old tags that stay can be read. -/
def Update.Separable (u : Update) (prev : URLSearchParams) : Prop :=
  match u.tags with
  | some tags => ∀ tag ∈ tags, ',' ∉ tag.toList
  | none => Readable (fromEntries prev "tags")

/-- What an update leaves under its name. -/
def written (key : String) : NewParam → Option String
  | .undefined | .null => none
  | .text value => if value = "" then none else some value
  | .list values => if key = "tags" ∧ values ≠ [] then some (JsText.join ',' values) else none
  | .number value => some (toString value)

section Updates

variable {toLowerCase : String → String} {replaced : Bytes → String} {params prev : URLSearchParams}
  {key other : String} {value : NewParam} {entries : List (String × NewParam)} {u : Update}
  {tags : List String} {text : String}

theorem updateParam_self (named : key ≠ "page") :
    fromEntries (updateParam key value params) key = written key value := by
  cases value with
  | undefined | null => exact fromEntries_delete_self
  | text value =>
    simp only [updateParam,written]
    split
    next => exact fromEntries_delete_self
    next =>
      split
      next => exact fromEntries_set_self
      next => rw [fromEntries_set named,fromEntries_set_self]
  | list values =>
    simp only [updateParam,written]
    by_cases isTags : key = "tags"
    · cases values <;> simp [isTags]
    · simp [isTags]
  | number value =>
    simp only [updateParam,written]
    rw [if_pos named,fromEntries_set named,fromEntries_set_self]
    rfl

theorem updateParam_other (different : other ≠ key) (named : other ≠ "page") :
    fromEntries (updateParam key value params) other = fromEntries params other := by
  cases value with
  | undefined | null => exact fromEntries_delete different
  | text value =>
    simp only [updateParam]
    split
    next => exact fromEntries_delete different
    next =>
      split
      next => exact fromEntries_set different
      next =>
        split
        next => rw [fromEntries_set named,fromEntries_set different]
        next => exact fromEntries_set different
  | list values =>
    simp only [updateParam]
    split
    next =>
      split
      next => rw [fromEntries_delete different,fromEntries_set different]
      next => exact fromEntries_set different
    next => exact fromEntries_delete different
  | number value =>
    simp only [updateParam]
    split
    next => rw [fromEntries_set named,fromEntries_set different]
    next => exact fromEntries_set different

/-- Names that are not updated keep their values, but for the page. -/
theorem updateParams_other (absent : key ∉ entries.map (·.1)) (named : key ≠ "page") :
    fromEntries (updateParams entries params) key = fromEntries params key := by
  induction entries generalizing params with
  | nil => rfl
  | cons entry rest ih =>
    obtain ⟨different,absent⟩ := not_or.mp (mt List.mem_cons.mpr absent)
    calc fromEntries (updateParams rest (updateParam entry.1 entry.2 params)) key
      _ = fromEntries (updateParam entry.1 entry.2 params) key := ih absent
      _ = fromEntries params key := updateParam_other different named

theorem updateParams_self (distinct : (entries.map (·.1)).Nodup) (member : (key,value) ∈ entries)
    (named : key ≠ "page") : fromEntries (updateParams entries params) key = written key value := by
  induction entries generalizing params with
  | nil => contradiction
  | cons entry rest ih =>
    obtain ⟨fresh,distinct⟩ := List.nodup_cons.mp distinct
    rcases List.mem_cons.mp member with rfl | later
    · calc fromEntries (updateParams rest (updateParam key value params)) key
        _ = fromEntries (updateParam key value params) key := updateParams_other fresh named
        _ = written key value := updateParam_self named
    · exact ih distinct later

theorem entries_distinct (u : Update) : (u.entries.map (·.1)).Nodup := by
  obtain ⟨q,tab,tags,_,_⟩ := u
  cases q <;> cases tab <;> cases tags <;> simp [Update.entries]

/-- What an update, in any order of its entries, leaves of the filters. -/
theorem updated_q (order : entries.Perm u.entries) :
    (fromEntries (updateParams entries prev) "q").getD "" = u.q.getD ((fromEntries prev "q").getD "") := by
  have distinct := (order.map (·.1)).nodup_iff.mpr (entries_distinct u)
  cases updated : u.q with
  | some value =>
    have member : ("q",.text value) ∈ entries := order.mem_iff.mpr (by simp [Update.entries,updated])
    rw [updateParams_self distinct member (by decide),written]
    split
    next empty => simp [empty]
    next => rfl
  | none =>
    have absent : "q" ∉ entries.map (·.1) := by
      rw [(order.map (·.1)).mem_iff]
      simp [Update.entries,updated]
    rw [updateParams_other absent (by decide)]
    rfl

theorem updated_tab (fixed : ∀ tab ∈ tabs, toLowerCase tab = tab) (order : entries.Perm u.entries) :
    parseTab toLowerCase (fromEntries (updateParams entries prev) "tab") =
      u.tab.getD (parseTab toLowerCase (fromEntries prev "tab")) := by
  have distinct := (order.map (·.1)).nodup_iff.mpr (entries_distinct u)
  cases updated : u.tab with
  | some value =>
    have known : value ∈ tabs := u.known value (by simp [updated])
    have some_ : value ≠ "" := by
      rintro rfl
      exact absurd known (by decide)
    have member : ("tab",.text value) ∈ entries := order.mem_iff.mpr (by simp [Update.entries,updated])
    rw [updateParams_self distinct member (by decide),written,if_neg some_]
    simp [parseTab,fixed value known,known]
  | none =>
    have absent : "tab" ∉ entries.map (·.1) := by
      rw [(order.map (·.1)).mem_iff]
      simp [Update.entries,updated]
    rw [updateParams_other absent (by decide)]
    rfl

theorem updated_tags (order : entries.Perm u.entries) :
    fromEntries (updateParams entries prev) "tags" =
      match u.tags with
      | some tags => written "tags" (.list tags)
      | none => fromEntries prev "tags" := by
  have distinct := (order.map (·.1)).nodup_iff.mpr (entries_distinct u)
  cases updated : u.tags with
  | some values =>
    have member : ("tags",.list values) ∈ entries := order.mem_iff.mpr (by simp [Update.entries,updated])
    rw [updateParams_self distinct member (by decide)]
  | none =>
    have absent : "tags" ∉ entries.map (·.1) := by
      rw [(order.map (·.1)).mem_iff]
      simp [Update.entries,updated]
    rw [updateParams_other absent (by decide)]

theorem parseTags_isSome (value : Option String) : (parseTags value).isSome = true ↔ Readable value := by
  cases value with
  | none => simp [parseTags,Readable]
  | some text =>
    have pieces : (∀ piece ∈ (JsText.split ',' text).filter (· ≠ ""), JsText.trim piece ≠ "") ↔
        Readable (some text) := by
      simp only [Readable,List.mem_filter,Option.mem_def,Option.some.injEq,decide_eq_true_eq]
      constructor
      · rintro readable _ rfl piece member
        exact or_iff_not_imp_left.mpr fun some_ => readable piece ⟨member,some_⟩
      · intro readable piece ⟨member,some_⟩
        exact (readable text rfl piece member).resolve_left some_
    rw [← pieces,parseTags]
    split
    next all => exact ⟨fun _ => all,fun _ => rfl⟩
    next blank => exact ⟨fun impossible => absurd impossible (by simp),fun all => absurd all blank⟩

/-- Tags that are read back had no comma. -/
theorem parseTags_free (read : parseTags (some text) = some tags) : ∀ tag ∈ tags, ',' ∉ tag.toList := by
  rw [parseTags] at read
  split at read
  next =>
    cases read
    intro tag member comma
    obtain ⟨piece,kept,rfl⟩ := List.mem_map.mp member
    exact JsText.split_free (List.mem_of_mem_filter kept) (JsText.mem_of_mem_trim comma)
  next => contradiction

theorem parseTags_join (clean : ∀ tag ∈ tags, tag ≠ "" ∧ JsText.trim tag = tag) (some_ : tags ≠ [])
    (free : ∀ tag ∈ tags, ',' ∉ tag.toList) : parseTags (some (JsText.join ',' tags)) = some tags := by
  have kept : tags.filter (· ≠ "") = tags :=
    List.filter_eq_self.mpr fun tag member => decide_eq_true (clean tag member).1
  have trimmed : tags.map JsText.trim = tags :=
    (List.map_congr_left fun tag member => (clean tag member).2).trans (List.map_id tags)
  have readable : ∀ tag ∈ tags, JsText.trim tag ≠ "" := by
    intro tag member
    rw [(clean tag member).2]
    exact (clean tag member).1
  rw [parseTags,JsText.split_join free some_,kept,if_pos readable,trimmed]

theorem parseTags_written (clean : ∀ tag ∈ tags, tag ≠ "" ∧ JsText.trim tag = tag) :
    parseTags (written "tags" (.list tags)) = some tags ↔ ∀ tag ∈ tags, ',' ∉ tag.toList := by
  by_cases empty : tags = []
  · simp [empty,written,parseTags]
  · rw [written,if_pos ⟨rfl,empty⟩]
    exact ⟨parseTags_free,parseTags_join clean empty⟩

theorem readable_iff (toLowerCase : String → String) (params : URLSearchParams) :
    (searchParamsSchema toLowerCase params).isSome = true ↔ Readable (fromEntries params "tags") := by
  rw [searchParamsSchema,Option.isSome_map]
  exact parseTags_isSome _

/-- The tags of an update are read back exactly if the comma is free for them. -/
theorem tags_iff (order : entries.Perm u.entries) :
    (∃ tags, parseTags (fromEntries (updateParams entries prev) "tags") = some tags ∧
      some tags = u.tagsAfter prev) ↔ u.Separable prev := by
  rw [updated_tags order,Update.tagsAfter,Update.Separable]
  cases updated : u.tags with
  | some values =>
    have clean := u.clean values (by simp [updated])
    simp only [← parseTags_written clean]
    constructor
    · rintro ⟨tags,read,same⟩
      cases same
      exact read
    · intro read
      exact ⟨values,read,rfl⟩
  | none =>
    simp only [← parseTags_isSome,Option.isSome_iff_exists]
    constructor
    · rintro ⟨tags,read,_⟩
      exact ⟨tags,read⟩
    · rintro ⟨tags,read⟩
      exact ⟨tags,read,read.symm⟩

theorem roundTrips_iff (fixed : ∀ tab ∈ tabs, toLowerCase tab = tab) :
    RoundTrips toLowerCase replaced prev u ↔ u.Separable prev := by
  unfold RoundTrips
  simp only [readSearch_search]
  constructor
  · intro survives
    obtain ⟨state,parsed,_,_,tags⟩ := survives u.entries (.refl _)
    rw [← tags_iff (.refl _)]
    obtain ⟨read,found,rfl⟩ := Option.map_eq_some_iff.mp parsed
    exact ⟨read,found,tags⟩
  · intro separable entries order
    obtain ⟨tags,found,same⟩ := (tags_iff order).mpr separable
    exact ⟨_,Option.map_eq_some_iff.mpr ⟨tags,found,rfl⟩,updated_q order,updated_tab fixed order,same⟩

/-- Which updates survive the query string, and which query strings can be parsed. -/
theorem filters_survive_iff (fixed : ∀ tab ∈ tabs, toLowerCase tab = tab) :
    (∀ prev u, RoundTrips toLowerCase replaced prev u ↔ u.Separable prev) ∧
    ∀ query, (searchParamsSchema toLowerCase (readSearch replaced query)).isSome = true ↔
      Readable (fromEntries (readSearch replaced query) "tags") :=
  ⟨fun _ _ => roundTrips_iff fixed,fun query => readable_iff toLowerCase (readSearch replaced query)⟩

end Updates

theorem lower_fixed : ∀ tab ∈ tabs, tab.toLower = tab := by decide +kernel

/-- A new search text, and a new list of one tag. -/
def searched : Update := ⟨some "mail & more",none,none,by simp,by simp⟩
def tagged (tag : String) (clean : tag ≠ "" ∧ JsText.trim tag = tag) : Update :=
  ⟨none,none,some [tag],by simp,by simpa using clean⟩

theorem search_survives : RoundTrips String.toLower (fun _ => "") [("tab","Draft"),("tags","ops, ann")] searched :=
  ((filters_survive_iff lower_fixed).1 _ _).mpr ((parseTags_isSome _).mp (by decide +kernel))

/-- A tag with a comma comes back as two, and a tag of blanks in the query string is an error. -/
theorem filters_lost : (¬∀ prev u, RoundTrips String.toLower (fun _ => "") prev u) ∧
    ¬∀ query, (searchParamsSchema String.toLower (readSearch (fun _ => "") query)).isSome = true := by
  constructor
  · intro claim
    have separable := (roundTrips_iff lower_fixed).mp (claim [] (tagged "a,b" (by decide +kernel)))
    exact separable "a,b" List.mem_cons_self (by decide +kernel)
  · intro claim
    have parsed := claim (search [("tags"," ")])
    rw [readSearch_search] at parsed
    exact absurd parsed (by decide +kernel)

end TinyAutomator.Library
