import TinyAutomator.Lib.Infix
import TinyAutomator.Lib.JsText
import TinyAutomator.Workflows.Calendar

/-! What a keyword of a calendar trigger finds. The texts of an event are searched as one
line, so a keyword with a space in it may lie across two of them. -/
namespace TinyAutomator.Workflows

/-- strings.ToLower maps each rune on its own, and nothing but a space to a space. -/
def RuneWise (toLower : String → String) : Prop :=
  ∃ lower : Char → Char, (∀ c, lower c = ' ' ↔ c = ' ') ∧
    ∀ text, (toLower text).toList = text.toList.map lower

def Event.texts (event : Event) : List String :=
  [event.summary,event.description,event.location] ++
    (event.organizer.toList ++ event.attendees).flatMap fun person => [person.displayName,person.email]

/-- One of the texts contains the keyword, in any case. -/
def FoundIn (toLower : String → String) (event : Event) (keyword : String) : Prop :=
  ∃ text ∈ event.texts, contains (toLower text) (toLower keyword) = true

instance (toLower : String → String) (event : Event) : DecidablePred (FoundIn toLower event) :=
  fun keyword => inferInstanceAs
    (Decidable (∃ text ∈ event.texts, contains (toLower text) (toLower keyword) = true))

def Spaced (keyword : String) : Prop := ' ' ∈ keyword.toList

/-- A keyword is searched in one text at a time. -/
structure FieldWise (toLower : String → String) : Prop where
  found : ∀ event keywords, matchesKeywords toLower event keywords = true ↔
    ∀ keyword ∈ keywords, FoundIn toLower event keyword
  attendees : ∀ event keywords attendees, attendees.Perm event.attendees →
    matchesKeywords toLower { event with attendees } keywords = matchesKeywords toLower event keywords
  keywords : ∀ event keywords others, keywords.Perm others →
    matchesKeywords toLower event keywords = matchesKeywords toLower event others
  adding : ∀ event keywords keyword, matchesKeywords toLower event keywords = false →
    ∀ more, (keyword :: keywords).Perm more → matchesKeywords toLower event more = false

/-- A keyword with a space is searched in all the texts, one after another with a space
after each that is not empty; the others in one text at a time. -/
structure Searched (toLower : String → String) : Prop where
  found : ∀ event keywords, matchesKeywords toLower event keywords = true ↔
    ∀ keyword ∈ keywords, FoundIn toLower event keyword ∨
      Spaced keyword ∧ contains (searchableText toLower event) (toLower keyword) = true
  attendees : ∀ event keywords attendees, attendees.Perm event.attendees →
    (∀ keyword ∈ keywords, ¬Spaced keyword) →
    matchesKeywords toLower { event with attendees } keywords = matchesKeywords toLower event keywords
  keywords : ∀ event keywords others, keywords.Perm others →
    matchesKeywords toLower event keywords = matchesKeywords toLower event others
  adding : ∀ event keywords keyword, matchesKeywords toLower event keywords = false →
    ∀ more, (keyword :: keywords).Perm more → matchesKeywords toLower event more = false

section Search

variable {toLower : String → String} {event : Event} {keyword text part : String} {keywords others : List String}

theorem contains_iff : contains text part = true ↔ part.toList <:+: text.toList := by
  simp [contains]

theorem matches_iff : matchesKeywords toLower event keywords = true ↔
    ∀ keyword ∈ keywords, contains (searchableText toLower event) (toLower keyword) = true := by
  simp [matchesKeywords]

theorem searchableText_toList (runes : RuneWise toLower) : (searchableText toLower event).toList =
    ((event.texts.filter (· ≠ "")).map fun text => (toLower text).toList).flatMap (· ++ [' ']) := by
  obtain ⟨lower,space,runes⟩ := runes
  have kept : lower ' ' = ' ' := (space ' ').mpr rfl
  have texts : event.texts = [event.summary,event.description,event.location] ++
    (event.organizer.toList ++ event.attendees).flatMap fun person => [person.displayName,person.email] := rfl
  rw [searchableText,runes,String.toList_join,List.map_flatMap,← texts,List.flatMap_map,List.flatMap_map]
  simp [runes,kept]

theorem spaced_iff (runes : RuneWise toLower) : ' ' ∈ (toLower keyword).toList ↔ Spaced keyword := by
  obtain ⟨lower,space,runes⟩ := runes
  simp [runes,Spaced,space]

theorem lower_nil (runes : RuneWise toLower) : (toLower text).toList = [] ↔ text = "" := by
  obtain ⟨lower,_,runes⟩ := runes
  rw [runes,List.map_eq_nil_iff,String.toList_eq_nil_iff]

theorem found_empty (empty : (toLower keyword).toList = []) :
    FoundIn toLower event keyword :=
  ⟨event.summary,by simp [Event.texts],contains_iff.mpr (by rw [empty]; exact List.nil_infix)⟩

/-- What is found in one text is found in the line. -/
theorem FoundIn.searched (runes : RuneWise toLower) (found : FoundIn toLower event keyword) :
    contains (searchableText toLower event) (toLower keyword) = true := by
  obtain ⟨text,member,within⟩ := found
  rw [contains_iff] at within ⊢
  by_cases empty : (toLower keyword).toList = []
  · rw [empty]; exact List.nil_infix
  have filled : text ≠ "" := by
    intro blank
    rw [(lower_nil runes).mpr blank] at within
    exact empty (List.infix_nil.mp within)
  rw [searchableText_toList runes]
  have listed : (toLower text).toList ∈ (event.texts.filter (· ≠ "")).map fun text => (toLower text).toList :=
    List.mem_map.mpr ⟨text,List.mem_filter.mpr ⟨member,decide_eq_true filled⟩,rfl⟩
  obtain ⟨before,after,split⟩ := List.append_of_mem listed
  rw [split,List.flatMap_append,List.flatMap_cons]
  rw [List.append_assoc]
  exact within.trans (List.infix_append' _ _ _)

/-- A keyword without a space is found in the line only if one text contains it. -/
theorem found_iff (runes : RuneWise toLower) (whole : ¬Spaced keyword) :
    contains (searchableText toLower event) (toLower keyword) = true ↔ FoundIn toLower event keyword := by
  constructor
  · intro within
    by_cases empty : (toLower keyword).toList = []
    · exact found_empty empty
    rw [contains_iff,searchableText_toList runes,
      Infix.flatMap_sep (by rwa [spaced_iff runes]) empty] at within
    obtain ⟨piece,member,within⟩ := within
    obtain ⟨text,listed,rfl⟩ := List.mem_map.mp member
    exact ⟨text,(List.mem_filter.mp listed).1,contains_iff.mpr within⟩
  · exact FoundIn.searched runes

theorem searched_iff (runes : RuneWise toLower) :
    contains (searchableText toLower event) (toLower keyword) = true ↔ FoundIn toLower event keyword ∨
      Spaced keyword ∧ contains (searchableText toLower event) (toLower keyword) = true := by
  constructor
  · intro within
    by_cases spaced : Spaced keyword
    · exact .inr ⟨spaced,within⟩
    · exact .inl ((found_iff runes spaced).mp within)
  · rintro (found | ⟨_,within⟩)
    · exact found.searched runes
    · exact within

theorem texts_perm {attendees : List Person} (perm : attendees.Perm event.attendees) :
    ({ event with attendees } : Event).texts.Perm event.texts :=
  .append_left _ ((perm.append_left _).flatMap_right _)

theorem found_perm {attendees : List Person} (perm : attendees.Perm event.attendees) :
    FoundIn toLower { event with attendees } keyword ↔ FoundIn toLower event keyword := by
  have same : ∀ text, text ∈ ({ event with attendees } : Event).texts ↔ text ∈ event.texts :=
    fun text => (texts_perm perm).mem_iff
  simp only [FoundIn,same]

theorem matches_of_mem (same : ∀ keyword, keyword ∈ keywords ↔ keyword ∈ others) :
    matchesKeywords toLower event keywords = matchesKeywords toLower event others := by
  rw [Bool.eq_iff_iff,matches_iff,matches_iff]
  simp only [same]

end Search

theorem keywords_searched {toLower : String → String} (runes : RuneWise toLower) : Searched toLower := by
  constructor
  case found =>
    intro event keywords
    rw [matches_iff]
    exact forall_congr' fun keyword => imp_congr_right fun _ => searched_iff runes
  case attendees =>
    intro event keywords attendees perm whole
    rw [Bool.eq_iff_iff,matches_iff,matches_iff]
    apply forall_congr'
    intro keyword
    apply imp_congr_right
    intro member
    rw [found_iff runes (whole keyword member),found_iff runes (whole keyword member),found_perm perm]
  case keywords =>
    exact fun event keywords others perm => matches_of_mem fun keyword => perm.mem_iff
  case adding =>
    intro event keywords keyword misses more perm
    rw [← Bool.not_eq_true,matches_iff] at misses ⊢
    exact fun all => misses fun k member => all k (perm.mem_iff.mp (List.mem_cons_of_mem _ member))

theorem toLower_space (c : Char) : c.toLower = ' ' ↔ c = ' ' := by
  constructor
  · intro same
    unfold Char.toLower at same
    split at same
    next upper =>
      have value := congrArg (fun c : Char => c.val.toNat) same
      have low := UInt32.le_iff_toNat_le.mp upper.1
      have high := UInt32.le_iff_toNat_le.mp upper.2
      rw [UInt32.toNat_add] at value
      have a : 'A'.val.toNat = 65 := rfl
      have z : 'Z'.val.toNat = 90 := rfl
      have up : ('a'.val - 'A'.val).toNat = 32 := rfl
      have space : ' '.val.toNat = 32 := rfl
      omega
    next => exact same
  · rintro rfl
    rfl

/-- On ASCII texts strings.ToLower does what toLowerCase does. -/
theorem toLowerCase_runeWise : RuneWise JsText.toLowerCase :=
  ⟨Char.toLower,toLower_space,fun text => by simp [JsText.toLowerCase]⟩

theorem ascii_searched : Searched JsText.toLowerCase := keywords_searched toLowerCase_runeWise

/-- A lunch with two guests. -/
def teamLunch : Event where
  id := "1"
  summary := "Team"
  description := "lunch"
  location := ""
  organizer := none
  attendees := [⟨"Ann","ann@example.com"⟩,⟨"Bob","bob@example.com"⟩]
  status := "confirmed"
  start := none
  finish := none

/-- A keyword across two texts matches; across two attendees it depends on their order. -/
theorem across_texts : ¬FieldWise JsText.toLowerCase ∧
    matchesKeywords JsText.toLowerCase teamLunch ["team lunch"] = true ∧ ¬FoundIn JsText.toLowerCase teamLunch "team lunch" ∧
    matchesKeywords JsText.toLowerCase teamLunch ["example.com Bob"] = true ∧
    matchesKeywords JsText.toLowerCase { teamLunch with attendees := teamLunch.attendees.reverse }
      ["example.com Bob"] = false := by
  have matched : matchesKeywords JsText.toLowerCase teamLunch ["team lunch"] = true := by decide +kernel
  have nowhere : ¬FoundIn JsText.toLowerCase teamLunch "team lunch" := by decide +kernel
  refine ⟨fun claim => ?_,matched,nowhere,by decide +kernel,by decide +kernel⟩
  exact nowhere ((claim.found _ _).mp matched _ List.mem_cons_self)

end TinyAutomator.Workflows
