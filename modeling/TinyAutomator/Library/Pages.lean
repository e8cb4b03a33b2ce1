import Mathlib.Data.List.Infix
import TinyAutomator.Library.Filters

/-! The pages of the workflow library: the workflows that pass the filters, cut into slices, and
the slice that the page number of the query string selects. -/
namespace TinyAutomator.Library

structure Workflow where
  id : String
  name : String
  description : String
  status : String
  tags : Option (List String)
  deriving DecidableEq

def includes (text part : String) : Bool := part.toList <:+: text.toList

/-- A counter of a Map or an object: a new key comes last. -/
def count (counts : List (String × Nat)) (key : String) : List (String × Nat) :=
  match counts with
  | [] => [(key,1)]
  | entry :: rest => if entry.1 = key then (key,entry.2 + 1) :: rest else entry :: count rest key

structure WorkflowResult where
  workflows : List Workflow
  tagCounts : List (String × Nat)
  statusCounts : List (String × Nat)
  deriving DecidableEq

def hasTag (selectedTags : List String) (w : Workflow) : Bool :=
  selectedTags.any fun tag => (w.tags.getD []).contains tag

/-- `query` is in lower case. -/
def found (toLowerCase : String → String) (query : String) (w : Workflow) : Bool :=
  includes (toLowerCase w.name) query || includes (toLowerCase w.description) query ||
    (w.tags.getD []).any fun tag => includes (toLowerCase tag) query

/-- One turn of the loop of getWorkflowData. -/
def visit (toLowerCase : String → String) (p : SearchParams) (result : WorkflowResult) (w : Workflow) :
    WorkflowResult :=
  let query := toLowerCase p.q
  if p.tags ≠ [] ∧ hasTag p.tags w = false then result
  else if query ≠ "" ∧ found toLowerCase query w = false then result
  else
    let result := { result with statusCounts := count result.statusCounts w.status }
    if p.tab ≠ w.status then result
    else { result with
      workflows := result.workflows ++ [w]
      tagCounts := (w.tags.getD []).foldl count result.tagCounts }

def getWorkflowData (toLowerCase : String → String) (workflows : List Workflow) (p : SearchParams) :
    WorkflowResult :=
  workflows.foldl (visit toLowerCase p) ⟨[],[],[]⟩

def itemsPerPage : Nat := 8

structure Filtered where
  workflows : List Workflow
  currentPage : Nat
  totalPages : Nat
  hasNextPage : Bool
  hasPrevPage : Bool
  totalItems : Nat
  tagCounts : List (String × Nat)
  statusCounts : List (String × Nat)
  deriving DecidableEq

/-- The slice of a page. -/
def page {α : Type} (filtered : List α) (p : Nat) : List α :=
  (filtered.drop ((p - 1) * itemsPerPage)).take (p * itemsPerPage - (p - 1) * itemsPerPage)

def totalPages {α : Type} (filtered : List α) : Nat :=
  max 1 ((filtered.length + itemsPerPage - 1) / itemsPerPage)

/-- The hook of that name. It validates the search parameters without a bound for the page. -/
def useFilteredWorkflows (toLowerCase : String → String) (workflows : List Workflow) (params : URLSearchParams) :
    Option Filtered :=
  (useValidatedSearchParams toLowerCase 1 params).map fun p =>
    let result := getWorkflowData toLowerCase workflows p
    { workflows := page result.workflows p.page
      currentPage := p.page
      totalPages := totalPages result.workflows
      hasNextPage := p.page < totalPages result.workflows
      hasPrevPage := 1 < p.page
      totalItems := result.workflows.length
      tagCounts := result.tagCounts
      statusCounts := result.statusCounts }

/-- The workflow passes the tab, tag and query filter. -/
def Passes (toLowerCase : String → String) (p : SearchParams) (w : Workflow) : Prop :=
  (p.tags = [] ∨ hasTag p.tags w = true) ∧
    (toLowerCase p.q = "" ∨ found toLowerCase (toLowerCase p.q) w = true) ∧ p.tab = w.status

instance (toLowerCase : String → String) (p : SearchParams) : DecidablePred (Passes toLowerCase p) :=
  fun w => inferInstanceAs (Decidable ((p.tags = [] ∨ hasTag p.tags w = true) ∧
    (toLowerCase p.q = "" ∨ found toLowerCase (toLowerCase p.q) w = true) ∧ p.tab = w.status))

/-- The pages, one after another, are the workflows that pass; and updateParams with the number
of a page leads to that page. -/
def Paged (toLowerCase : String → String) (replaced : Bytes → String) (workflows : List Workflow)
    (params : URLSearchParams) (state : SearchParams) : Prop :=
  let filtered := workflows.filter (Passes toLowerCase state ·)
  (List.range' 1 (totalPages filtered)).flatMap (page filtered) = filtered ∧
  ∀ p, 1 ≤ p → p ≤ totalPages filtered → ∃ shown,
    useFilteredWorkflows toLowerCase workflows
      (readSearch replaced (search (updateParams [("page",.number p)] params))) = some shown ∧
    shown.workflows = page filtered p ∧ shown.currentPage = p ∧ shown.totalPages = totalPages filtered

section Slices

variable {α : Type} {filtered : List α} {n p : Nat}

theorem page_eq (some_ : 1 ≤ p) : page filtered p = (filtered.drop ((p - 1) * itemsPerPage)).take itemsPerPage := by
  obtain ⟨q,rfl⟩ := Nat.exists_eq_add_of_le' some_
  have width : (q + 1) * itemsPerPage - q * itemsPerPage = itemsPerPage := by
    rw [Nat.succ_mul]
    omega
  rw [page,Nat.add_sub_cancel,width]

theorem pages_take (filtered : List α) (n : Nat) :
    (List.range' 1 n).flatMap (page filtered) = filtered.take (n * itemsPerPage) := by
  induction n with
  | zero => simp
  | succ n ih =>
    rw [List.range'_1_concat,List.flatMap_append,ih,List.flatMap_singleton,page_eq (by omega),Nat.succ_mul,
      List.take_add,Nat.add_sub_cancel_left]

theorem totalPages_enough (filtered : List α) : filtered.length ≤ totalPages filtered * itemsPerPage := by
  rw [totalPages,itemsPerPage]
  omega

theorem pages_all (filtered : List α) :
    (List.range' 1 (totalPages filtered)).flatMap (page filtered) = filtered := by
  rw [pages_take]
  exact List.take_of_length_le (totalPages_enough filtered)

theorem totalPages_one : totalPages filtered ≤ 1 ↔ filtered.length ≤ itemsPerPage := by
  rw [totalPages,itemsPerPage]
  omega

end Slices

section Paging

variable {toLowerCase : String → String} {replaced : Bytes → String} {workflows : List Workflow}
  {params : URLSearchParams} {state : SearchParams} {result : WorkflowResult} {w : Workflow} {p : Nat}

theorem visit_workflows : (visit toLowerCase state result w).workflows =
    result.workflows ++ if Passes toLowerCase state w then [w] else [] := by
  unfold visit
  dsimp only
  split
  next untagged =>
    have out : ¬Passes toLowerCase state w := by
      rintro ⟨none_ | tagged,_⟩
      · exact untagged.1 none_
      · simp [tagged] at untagged
    rw [if_neg out,List.append_nil]
  next tagged =>
    split
    next missed =>
      have out : ¬Passes toLowerCase state w := by
        rintro ⟨_,none_ | hit,_⟩
        · exact missed.1 none_
        · simp [hit] at missed
      rw [if_neg out,List.append_nil]
    next hit =>
      split
      next away => rw [if_neg (fun passes : Passes toLowerCase state w => away passes.2.2),List.append_nil]
      next here =>
        have passes : Passes toLowerCase state w := by
          refine ⟨?_,?_,not_not.mp here⟩
          · by_contra none_
            rw [not_or,Bool.not_eq_true] at none_
            exact tagged none_
          · by_contra none_
            rw [not_or,Bool.not_eq_true] at none_
            exact hit none_
        rw [if_pos passes]

theorem getWorkflowData_filter (toLowerCase : String → String) (workflows : List Workflow) (state : SearchParams) :
    (getWorkflowData toLowerCase workflows state).workflows = workflows.filter (Passes toLowerCase state ·) := by
  have later : ∀ result, (workflows.foldl (visit toLowerCase state) result).workflows =
      result.workflows ++ workflows.filter (Passes toLowerCase state ·) := by
    induction workflows with
    | nil => simp
    | cons w rest ih =>
      intro result
      rw [List.foldl_cons,ih,visit_workflows]
      by_cases passes : Passes toLowerCase state w <;> simp [passes]
  exact later _

theorem moved (parsed : searchParamsSchema toLowerCase params = some state) :
    ∃ number, searchParamsSchema toLowerCase (updateParams [("page",.number p)] params) =
      some { state with page := number } := by
  have kept : ∀ key, key ≠ "page" →
      fromEntries (updateParams [("page",.number p)] params) key = fromEntries params key :=
    fun key named => updateParams_other (by simpa using named) named
  obtain ⟨tags,read,rfl⟩ := Option.map_eq_some_iff.mp parsed
  rw [searchParamsSchema,kept "tags" (by decide),kept "q" (by decide),kept "tab" (by decide),read]
  exact ⟨_,rfl⟩

/-- What is shown at the query string of a page: the first page. -/
theorem shown_first (parsed : searchParamsSchema toLowerCase params = some state) :
    ∃ shown, useFilteredWorkflows toLowerCase workflows
        (readSearch replaced (search (updateParams [("page",.number p)] params))) = some shown ∧
      shown.workflows = page (workflows.filter (Passes toLowerCase state ·)) 1 ∧ shown.currentPage = 1 ∧
      shown.totalPages = totalPages (workflows.filter (Passes toLowerCase state ·)) := by
  obtain ⟨number,moved⟩ := moved (p := p) parsed
  have first : max 1 (min number 1) = 1 := by omega
  have same : ∀ n, getWorkflowData toLowerCase workflows { state with page := n } =
      getWorkflowData toLowerCase workflows state := fun _ => rfl
  rw [readSearch_search,useFilteredWorkflows,useValidatedSearchParams,moved]
  simp only [Option.map_some,first,same,getWorkflowData_filter]
  exact ⟨_,rfl,rfl,rfl,rfl⟩

/-- A page is reached exactly if it is the first: the bound of the hook is one page. -/
theorem paged_iff (parsed : searchParamsSchema toLowerCase params = some state) :
    Paged toLowerCase replaced workflows params state ↔
      (workflows.filter (Passes toLowerCase state ·)).length ≤ itemsPerPage := by
  rw [← totalPages_one]
  constructor
  · rintro ⟨_,reached⟩
    by_contra many
    obtain ⟨shown,shows,_,current,_⟩ := reached 2 (by omega) (by omega)
    obtain ⟨shown',shows',_,current',_⟩ := @shown_first _ replaced workflows _ _ 2 parsed
    cases shows.symm.trans shows'
    rw [current] at current'
    contradiction
  · intro one
    refine ⟨pages_all _,fun p least most => ?_⟩
    have first : p = 1 := by omega
    subst first
    exact shown_first parsed

end Paging

/-- Sixteen drafts without tags. -/
def drafts : List Workflow :=
  (List.range 16).map fun i => ⟨toString i,"Report","","draft",none⟩

theorem few_paged : Paged String.toLower (fun _ => "") (drafts.take 8) [("tab","draft")] ⟨"","draft",[],1⟩ :=
  (paged_iff (by decide +kernel)).mpr (by decide +kernel)

/-- The second page cannot be reached. -/
theorem second_unreached : ¬∀ workflows params state, searchParamsSchema String.toLower params = some state →
    Paged String.toLower (fun _ => "") workflows params state := by
  intro claim
  have parsed : searchParamsSchema String.toLower [("tab","draft")] = some ⟨"","draft",[],1⟩ := by decide +kernel
  obtain ⟨_,reached⟩ := claim drafts [("tab","draft")] ⟨"","draft",[],1⟩ parsed
  obtain ⟨shown,shows,_,current,_⟩ := reached 2 (by decide) (by decide +kernel)
  obtain ⟨shown',shows',_,current',_⟩ :=
    @shown_first _ (fun _ => "") drafts _ _ 2 parsed
  cases shows.symm.trans shows'
  rw [current] at current'
  contradiction

end TinyAutomator.Library
