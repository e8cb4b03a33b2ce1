import Mathlib.Data.List.Chain

/-! The syntax of mail: header fields in lines that CR LF ends, an empty line, and the body. A
line that begins with a blank goes on with the field before it. -/
namespace Rfc5322

abbrev Bytes := List UInt8

/-- No CR has an LF after it. -/
def Unbroken (text : Bytes) : Prop := text.IsChain fun a b => ¬(a = 13 ∧ b = 10)

instance : DecidablePred Unbroken := fun text =>
  inferInstanceAs (Decidable (text.IsChain fun a b => ¬(a = 13 ∧ b = 10)))

/-- The header lines and the body; `current` is the line that has been read so far. -/
def lines (current : Bytes) : Bytes → List Bytes × Bytes
  | [] => (if current = [] then [] else [current],[])
  | 13 :: 10 :: rest =>
    if current = [] then ([],rest) else (current :: (lines [] rest).1,(lines [] rest).2)
  | b :: rest => lines (current ++ [b]) rest

def blank (b : UInt8) : Bool := b = 32 ∨ b = 9

def unfolded : List Bytes → List Bytes
  | [] => []
  | line :: rest =>
    match unfolded rest with
    | (b :: more) :: others =>
      if blank b then (line ++ b :: more) :: others else line :: (b :: more) :: others
    | others => line :: others

/-- A field name has printable characters other than the colon. -/
def ValidName (name : Bytes) : Prop := name ≠ [] ∧ ∀ b ∈ name, 33 ≤ b ∧ b ≤ 126 ∧ b ≠ 58

instance : DecidablePred ValidName := fun name =>
  inferInstanceAs (Decidable (name ≠ [] ∧ ∀ b ∈ name, 33 ≤ b ∧ b ≤ 126 ∧ b ≠ 58))

/-- One blank after the colon is not part of the value. -/
def field (line : Bytes) : Option (Bytes × Bytes) :=
  let name := line.takeWhile (· ≠ 58)
  if ValidName name then
    match line.drop name.length with
    | 58 :: 32 :: value => some (name,value)
    | 58 :: value => some (name,value)
    | _ => none
  else none

def fieldList : List Bytes → Option (List (Bytes × Bytes))
  | [] => some []
  | line :: rest =>
    match field line,fieldList rest with
    | some f, some others => some (f :: others)
    | _, _ => none

def parse (text : Bytes) : Option (List (Bytes × Bytes) × Bytes) :=
  match fieldList (unfolded (lines [] text).1) with
  | some fields => some (fields,(lines [] text).2)
  | none => none

def line (f : Bytes × Bytes) : Bytes := f.1 ++ 58 :: 32 :: f.2

/-- The fields one after another, and the body. -/
def render (fields : List (Bytes × Bytes)) (body : Bytes) : Bytes :=
  fields.flatMap (fun f => line f ++ [13,10]) ++ 13 :: 10 :: body

variable {text current rest name value body : Bytes} {f : Bytes × Bytes} {fields : List (Bytes × Bytes)}
  {ls : List Bytes} {b : UInt8}

/-- A byte that does not begin a line end. -/
theorem lines_cons (whole : ∀ y ∈ rest.head?, ¬(b = 13 ∧ y = 10)) :
    lines current (b :: rest) = lines (current ++ [b]) rest := by
  rw [lines]
  rintro more rfl rfl
  exact whole 10 rfl ⟨rfl,rfl⟩

theorem lines_append (unbroken : Unbroken text) (some : current ++ text ≠ []) :
    lines current (text ++ 13 :: 10 :: rest) = ((current ++ text) :: (lines [] rest).1,(lines [] rest).2) := by
  induction text generalizing current with
  | nil =>
    rw [List.append_nil] at some ⊢
    rw [List.nil_append,lines,if_neg some]
  | cons b text ih =>
    have whole : ∀ y ∈ (text ++ 13 :: 10 :: rest).head?, ¬(b = 13 ∧ y = 10) := by
      cases text with
      | nil => simp
      | cons c text =>
        have first := (List.isChain_cons_cons.mp unbroken).1
        simpa using first
    rw [List.cons_append,lines_cons whole,ih (List.IsChain.tail unbroken) (by simp)]
    simp

theorem lines_unbroken (unbroken : Unbroken current)
    (whole : ∀ x ∈ current.getLast?, ∀ y ∈ text.head?, ¬(x = 13 ∧ y = 10)) :
    ∀ l ∈ (lines current text).1, Unbroken l := by
  induction current, text using lines.induct with
  | case1 current =>
    rw [lines]
    split
    next => simp
    next => simpa using unbroken
  | case2 rest => simp [lines]
  | case3 current rest some ih =>
    rw [lines,if_neg some]
    exact List.forall_mem_cons.mpr ⟨unbroken,ih .nil (by simp)⟩
  | case4 current b rest other ih =>
    have next : ∀ y ∈ rest.head?, ¬(b = 13 ∧ y = 10) := by
      rintro y head ⟨rfl,rfl⟩
      cases rest with
      | nil => simp at head
      | cons c rest =>
        have same : c = 10 := by simpa using head
        exact other rest rfl (by rw [same])
    rw [lines_cons next]
    apply ih
    · exact unbroken.append (.singleton b) (by simpa using whole)
    · simpa using next

theorem unfolded_unbroken (all : ∀ l ∈ ls, Unbroken l) : ∀ l ∈ unfolded ls, Unbroken l := by
  induction ls with
  | nil => simp [unfolded]
  | cons l ls ih =>
    obtain ⟨first,later⟩ := List.forall_mem_cons.mp all
    have tail := ih later
    rw [unfolded]
    split
    next b more others same =>
      rw [same] at tail
      obtain ⟨joined,others⟩ := List.forall_mem_cons.mp tail
      split
      next isBlank =>
        refine List.forall_mem_cons.mpr ⟨first.append joined ?_,others⟩
        intro x _ y head
        have same : y = b := by simpa using head.symm
        rintro ⟨_,feed⟩
        rw [same] at feed
        rw [feed] at isBlank
        contradiction
      next => exact List.forall_mem_cons.mpr ⟨first,tail⟩
    next => exact List.forall_mem_cons.mpr ⟨first,tail⟩

theorem field_suffix (read : field text = some f) : f.2 <:+ text := by
  unfold field at read
  dsimp only at read
  have end_ := List.drop_suffix (text.takeWhile (· ≠ 58)).length text
  generalize List.drop (text.takeWhile (· ≠ 58)).length text = tail at read end_
  split at read
  next =>
    split at read
    next => cases read; exact List.IsSuffix.trans ⟨[58,32],rfl⟩ end_
    next => cases read; exact List.IsSuffix.trans ⟨[58],rfl⟩ end_
    next => contradiction
  next => contradiction

theorem fieldList_suffix (read : fieldList ls = some fields) : ∀ f ∈ fields, ∃ l ∈ ls, f.2 <:+ l := by
  induction ls generalizing fields with
  | nil => cases read; simp
  | cons l ls ih =>
    rw [fieldList] at read
    split at read
    next first later =>
      cases read
      refine List.forall_mem_cons.mpr ⟨⟨l,List.mem_cons_self,field_suffix first⟩,fun f member => ?_⟩
      obtain ⟨k,there,suffix⟩ := ih later f member
      exact ⟨k,List.mem_cons_of_mem _ there,suffix⟩
    next => contradiction

/-- What is read as a value contains no line end. -/
theorem parse_unbroken (read : parse text = some (fields,body)) : ∀ f ∈ fields, Unbroken f.2 := by
  unfold parse at read
  split at read
  next each =>
    cases read
    intro f member
    have whole : ∀ l ∈ unfolded (lines [] text).1, Unbroken l := unfolded_unbroken (lines_unbroken .nil (by simp))
    obtain ⟨l,there,suffix⟩ := fieldList_suffix each f member
    exact (whole l there).suffix suffix
  next => contradiction

theorem ValidName.takeWhile (valid : ValidName name) : (name ++ 58 :: rest).takeWhile (· ≠ 58) = name := by
  have each : ∀ b ∈ name, decide (b ≠ 58) = true := fun b member => decide_eq_true (valid.2 b member).2.2
  rw [List.takeWhile_append_of_pos each]
  simp

theorem field_line (valid : ValidName f.1) : field (line f) = some f := by
  unfold field line
  rw [valid.takeWhile]
  simp [valid]

theorem fieldList_lines (valid : ∀ f ∈ fields, ValidName f.1) : fieldList (fields.map line) = some fields := by
  induction fields with
  | nil => rfl
  | cons f rest ih =>
    obtain ⟨first,later⟩ := List.forall_mem_cons.mp valid
    rw [List.map_cons,fieldList,field_line first,ih later]

theorem unbroken_of_forall (none_ : ∀ b ∈ text, b ≠ 13) : Unbroken text := by
  induction text with
  | nil => exact .nil
  | cons b text ih =>
    obtain ⟨first,later⟩ := List.forall_mem_cons.mp none_
    exact (ih later).cons fun y _ both => first both.1

theorem line_unbroken (valid : ValidName f.1) (unbroken : Unbroken f.2) : Unbroken (line f) := by
  have printable : ∀ b ∈ f.1, b ≠ 13 := by
    rintro _ member rfl
    exact absurd (valid.2 13 member).1 (by decide)
  have value : Unbroken (58 :: 32 :: f.2) := by
    refine List.isChain_cons_cons.mpr ⟨by decide,unbroken.cons fun y _ both => ?_⟩
    exact absurd both.1 (by decide)
  refine (unbroken_of_forall printable).append value fun x last y _ both => ?_
  exact printable x (List.mem_of_getLast? last) both.1

theorem lines_render (valid : ∀ f ∈ fields, ValidName f.1) (unbroken : ∀ f ∈ fields, Unbroken f.2) :
    lines [] (render fields body) = (fields.map line,body) := by
  induction fields with
  | nil => rfl
  | cons f rest ih =>
    obtain ⟨first,later⟩ := List.forall_mem_cons.mp valid
    obtain ⟨whole,others⟩ := List.forall_mem_cons.mp unbroken
    have split : render (f :: rest) body = line f ++ 13 :: 10 :: render rest body := by simp [render]
    rw [split,lines_append (line_unbroken first whole) (by simp [line]),ih later others]
    rfl

/-- No field begins with a blank. -/
theorem unfolded_lines (valid : ∀ f ∈ fields, ValidName f.1) :
    unfolded (fields.map line) = fields.map line := by
  induction fields with
  | nil => rfl
  | cons f rest ih =>
    obtain ⟨first,later⟩ := List.forall_mem_cons.mp valid
    rw [List.map_cons,unfolded,ih later]
    split
    next b more others same =>
      have printable : blank b = false := by
        cases rest with
        | nil => contradiction
        | cons g rest =>
          obtain ⟨some_,each⟩ := later g List.mem_cons_self
          obtain ⟨c,name,named⟩ := List.exists_cons_of_ne_nil some_
          rw [List.map_cons,line,named] at same
          obtain ⟨head,_⟩ := List.cons.inj same
          obtain ⟨rfl,_⟩ := List.cons.inj head
          have least := (each c (named ▸ List.mem_cons_self)).1
          by_contra isBlank
          simp only [blank,Bool.not_eq_false,decide_eq_true_eq] at isBlank
          rcases isBlank with rfl | rfl <;> contradiction
      simp [printable,same]
    next => rfl

/-- A rendered message is read back exactly if no value contains a line end. -/
theorem parse_render (valid : ∀ f ∈ fields, ValidName f.1) :
    parse (render fields body) = some (fields,body) ↔ ∀ f ∈ fields, Unbroken f.2 := by
  constructor
  · exact parse_unbroken
  · intro unbroken
    rw [parse,lines_render valid unbroken,unfolded_lines valid,fieldList_lines valid]

end Rfc5322
