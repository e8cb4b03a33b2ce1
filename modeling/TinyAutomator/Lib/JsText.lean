import Mathlib.Data.List.Basic

/-! String.prototype.split with a separator of one character, Array.prototype.join and
String.prototype.trim, on texts of Unicode characters. -/
namespace JsText

def split (sep : Char) (text : String) : List String := (text.toList.splitOn sep).map String.ofList

def join (sep : Char) (pieces : List String) : String :=
  String.ofList ([sep].intercalate (pieces.map String.toList))

/-- White space and line terminators. -/
def space (c : Char) : Bool :=
  c.toNat ∈ [0x9,0xA,0xB,0xC,0xD,0x20,0xA0,0x1680,0x2028,0x2029,0x202F,0x205F,0x3000,0xFEFF] ∨
    0x2000 ≤ c.toNat ∧ c.toNat ≤ 0x200A

def trim (text : String) : String :=
  String.ofList (((text.toList.dropWhile space).reverse.dropWhile space).reverse)

/-- Splitting at the runs of separators; only the first and the last piece can be empty. -/
def splitRuns (sep : Char → Bool) (text : String) : List String :=
  match text.toList.splitOnP sep with
  | [] | [_] => [text]
  | first :: second :: rest =>
    let last := (second :: rest).getLast (List.cons_ne_nil second rest)
    (first :: (second :: rest).dropLast.filter (· ≠ []) ++ [last]).map String.ofList

/-- toLowerCase of a text of ASCII. -/
def toLowerCase (text : String) : String := String.ofList (text.toList.map Char.toLower)

variable {sep c : Char} {text piece : String} {pieces : List String}

theorem split_length : (split sep text).length = text.toList.count sep + 1 := by
  have lists : ∀ l : List Char, (l.splitOn sep).length = l.count sep + 1 := by
    intro l
    induction l with
    | nil => rfl
    | cons c l ih =>
      rw [List.splitOn_cons_eq_if_modifyHead,List.count_cons]
      split
      next => simp [ih]
      next => simp [ih]
  rw [split,List.length_map,lists]

theorem split_join (free : ∀ piece ∈ pieces, sep ∉ piece.toList) (some : pieces ≠ []) :
    split sep (join sep pieces) = pieces := by
  have each : ∀ l ∈ pieces.map String.toList, sep ∉ l := by simpa using free
  rw [split,join,String.toList_ofList,List.splitOn_intercalate sep each (by simpa using some)]
  simp [Function.comp_def]

theorem split_free (member : piece ∈ split sep text) : sep ∉ piece.toList := by
  have lists : ∀ l : List Char, ∀ part ∈ l.splitOn sep, sep ∉ part := by
    intro l
    induction l with
    | nil => simp
    | cons c l ih =>
      rw [List.splitOn_cons_eq_if_modifyHead]
      split
      next => exact List.forall_mem_cons.mpr ⟨List.not_mem_nil,ih⟩
      next other =>
        cases pieces : l.splitOn sep with
        | nil => simp
        | cons first rest =>
          rw [pieces] at ih
          obtain ⟨head,tail⟩ := List.forall_mem_cons.mp ih
          refine List.forall_mem_cons.mpr ⟨?_,tail⟩
          rintro (_ | later)
          · simp at other
          · contradiction
  obtain ⟨part,within,rfl⟩ := List.mem_map.mp member
  rw [String.toList_ofList]
  exact lists text.toList part within

theorem trim_self (plain : ∀ c ∈ text.toList, space c = false) : trim text = text := by
  have same : ∀ l : List Char, (∀ c ∈ l, space c = false) → l.dropWhile space = l := by
    intro l plain
    cases l with
    | nil => rfl
    | cons c l => exact List.dropWhile_cons_of_neg (by simp [plain c List.mem_cons_self])
  rw [trim,same text.toList plain,same text.toList.reverse fun c member => plain c (List.mem_reverse.mp member)]
  rw [List.reverse_reverse,String.ofList_toList]

theorem toLowerCase_idem : toLowerCase (toLowerCase text) = toLowerCase text := by
  have same : ∀ c : Char, c.toLower.toLower = c.toLower := by
    intro c
    unfold Char.toLower
    split
    next upper =>
      rw [dif_neg]
      simp only [UInt32.le_iff_toNat_le,ge_iff_le] at upper ⊢
      simp [UInt32.toNat_add] at upper ⊢
      omega
    next other => rfl
  rw [toLowerCase,toLowerCase,String.toList_ofList,List.map_map]
  exact congrArg String.ofList (List.map_congr_left fun c _ => same c)

theorem mem_of_mem_trim (member : c ∈ (trim text).toList) : c ∈ text.toList := by
  rw [trim,String.toList_ofList,List.mem_reverse] at member
  have inner := (List.dropWhile_sublist space).subset member
  rw [List.mem_reverse] at inner
  exact (List.dropWhile_sublist space).subset inner

end JsText
