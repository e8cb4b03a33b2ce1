import TinyAutomator.Lib.Rfc5322

/-! The plain addresses of RFC 5322, without display names, quoted strings and comments, and lists
of them in a header field. -/
namespace Rfc5322

/-- A letter, a digit or one of the signs that may stand in an atom. -/
def atext (c : Char) : Bool :=
  (65 ≤ c.toNat && c.toNat ≤ 90) || (97 ≤ c.toNat && c.toNat ≤ 122) || (48 ≤ c.toNat && c.toNat ≤ 57) ||
    c.toNat ∈ [33,35,36,37,38,39,42,43,45,47,61,63,94,95,96,123,124,125,126]

/-- Atoms with a dot between every two. -/
def DotAtom (text : List Char) : Prop := ∀ part ∈ text.splitOn '.', part ≠ [] ∧ ∀ c ∈ part, atext c = true

def AddrSpec (text : String) : Prop :=
  ∃ name domain, text.toList = name ++ '@' :: domain ∧ DotAtom name ∧ DotAtom domain

/-- The addresses of a field, each without the blanks in front of it. -/
def addresses (text : Bytes) : List Bytes := (text.splitOn 44).map (·.dropWhile blank)

section Characters

variable {text : String} {l : List Char} {c sep : Char}

theorem mem_splitOn (member : c ∈ l) (other : c ≠ sep) : ∃ part ∈ l.splitOn sep, c ∈ part := by
  have whole : c ∈ [sep].intercalate (l.splitOn sep) := by rwa [List.intercalate_splitOn]
  revert whole
  generalize l.splitOn sep = parts
  intro whole
  induction parts with
  | nil => simp at whole
  | cons part rest ih =>
    cases rest with
    | nil => exact ⟨part,List.mem_cons_self,by simpa using whole⟩
    | cons next rest =>
      rw [List.intercalate_cons_cons,List.append_assoc,List.mem_append,List.mem_append] at whole
      rcases whole with here | here | later
      · exact ⟨part,List.mem_cons_self,here⟩
      · exact absurd (List.mem_singleton.mp here) other
      · obtain ⟨found,within,has⟩ := ih later
        exact ⟨found,List.mem_cons_of_mem part within,has⟩

theorem DotAtom.mem (dotAtom : DotAtom l) (member : c ∈ l) : atext c = true ∨ c = '.' := by
  by_cases dot : c = '.'
  · exact .inr dot
  · obtain ⟨part,within,has⟩ := mem_splitOn member dot
    exact .inl ((dotAtom part within).2 c has)

theorem AddrSpec.mem (addrSpec : AddrSpec text) (member : c ∈ text.toList) : atext c = true ∨ c = '.' ∨ c = '@' := by
  obtain ⟨name,domain,whole,left,right⟩ := addrSpec
  rw [whole] at member
  rcases List.mem_append.mp member with before | after
  · exact (left.mem before).imp_right .inl
  · rcases List.mem_cons.mp after with sign | after
    · exact .inr (.inr sign)
    · exact (right.mem after).imp_right .inl

/-- An address is of printable characters of ASCII, and no comma is among them. -/
theorem AddrSpec.printable (addrSpec : AddrSpec text) (member : c ∈ text.toList) :
    32 < c.toNat ∧ c.toNat < 127 ∧ c.toNat ≠ 44 := by
  rcases addrSpec.mem member with sign | rfl | rfl
  · simp [atext] at sign
    omega
  · decide
  · decide

end Characters

section Lists

end Lists

end Rfc5322
