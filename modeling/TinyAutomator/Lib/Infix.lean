import Mathlib.Data.List.Infix

/-! Where a contiguous part of a list that was put together from pieces may lie. -/
namespace Infix

variable {α : Type} {sep : α} {part a b : List α} {pieces : List (List α)}

theorem append_cons (free : sep ∉ part) : part <:+: a ++ sep :: b ↔ part <:+: a ∨ part <:+: b := by
  constructor
  · rintro ⟨before,after,same⟩
    rcases List.append_eq_append_iff.mp same with ⟨rest,rfl,_⟩ | ⟨rest,split,right⟩
    · exact .inl ⟨before,rest,rfl⟩
    cases rest with
    | nil => exact .inl ⟨before,[],by simpa using split⟩
    | cons x rest =>
      obtain ⟨rfl,rfl⟩ := List.cons.inj right
      rcases List.append_eq_append_iff.mp split with ⟨inner,_,tail⟩ | ⟨inner,rfl,tail⟩
      · have within : sep ∈ part := tail ▸ List.mem_append_right _ List.mem_cons_self
        exact absurd within free
      · cases inner with
        | nil =>
          have within : sep ∈ part := by
            rw [List.nil_append] at tail
            exact tail ▸ List.mem_cons_self
          exact absurd within free
        | cons y inner =>
          obtain ⟨rfl,rfl⟩ := List.cons.inj tail
          exact .inr ⟨inner,after,by simp⟩
  · rintro (left | right)
    · exact left.trans (List.infix_append' [] a (sep :: b))
    · exact right.trans ⟨a ++ [sep],[],by simp⟩

/-- With a separator after each piece, a part without the separator lies in one piece. -/
theorem flatMap_sep (free : sep ∉ part) (some : part ≠ []) :
    part <:+: pieces.flatMap (· ++ [sep]) ↔ ∃ piece ∈ pieces, part <:+: piece := by
  induction pieces with
  | nil => simp [some]
  | cons piece rest ih =>
    rw [List.flatMap_cons,List.append_assoc,List.singleton_append,append_cons free,ih]
    simp only [List.mem_cons,exists_eq_or_imp]

end Infix
