import Mathlib.Data.List.Basic

/-! A loop that may fail: what each turn preserves, a loop that ended well has preserved. -/
namespace Fold

variable {α β ε : Type} {f : β → α → Except ε β} {a : α} {b b' : β} {l : List α}

theorem bind_ok {x : Except ε α} {g : α → Except ε β} :
    x >>= g = .ok b ↔ ∃ a, x = .ok a ∧ g a = .ok b := by
  cases x with
  | error e => simp [bind,Except.bind]
  | ok a => simp [bind,Except.bind]

theorem bind_error {x : Except ε α} {g : α → Except ε β} {err : ε} :
    x >>= g = .error err ↔ x = .error err ∨ ∃ a, x = .ok a ∧ g a = .error err := by
  cases x with
  | error e => simp [bind,Except.bind]
  | ok a => simp [bind,Except.bind]

/-- A loop over checks passes exactly if all of them do. -/
theorem forM_ok {check : α → Except ε Unit} : l.forM check = .ok () ↔ ∀ a ∈ l, check a = .ok () := by
  induction l with
  | nil => exact ⟨fun _ _ member => absurd member List.not_mem_nil,fun _ => rfl⟩
  | cons a rest ih =>
    rw [List.forM_eq_forM,List.forM_cons,bind_ok,List.forall_mem_cons,← ih]
    exact ⟨fun ⟨_,first,later⟩ => ⟨first,later⟩,fun ⟨first,later⟩ => ⟨(),first,later⟩⟩

theorem foldlM_cons_ok : (a :: l).foldlM f b = .ok b' ↔ ∃ c, f b a = .ok c ∧ l.foldlM f c = .ok b' := by
  rw [List.foldlM_cons,bind_ok]

/-- The invariant speaks about the turns done so far and the value they built. -/
theorem foldlM_ok (inv : List α → β → Prop) (initial : inv [] b)
    (turn : ∀ done a c d, inv done c → f c a = .ok d → inv (done ++ [a]) d)
    (ended : l.foldlM f b = .ok b') : inv l b' := by
  have later : ∀ (l done : List α) (c : β), inv done c → l.foldlM f c = .ok b' → inv (done ++ l) b' := by
    intro l
    induction l with
    | nil =>
      intro done c holds ended
      rw [List.foldlM_nil] at ended
      cases ended
      simpa using holds
    | cons a rest ih =>
      intro done c holds ended
      obtain ⟨d,first,ended⟩ := foldlM_cons_ok.mp ended
      simpa using ih (done ++ [a]) d (turn done a c d holds first) ended
  simpa using later l [] b initial ended

/-- A relation that every turn respects holds between start and end. -/
theorem foldlM_rel (rel : β → β → Prop) (reflexive : ∀ b, rel b b)
    (transitive : ∀ b c d, rel b c → rel c d → rel b d)
    (turn : ∀ a c d, f c a = .ok d → rel c d) (ended : l.foldlM f b = .ok b') : rel b b' :=
  foldlM_ok (fun _ c => rel b c) (reflexive b)
    (fun _ a c d before step => transitive b c d before (turn a c d step)) ended

theorem foldlM_total (turn : ∀ a ∈ l, ∀ b, ∃ c, f b a = .ok c) : ∃ c, l.foldlM f b = .ok c := by
  induction l generalizing b with
  | nil => exact ⟨b,rfl⟩
  | cons a rest ih =>
    obtain ⟨c,first⟩ := turn a List.mem_cons_self b
    obtain ⟨d,later⟩ := @ih c fun a member => turn a (List.mem_cons_of_mem _ member)
    exact ⟨d,foldlM_cons_ok.mpr ⟨c,first,later⟩⟩

end Fold
