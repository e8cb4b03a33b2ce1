import Mathlib.Data.Finset.Basic
import Mathlib.Data.Multiset.MapFold

/-! A list that has an entry of its own for every index with a property, among others. The rules
say how the property may change when the list gains or loses an entry. -/

variable {α : Type} {f g : Nat → α} {p q : Nat → Prop} {l : List α} {k : Nat}

/-- No two indices share an entry: the values at any set of indices are in the list together. -/
def Covers (f : Nat → α) (p : Nat → Prop) (l : List α) : Prop :=
  ∀ s : Finset Nat, (∀ i ∈ s, p i) → s.val.map f ≤ (l : Multiset α)

namespace Covers

theorem empty (f : Nat → α) (none : ∀ i, ¬p i) : Covers f p l := by
  intro s all
  have nobody : s = ∅ := Finset.eq_empty_of_forall_notMem fun i member => none i (all i member)
  rw [nobody]
  exact Multiset.zero_le _

theorem mem (covers : Covers f p l) (has : p k) : f k ∈ l := by
  have single := covers {k} fun i member => Finset.mem_singleton.mp member ▸ has
  exact Multiset.mem_coe.mp (Multiset.mem_of_le single (by simp))

theorem weaken (covers : Covers f p l) (fewer : ∀ i, q i → p i) : Covers f q l :=
  fun s all => covers s fun i member => fewer i (all i member)

theorem congr (covers : Covers f p l) (same : ∀ i, p i → g i = f i) : Covers g p l := by
  intro s all
  rw [Multiset.map_congr rfl fun i member => same i (all i member)]
  exact covers s all

theorem append (covers : Covers f p l) (more : ∀ i, q i → p i ∨ i = k) : Covers f q (l ++ [f k]) := by
  intro s all
  have old : (s.erase k).val.map f ≤ (l : Multiset α) := by
    refine covers _ fun i member => ?_
    obtain ⟨other,member⟩ := Finset.mem_erase.mp member
    exact (more i (all i member)).resolve_right other
  have within : s.val ≤ k ::ₘ (s.erase k).val :=
    le_trans (Finset.val_le_iff.mpr (Finset.insert_erase_subset k s))
      (Multiset.ndinsert_le.mpr ⟨Multiset.le_cons_self _ _,Multiset.mem_cons_self _ _⟩)
  calc s.val.map f
      ≤ f k ::ₘ (s.erase k).val.map f := by simpa using Multiset.map_le_map within
    _ ≤ f k ::ₘ (l : Multiset α) := Multiset.cons_le_cons _ old
    _ = ((l ++ [f k] : List α) : Multiset α) := by
        rw [← Multiset.coe_add,Multiset.add_comm]; rfl

theorem erase [DecidableEq α] (covers : Covers f p l) (has : p k) (fewer : ∀ i, q i → p i ∧ i ≠ k) :
    Covers f q (l.erase (f k)) := by
  intro s all
  have apart : k ∉ s := fun member => (fewer k (all k member)).2 rfl
  have within : f k ::ₘ s.val.map f ≤ (l : Multiset α) := by
    have both := covers (insert k s) fun i member => ?_
    · rw [Finset.insert_val,Multiset.ndinsert_of_notMem apart,Multiset.map_cons] at both
      exact both
    · rcases Finset.mem_insert.mp member with rfl | member
      · exact has
      · exact (fewer i (all i member)).1
  have removed := Multiset.erase_le_erase (f k) within
  rw [Multiset.erase_cons_head,Multiset.coe_erase] at removed
  exact removed

end Covers
