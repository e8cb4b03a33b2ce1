import Mathlib.Logic.Function.Basic

/-! A view of keyed values that is kept up to date by replaying updates in order: the
last update of a key wins, and a key without one shows what the view began with. -/
namespace Replay

variable {κ ν : Type} [DecidableEq κ]

def shown (base : κ → ν) (updates : List (κ × ν)) : κ → ν :=
  updates.foldl (fun view update => Function.update view update.1 update.2) base

variable {base base' : κ → ν} {xs ys : List (κ × ν)} {k : κ} {v : ν} {u : κ × ν}

@[simp] theorem shown_nil : shown base [] = base := rfl

@[simp] theorem shown_cons : shown base (u :: xs) = shown (Function.update base u.1 u.2) xs := rfl

theorem shown_append : shown base (xs ++ ys) = shown (shown base xs) ys := by
  simp [shown]

/-- What a key shows depends on the beginning of that key only. -/
theorem shown_agree (same : base k = base' k) : shown base xs k = shown base' xs k := by
  induction xs generalizing base base' with
  | nil => exact same
  | cons u xs ih =>
    apply ih
    by_cases own : k = u.1
    · subst own
      simp
    · simp [own,same]

theorem shown_untouched (none : ∀ u ∈ xs, u.1 ≠ k) : shown base xs k = base k := by
  induction xs generalizing base with
  | nil => rfl
  | cons u xs ih =>
    have other : k ≠ u.1 := Ne.symm (none u List.mem_cons_self)
    rw [shown_cons,ih fun v member => none v (List.mem_cons_of_mem _ member)]
    exact Function.update_of_ne other _ _

/-- After an update of the key the beginning no longer counts. -/
theorem shown_touched (some : ∃ u ∈ xs, u.1 = k) : shown base xs k = shown base' xs k := by
  induction xs generalizing base base' with
  | nil => simp at some
  | cons u xs ih =>
    rw [shown_cons,shown_cons]
    by_cases own : k = u.1
    · apply shown_agree
      subst own
      simp
    · obtain ⟨v,member,same⟩ := some
      rcases List.mem_cons.mp member with rfl | later
      · exact absurd same.symm own
      · exact ih ⟨v,later,same⟩

theorem shown_last : shown base (xs ++ [(k,v)]) k = v := by
  rw [shown_append,shown_cons,shown_nil]
  exact Function.update_self _ _ _

theorem shown_concat (shows : shown base xs k = v) (update : u.1 = k → u.2 = v) :
    shown base (xs ++ [u]) k = v := by
  rw [shown_append,shown_cons,shown_nil]
  by_cases own : k = u.1
  · subst own
    simpa using update rfl
  · simpa [own] using shows

/-- An update may be left out when a later one of its key follows. -/
theorem shown_skip (later : u.1 = k → ∃ w ∈ ys, w.1 = k) :
    shown base (xs ++ u :: ys) k = shown base (xs ++ ys) k := by
  rw [shown_append,shown_append,shown_cons]
  by_cases own : u.1 = k
  · exact shown_touched (later own)
  · apply shown_agree
    simp [Ne.symm own]

/-- A view that begins with the final value may miss the first updates. -/
theorem shown_tail (begins : base k = v) (shows : shown base (u :: xs) k = v) : shown base xs k = v := by
  by_cases some : ∃ w ∈ xs, w.1 = k
  · have touched : shown base xs k = shown (Function.update base u.1 u.2) xs k := shown_touched some
    exact touched.trans shows
  · rw [shown_untouched fun w member same => some ⟨w,member,same⟩]
    exact begins

theorem shown_map {keys : List κ} {values : κ → ν} (member : k ∈ keys) :
    shown base (keys.map fun key => (key,values key)) k = values k := by
  induction keys generalizing base with
  | nil => simp at member
  | cons key keys ih =>
    rw [List.map_cons,shown_cons]
    by_cases later : k ∈ keys
    · exact ih later
    · rcases List.mem_cons.mp member with rfl | rest
      · rw [shown_untouched]
        · simp
        · rintro u there rfl
          obtain ⟨other,among,rfl⟩ := List.mem_map.mp there
          exact later among
      · exact absurd rest later

end Replay
