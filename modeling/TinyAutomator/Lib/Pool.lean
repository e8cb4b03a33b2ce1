import Mathlib.Data.List.Basic
import Mathlib.Algebra.GroupWithZero.Nat

/-! A pool of interleaved agents is a list: an agent keeps its index for good, a new
agent is appended. The rules say what survives when the agent at one index moves. -/
namespace Pool

variable {α : Type} {pool : List α} {i j : Nat} {a b : α}

/-- After a move an agent is the one that moved, or it sits untouched elsewhere. -/
theorem mem_set_cases {x : α} (member : x ∈ pool.set i b) :
    x = b ∨ ∃ j, j ≠ i ∧ pool[j]? = some x := by
  obtain ⟨j,bound,get⟩ := List.mem_iff_getElem.mp member
  rw [List.getElem_set] at get
  split at get
  next => exact .inl get.symm
  next different =>
    rw [List.length_set] at bound
    exact .inr ⟨j,Ne.symm different,by rw [List.getElem?_eq_getElem bound,get]⟩

theorem get_set_cases {k : Nat} {x : α} (get : (pool.set i b)[k]? = some x) :
    k = i ∧ x = b ∨ k ≠ i ∧ pool[k]? = some x := by
  rw [List.getElem?_set] at get
  split at get
  next same =>
    split at get
    next => exact .inl ⟨same.symm,(Option.some.inj get).symm⟩
    next => contradiction
  next other => exact .inr ⟨Ne.symm other,get⟩

theorem forall_set {p : α → Prop} (all : ∀ x ∈ pool, p x) (new : p b) :
    ∀ x ∈ pool.set i b, p x := by
  intro x member
  rcases mem_set_cases member with rfl | ⟨j,_,get⟩
  · exact new
  · exact all x (List.mem_of_getElem? get)

theorem forall_set_of_erase {p : α → Prop} (others : ∀ x ∈ pool.eraseIdx i, p x) (new : p b) :
    ∀ x ∈ pool.set i b, p x := by
  intro x member
  rcases mem_set_cases member with rfl | ⟨j,different,get⟩
  · exact new
  · exact others x (List.mem_eraseIdx_iff_getElem?.mpr ⟨j,different,get⟩)

theorem forall_append {p : α → Prop} (all : ∀ x ∈ pool, p x) (new : p b) :
    ∀ x ∈ pool ++ [b], p x := by
  intro x member
  rcases List.mem_append.mp member with old | fresh
  · exact all x old
  · rw [List.mem_singleton.mp fresh]; exact new

theorem set_same (at_ : pool[i]? = some a) : pool.set i a = pool := by
  obtain ⟨bound,rfl⟩ := List.getElem?_eq_some_iff.mp at_
  exact List.set_getElem_self bound

theorem mem_set_self (at_ : pool[i]? = some a) : b ∈ pool.set i b := by
  obtain ⟨bound,_⟩ := List.getElem?_eq_some_iff.mp at_
  exact List.mem_iff_getElem.mpr ⟨i,by simpa using bound,by simp⟩

theorem get_set_self (at_ : pool[i]? = some a) : (pool.set i b)[i]? = some b := by
  obtain ⟨bound,_⟩ := List.getElem?_eq_some_iff.mp at_
  simp [bound]

theorem mem_set_of_ne (at_ : pool[i]? = some a) (member : b ∈ pool) (other : b ≠ a) (c : α) :
    b ∈ pool.set i c := by
  obtain ⟨j,bound,get⟩ := List.mem_iff_getElem.mp member
  have different : i ≠ j := by
    rintro rfl
    rw [List.getElem?_eq_getElem bound,get] at at_
    exact other (Option.some.inj at_)
  exact List.mem_iff_getElem.mpr ⟨j,by simpa using bound,by simp [different,get]⟩

theorem exists_set {p : α → Prop} (at_ : pool[i]? = some a) (found : ∃ x ∈ pool, p x) (b : α) :
    p a ∨ ∃ x ∈ pool.set i b, p x := by
  obtain ⟨x,member,holds⟩ := found
  by_cases same : x = a
  · exact .inl (same ▸ holds)
  · exact .inr ⟨x,mem_set_of_ne at_ member same b,holds⟩

/-- A relation between the agents survives a move of one that stays related to the others. -/
theorem pairwise_set {r : α → α → Prop} (related : pool.Pairwise r) (at_ : pool[i]? = some a)
    (left : ∀ x, r x a → r x b) (right : ∀ x, r a x → r b x) : (pool.set i b).Pairwise r := by
  induction pool generalizing i with
  | nil => exact related
  | cons x rest ih =>
    obtain ⟨first,later⟩ := List.pairwise_cons.mp related
    cases i with
    | zero =>
      cases at_
      exact List.pairwise_cons.mpr ⟨fun y member => right y (first y member),later⟩
    | succ i =>
      refine List.pairwise_cons.mpr ⟨fun y member => ?_,ih later at_⟩
      rcases mem_set_cases member with rfl | ⟨j,_,get⟩
      · exact left x (first a (List.mem_of_getElem? at_))
      · exact first y (List.mem_of_getElem? get)

theorem sum_set {f : α → Nat} (at_ : pool[i]? = some a) (b : α) :
    ((pool.set i b).map f).sum + f a = (pool.map f).sum + f b := by
  induction pool generalizing i with
  | nil => simp at at_
  | cons x rest ih =>
    cases i with
    | zero =>
      cases at_
      simp only [List.set_cons_zero,List.map_cons,List.sum_cons]
      omega
    | succ i =>
      have later := ih at_
      simp only [List.set_cons_succ,List.map_cons,List.sum_cons]
      omega

theorem sum_set_lt {f : α → Nat} (at_ : pool[i]? = some a) (less : f b < f a) :
    ((pool.set i b).map f).sum < (pool.map f).sum := by
  have sum := sum_set (f := f) at_ b
  omega

theorem countP_set {p : α → Bool} (at_ : pool[i]? = some a) (b : α) :
    (pool.set i b).countP p + (if p a then 1 else 0) = pool.countP p + if p b then 1 else 0 := by
  induction pool generalizing i with
  | nil => simp at at_
  | cons x rest ih =>
    cases i with
    | zero =>
      cases at_
      simp only [List.set_cons_zero,List.countP_cons]
      omega
    | succ i =>
      have later := ih at_
      simp only [List.set_cons_succ,List.countP_cons]
      omega

theorem zipWith_set {β γ : Type} (f : α → β → γ) (l : List α) (r : List β) (i : Nat) (a : α) (b : β) :
    List.zipWith f (l.set i a) (r.set i b) = (List.zipWith f l r).set i (f a b) := by
  induction l generalizing r i with
  | nil => rfl
  | cons x l ih =>
    cases r with
    | nil => cases i <;> rfl
    | cons y r =>
      cases i with
      | zero => rfl
      | succ i => exact congrArg (f x y :: ·) (ih r i)

/-- Two agents at different indices are related one way or the other. -/
theorem pairwise_get {r : α → α → Prop} (related : pool.Pairwise r) (geti : pool[i]? = some a)
    (getj : pool[j]? = some b) (different : i ≠ j) : r a b ∨ r b a := by
  obtain ⟨boundi,rfl⟩ := List.getElem?_eq_some_iff.mp geti
  obtain ⟨boundj,rfl⟩ := List.getElem?_eq_some_iff.mp getj
  rcases Nat.lt_or_gt_of_ne different with before | after
  · exact .inl (List.pairwise_iff_getElem.mp related i j boundi boundj before)
  · exact .inr (List.pairwise_iff_getElem.mp related j i boundj boundi after)

/-- No two agents at different indices have the property together. -/
def Alone (p : α → Prop) (pool : List α) : Prop :=
  ∀ (i j : Nat) (a b : α), pool[i]? = some a → pool[j]? = some b → p a → p b → i = j

theorem Alone.set {p : α → Prop} (alone : Alone p pool) (at_ : pool[i]? = some a)
    (enters : p b → p a ∨ ∀ (j : Nat) x, pool[j]? = some x → j ≠ i → ¬p x) : Alone p (pool.set i b) := by
  have apart : ∀ (j : Nat) x, pool[j]? = some x → j ≠ i → p b → ¬p x := by
    intro j x get different holds other
    rcases enters holds with old | none
    · exact different (alone j i x a get at_ other old)
    · exact none j x get different other
  intro j k x y getx gety holdsx holdsy
  rcases get_set_cases getx with ⟨moved,rfl⟩ | ⟨other,there⟩
  · rcases get_set_cases gety with ⟨moved',_⟩ | ⟨other',there'⟩
    · exact moved.trans moved'.symm
    · exact absurd holdsy (apart k y there' other' holdsx)
  · rcases get_set_cases gety with ⟨_,rfl⟩ | ⟨_,there'⟩
    · exact absurd holdsx (apart j x there other holdsy)
    · exact alone j k x y there there' holdsx holdsy

theorem Alone.count {p : α → Prop} [DecidablePred p] (alone : Alone p pool) : pool.countP (p ·) ≤ 1 := by
  induction pool with
  | nil => simp
  | cons x rest ih =>
    have later := ih fun i j a b geti getj first second =>
      Nat.succ.inj (alone (i + 1) (j + 1) a b geti getj first second)
    rw [List.countP_cons]
    by_cases first : p x
    · have none_ : rest.countP (p ·) = 0 := by
        apply List.countP_eq_zero.mpr
        intro a member holds
        obtain ⟨j,get⟩ := List.mem_iff_getElem?.mp member
        have same := alone 0 (j + 1) x a rfl get first (of_decide_eq_true holds)
        omega
      simp [none_,first]
    · simpa [first] using later

theorem Alone.append {p : α → Prop} (alone : Alone p pool) (new : ¬p b) :
    Alone p (pool ++ [b]) := by
  have old : ∀ (j : Nat) x, (pool ++ [b])[j]? = some x → p x → pool[j]? = some x := by
    intro j x get holds
    rw [List.getElem?_append] at get
    split at get
    next => exact get
    next =>
      have single := List.mem_of_getElem? get
      rw [List.mem_singleton.mp single] at holds
      exact absurd holds new
  intro j k x y getx gety holdsx holdsy
  exact alone j k x y (old j x getx holdsx) (old k y gety holdsy) holdsx holdsy

end Pool
