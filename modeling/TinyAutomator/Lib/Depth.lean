import Mathlib.Logic.Relation
import Mathlib.Order.WellFoundedSet

/-! Depths in a directed graph given by its edge relation: walks from the roots, the longest
of them, and the graphs in which all walks to a vertex have one length. -/
namespace Depth

variable {α : Type}

def Root (r : α → α → Prop) (a : α) : Prop := ∀ b, ¬r b a

/-- A walk of `n` edges from a root. -/
inductive Walk (r : α → α → Prop) : α → Nat → Prop where
  | root {a : α} : Root r a → Walk r a 0
  | step {a b : α} {n : Nat} : Walk r a n → r a b → Walk r b (n + 1)

/-- The depth of a vertex is the length of the longest walk that leads to it. -/
def Longest (r : α → α → Prop) (a : α) (n : Nat) : Prop := Walk r a n ∧ ∀ m, Walk r a m → m ≤ n

def Acyclic (r : α → α → Prop) : Prop := ∀ a, ¬Relation.TransGen r a a

/-- The predecessors of a vertex have one depth. -/
def Aligned (r : α → α → Prop) : Prop :=
  ∀ a b c m n, r a c → r b c → Longest r a m → Longest r b n → m = n

/-- All walks to a vertex have one length. -/
def Even (r : α → α → Prop) : Prop := ∀ a m n, Walk r a m → Walk r a n → m = n

/-- Roots are at zero and every edge goes down by one. -/
structure Graded (r : α → α → Prop) (depth : α → Nat) : Prop where
  edge : ∀ a b, r a b → depth b = depth a + 1
  root : ∀ a, Root r a → depth a = 0

variable {r : α → α → Prop} {depth : α → Nat} {a : α} {m n : Nat}

theorem Walk.of_root (root : Root r a) (walk : Walk r a n) : n = 0 := by
  cases walk with
  | root => rfl
  | step _ edge => exact absurd edge (root _)

theorem not_root (root : ¬Root r a) : ∃ b, r b a := by
  by_contra none_
  exact root fun b edge => none_ ⟨b,edge⟩

/-- Among walks of bounded length there is a longest one. -/
theorem Walk.longest {k : Nat} (walk : Walk r a n) (bound : ∀ m, Walk r a m → m ≤ k) :
    ∃ m, Longest r a m := by
  induction gap : k - n using Nat.strong_induction_on generalizing n with
  | _ d ih =>
    by_cases longer : ∃ m, n < m ∧ Walk r a m
    · obtain ⟨m,more,other⟩ := longer
      have := bound m other
      exact ih (k - m) (by omega) other rfl
    · refine ⟨n,walk,fun m other => ?_⟩
      by_contra more
      exact longer ⟨m,by omega,other⟩

/-- Finitely many predecessors with a depth bound their walks together. -/
theorem bounded {vertices : List α} (each : ∀ b ∈ vertices, r b a → ∃ n, Longest r b n) :
    ∃ k, ∀ b ∈ vertices, r b a → ∀ m, Walk r b m → m ≤ k := by
  induction vertices with
  | nil => exact ⟨0,by simp⟩
  | cons b rest ih =>
    obtain ⟨k,most⟩ := ih fun c member => each c (List.mem_cons_of_mem _ member)
    by_cases edge : r b a
    · obtain ⟨n,long⟩ := each b List.mem_cons_self edge
      refine ⟨max n k,fun c member into m walk => ?_⟩
      rcases List.mem_cons.mp member with rfl | member
      · have := long.2 m walk
        omega
      · have := most c member into m walk
        omega
    · refine ⟨k,fun c member into m walk => ?_⟩
      rcases List.mem_cons.mp member with rfl | member
      · exact absurd into edge
      · exact most c member into m walk

theorem Graded.walk (graded : Graded r depth) (walk : Walk r a n) : n = depth a := by
  induction walk with
  | root root => exact (graded.root _ root).symm
  | step _ edge ih => rw [ih,graded.edge _ _ edge]

theorem Graded.even (graded : Graded r depth) : Even r :=
  fun _ _ _ first second => (graded.walk first).trans (graded.walk second).symm

theorem Graded.acyclic (graded : Graded r depth) : Acyclic r := by
  have rising : ∀ a b, Relation.TransGen r a b → depth a < depth b := by
    intro a b path
    induction path with
    | single edge =>
      have := graded.edge _ _ edge
      omega
    | tail _ edge ih =>
      have := graded.edge _ _ edge
      omega
  intro a cycle
  have := rising a a cycle
  omega

theorem Even.aligned (even : Even r) : Aligned r := by
  intro a b c m n first second left right
  have same := even c _ _ (left.1.step first) (right.1.step second)
  omega

section Finite

variable {vertices : List α} (inside : ∀ a b, r a b → a ∈ vertices ∧ b ∈ vertices)

include inside

/-- In a finite acyclic graph a fact that passes from the predecessors of a vertex to the
vertex holds everywhere. -/
theorem Acyclic.induction (acyclic : Acyclic r) {motive : α → Prop}
    (turn : ∀ a, (∀ b, r b a → motive b) → motive a) (a : α) : motive a := by
  have : IsStrictOrder α (Relation.TransGen r) := {
    irrefl := acyclic
    trans := fun _ _ _ first second => first.trans second }
  have founded : {v | v ∈ vertices}.WellFoundedOn (Relation.TransGen r) :=
    vertices.finite_toSet.wellFoundedOn
  have on : ∀ b ∈ vertices, motive b := by
    intro b member
    refine founded.induction member fun c _ ih => turn c fun d edge => ?_
    exact ih d (inside d c edge).1 (.single edge)
  exact turn a fun b edge => on b (inside b a edge).1

/-- Every vertex has a depth, so `Aligned` speaks about all predecessors. -/
theorem Acyclic.longest (acyclic : Acyclic r) (a : α) : ∃ n, Longest r a n := by
  refine acyclic.induction (motive := fun a => ∃ n, Longest r a n) inside (fun a ih => ?_) a
  by_cases root : Root r a
  · exact ⟨0,.root root,fun m walk => (walk.of_root root).le⟩
  · have bound : ∃ k, ∀ m, Walk r a m → m ≤ k := by
      obtain ⟨k,most⟩ := bounded fun b _ edge => ih b edge
      refine ⟨k + 1,fun m walk => ?_⟩
      cases walk with
      | root root' => exact absurd root' root
      | step walk edge =>
        have := most _ (inside _ _ edge).1 edge _ walk
        omega
    obtain ⟨p,edge⟩ := not_root root
    obtain ⟨n,long⟩ := ih p edge
    obtain ⟨k,bound⟩ := bound
    exact (long.1.step edge).longest bound

/-- Where the predecessors are aligned, every vertex is reached by walks of one length. -/
theorem Aligned.walks (acyclic : Acyclic r) (aligned : Aligned r) (a : α) :
    ∃ n, Walk r a n ∧ ∀ m, Walk r a m → m = n := by
  refine acyclic.induction (motive := fun a => ∃ n, Walk r a n ∧ ∀ m, Walk r a m → m = n) inside
    (fun a ih => ?_) a
  by_cases root : Root r a
  · exact ⟨0,.root root,fun m walk => walk.of_root root⟩
  · obtain ⟨p,edge⟩ := not_root root
    obtain ⟨n,walk,only⟩ := ih p edge
    refine ⟨n + 1,walk.step edge,fun m other => ?_⟩
    cases other with
    | root root' => exact absurd root' root
    | step other into =>
      obtain ⟨k,walk',only'⟩ := ih _ into
      have same := aligned p _ a n k edge into ⟨walk,fun m w => (only m w).le⟩
        ⟨walk',fun m w => (only' m w).le⟩
      rw [only' _ other,same]

/-- The graphs with aligned predecessors are those that can be graded. -/
theorem graded_iff_aligned : (∃ depth, Graded r depth) ↔ Acyclic r ∧ Aligned r := by
  constructor
  · rintro ⟨depth,graded⟩
    exact ⟨graded.acyclic,graded.even.aligned⟩
  · rintro ⟨acyclic,aligned⟩
    choose depth walk only using aligned.walks inside acyclic
    refine ⟨depth,fun a b edge => ?_,fun a root => ?_⟩
    · exact (only b _ ((walk a).step edge)).symm
    · exact (walk a).of_root root

theorem graded_iff_even : (∃ depth, Graded r depth) ↔ Acyclic r ∧ Even r := by
  constructor
  · rintro ⟨depth,graded⟩
    exact ⟨graded.acyclic,graded.even⟩
  · rintro ⟨acyclic,even⟩
    exact (graded_iff_aligned inside).mpr ⟨acyclic,even.aligned⟩

end Finite

end Depth
