import Mathlib.Logic.Function.Basic
import Mathlib.Data.List.Sort

/-! A finite graph whose nodes are evaluated one after another, each after those that it depends
on. What comes out does not depend on the order. -/
namespace Topological

variable {α β : Type} {deps : α → List α} {f : α → (α → β) → β} {order : List α} {env value : α → β} {n : α}

/-- No node stands before one that it depends on. -/
def Ordered (deps : α → List α) (order : List α) : Prop :=
  order.Pairwise (fun a b => b ∉ deps a) ∧ order.Nodup ∧ ∀ n ∈ order, n ∉ deps n

/-- The value of a node is determined by the values of those that it depends on. -/
def Local (deps : α → List α) (f : α → (α → β) → β) : Prop :=
  ∀ n env env', (∀ p ∈ deps n, env p = env' p) → f n env = f n env'

theorem Ordered.tail {a : α} (ordered : Ordered deps (a :: order)) : Ordered deps order :=
  ⟨(List.pairwise_cons.mp ordered.1).2,(List.nodup_cons.mp ordered.2.1).2,
    fun n member => ordered.2.2 n (List.mem_cons_of_mem _ member)⟩

/-- Every measure that grows along the dependencies gives an order. -/
theorem exists_ordered (depth : α → Nat) (below : ∀ n, ∀ p ∈ deps n, depth p < depth n) (nodes : List α)
    (nodup : nodes.Nodup) : ∃ order, order.Perm nodes ∧ Ordered deps order := by
  let sorted := nodes.insertionSort fun a b => depth a ≤ depth b
  have perm : sorted.Perm nodes := nodes.perm_insertionSort _
  have upward : sorted.Pairwise fun a b => depth a ≤ depth b := by
    apply List.pairwise_insertionSort
  refine ⟨sorted,perm,?_,perm.nodup_iff.mpr nodup,?_⟩
  · apply upward.imp
    intro a b le dep
    have := below a b dep
    omega
  · intro n _ dep
    exact Nat.lt_irrefl _ (below n n dep)

variable [DecidableEq α]

def evaluate (f : α → (α → β) → β) : List α → (α → β) → α → β
  | [], env => env
  | n :: rest, env => evaluate f rest (Function.update env n (f n env))

theorem evaluate_other (other : n ∉ order) : evaluate f order env n = env n := by
  induction order generalizing env with
  | nil => rfl
  | cons a rest ih =>
    obtain ⟨different,apart⟩ := not_or.mp (mt List.mem_cons.mpr other)
    rw [evaluate,ih apart,Function.update_of_ne different]

/-- Values that solve all equations are the ones that come out, whatever the order. -/
theorem evaluate_solves (only : Local deps f) (ordered : Ordered deps order)
    (known : ∀ n ∈ order, ∀ p ∈ deps n, p ∈ order ∨ env p = value p)
    (solves : ∀ n ∈ order, value n = f n value) : ∀ n ∈ order, evaluate f order env n = value n := by
  induction order generalizing env with
  | nil => simp
  | cons a rest ih =>
    have after := ordered.tail
    obtain ⟨later,nodup,irreflexive⟩ := ordered
    have head : f a env = value a := by
      rw [solves a List.mem_cons_self]
      apply only
      intro p dep
      rcases known a List.mem_cons_self p dep with member | same
      · rcases List.mem_cons.mp member with rfl | member
        · exact absurd dep (irreflexive p List.mem_cons_self)
        · exact absurd dep ((List.pairwise_cons.mp later).1 p member)
      · exact same
    have rest_known : ∀ n ∈ rest, ∀ p ∈ deps n, p ∈ rest ∨ Function.update env a (f a env) p = value p := by
      intro n member p dep
      by_cases same : p = a
      · subst same
        exact .inr (by simp [head])
      · rw [Function.update_of_ne same]
        exact (known n (List.mem_cons_of_mem _ member) p dep).imp_left fun there =>
          (List.mem_cons.mp there).resolve_left same
    intro n member
    rcases List.mem_cons.mp member with rfl | member
    · rw [evaluate,evaluate_other (List.nodup_cons.mp nodup).1,Function.update_self,head]
    · exact ih after rest_known (fun k there => solves k (List.mem_cons_of_mem _ there)) n member

end Topological
