import Mathlib.Data.List.Basic
import Mathlib.Data.List.Perm.Subperm
import Mathlib.Data.List.Nodup

/-! Topological sorting by Kahn's algorithm with a FIFO queue, over any vertex type.
`succ v` lists the out-neighbours of `v` in the order in which they are visited. -/
namespace Kahn

variable {α : Type}

theorem pair_append {xs ys : List α} {x y : α} (left : x ∈ xs) (right : y ∈ ys) :
    [x,y].Sublist (xs ++ ys) := by
  simpa using (List.singleton_sublist.mpr left).append (List.singleton_sublist.mpr right)

theorem pair_left {xs ys : List α} {x y : α} (nodup : (xs ++ ys).Nodup)
    (pair : [x,y].Sublist (xs ++ ys)) (left : y ∈ xs) : [x,y].Sublist xs := by
  obtain ⟨front,back,same,infront,inback⟩ := List.sublist_append_iff.mp pair
  have absent : y ∉ ys := fun right => (List.nodup_append.mp nodup).2.2 y left y right rfl
  cases back with
  | nil => simpa [same] using infront
  | cons z back =>
    have last : y ∈ z :: back := by
      have h := congrArg List.getLast? same
      simp only [List.getLast?_append,List.getLast?_cons_cons,List.getLast?_singleton] at h
      cases hb : (z :: back).getLast? with
      | none => simp at hb
      | some last =>
        simp only [hb,Option.some_or,Option.some.injEq] at h
        exact h ▸ List.mem_of_getLast? hb
    exact absurd (inback.subset last) absent

/-- A finite directed graph: neighbours are vertices and are listed once. -/
structure Finite (vertices : List α) (succ : α → List α) : Prop where
  nodup : vertices.Nodup
  inside : ∀ v ∈ vertices, ∀ w ∈ succ v, w ∈ vertices
  simple : ∀ v ∈ vertices, (succ v).Nodup

/-- `y` is not ready before `x`: every predecessor of `x` comes no later than some
predecessor of `y`. -/
def NoEarlier (vertices : List α) (succ : α → List α) (done : List α) (x y : α) : Prop :=
  ∀ p ∈ vertices, x ∈ succ p → ∃ q ∈ vertices, y ∈ succ q ∧ (q = p ∨ [p,q].Sublist done)

theorem NoEarlier.extend {vertices : List α} {succ : α → List α} {done : List α} {x y : α}
    (before : NoEarlier vertices succ done x y) (more : List α) :
    NoEarlier vertices succ (done ++ more) x y := by
  intro p member edge
  obtain ⟨q,qmember,qedge,place⟩ := before p member edge
  exact ⟨q,qmember,qedge,place.imp_right fun s => s.trans (List.sublist_append_left _ _)⟩

/-- The loop's state: what was output, then what waits. A vertex has joined exactly
when all its predecessors were output, and the vertices joined in FIFO order. -/
structure Invariant (vertices : List α) (succ : α → List α) (queue done : List α) : Prop where
  nodup : (done ++ queue).Nodup
  joined : ∀ w, w ∈ done ++ queue ↔ w ∈ vertices ∧ ∀ v ∈ vertices, w ∈ succ v → v ∈ done
  sorted : ∀ w ∈ done ++ queue, ∀ v ∈ vertices, w ∈ succ v → [v,w].Sublist (done ++ queue)
  fifo : (done ++ queue).Pairwise (NoEarlier vertices succ done)

theorem Invariant.subset {vertices : List α} {succ : α → List α} {queue done : List α}
    (inv : Invariant vertices succ queue done) : done ++ queue ⊆ vertices :=
  fun w member => ((inv.joined w).mp member).1

/-- What a successful sort returns: every vertex once, after its predecessors, and in
the order in which the last predecessors come. -/
structure Sorted (vertices : List α) (succ : α → List α) (out : List α) : Prop where
  perm : out.Perm vertices
  edges : ∀ v ∈ vertices, ∀ w ∈ succ v, [v,w].Sublist out
  fifo : out.Pairwise (NoEarlier vertices succ out)

theorem Sorted.nodup {vertices : List α} {succ : α → List α} {out : List α}
    (sorted : Sorted vertices succ out) (finite : Finite vertices succ) : out.Nodup :=
  sorted.perm.nodup_iff.mpr finite.nodup

theorem Sorted.before {vertices : List α} {succ : α → List α} {done rest : List α} {u p : α}
    (sorted : Sorted vertices succ (done ++ u :: rest)) (finite : Finite vertices succ)
    (member : p ∈ vertices) (edge : u ∈ succ p) : p ∈ done := by
  have nodup := sorted.nodup finite
  have pair := sorted.edges p member u edge
  have shape : done ++ u :: rest = (done ++ [u]) ++ rest := by simp
  rw [shape] at nodup pair
  have front : ([p] ++ [u]).Sublist (done ++ [u]) := pair_left nodup pair (by simp)
  exact List.singleton_sublist.mp ((List.append_sublist_append_right _).mp front)

theorem Sorted.before_mem {vertices : List α} {succ : α → List α} {done rest : List α} {x p : α}
    (sorted : Sorted vertices succ (done ++ rest)) (finite : Finite vertices succ)
    (inside : x ∈ done) (member : p ∈ vertices) (edge : x ∈ succ p) : p ∈ done := by
  obtain ⟨front,back,rfl⟩ := List.append_of_mem inside
  have shaped : Sorted vertices succ (front ++ x :: (back ++ rest)) := by simpa using sorted
  exact List.mem_append_left _ (shaped.before finite member edge)

variable [DecidableEq α]

/-- The in-degree of `w` once the vertices of `done` are removed. -/
def indegree (vertices : List α) (succ : α → List α) (done : List α) (w : α) : Nat :=
  (vertices.filter fun v => v ∉ done ∧ w ∈ succ v).length

/-- One round of the loop per unit of fuel: the head of the queue is output and its
neighbours whose in-degree drops to zero join the queue. -/
def loop (vertices : List α) (succ : α → List α) : Nat → List α → List α → List α
  | 0, _, done => done
  | _ + 1, [], done => done
  | fuel + 1, v :: queue, done =>
    loop vertices succ fuel
      (queue ++ (succ v).filter fun w => indegree vertices succ (done ++ [v]) w = 0) (done ++ [v])

def sources (vertices : List α) (succ : α → List α) : List α :=
  vertices.filter fun v => indegree vertices succ [] v = 0

/-- Each round outputs one vertex, so as many rounds as vertices are enough. -/
def order (vertices : List α) (succ : α → List α) : List α :=
  loop vertices succ vertices.length (sources vertices succ) []

def topSort (vertices : List α) (succ : α → List α) : Option (List α) :=
  let out := order vertices succ
  if out.length = vertices.length then some out else none

theorem indegree_zero {vertices : List α} {succ : α → List α} {done : List α} {w : α} :
    indegree vertices succ done w = 0 ↔ ∀ v ∈ vertices, w ∈ succ v → v ∈ done := by
  simp only [indegree,List.length_eq_zero_iff,List.filter_eq_nil_iff,decide_eq_true_eq]
  constructor
  · intro none v member edge
    by_contra missing
    exact none v member ⟨missing,edge⟩
  · rintro all v member ⟨missing,edge⟩
    exact missing (all v member edge)

section Loop

variable {vertices : List α} {succ : α → List α} {queue done : List α} {v : α}

theorem invariant_initial (finite : Finite vertices succ) :
    Invariant vertices succ (sources vertices succ) [] := by
  have source : ∀ w, w ∈ sources vertices succ ↔
      w ∈ vertices ∧ ∀ v ∈ vertices, w ∈ succ v → v ∈ [] := by
    intro w
    simp only [sources,List.mem_filter,decide_eq_true_eq,indegree_zero]
  refine ⟨?_,?_,?_,?_⟩
  · simpa [sources] using finite.nodup.filter _
  · simpa using source
  · intro w member v vmember edge
    exact absurd (((source w).mp (by simpa using member)).2 v vmember edge) (by simp)
  · refine List.pairwise_of_forall_mem_list fun x memberx y _ p pmember edge => ?_
    exact absurd (((source x).mp (by simpa using memberx)).2 p pmember edge) (by simp)

/-- The neighbours that a round adds are new, because their predecessor was waiting. -/
theorem invariant_round (finite : Finite vertices succ)
    (inv : Invariant vertices succ (v :: queue) done) :
    Invariant vertices succ
      (queue ++ (succ v).filter fun w => indegree vertices succ (done ++ [v]) w = 0)
      (done ++ [v]) := by
  have vmember : v ∈ vertices := ((inv.joined v).mp (by simp)).1
  have waiting : v ∉ done := by
    intro early
    exact (List.nodup_append.mp inv.nodup).2.2 v early v (by simp) rfl
  generalize fresh : ((succ v).filter fun w => indegree vertices succ (done ++ [v]) w = 0) = new
  have ready : ∀ w, w ∈ new ↔ w ∈ succ v ∧ ∀ u ∈ vertices, w ∈ succ u → u ∈ done ++ [v] := by
    intro w
    simp only [← fresh,List.mem_filter,decide_eq_true_eq,indegree_zero]
  have notJoined : ∀ w ∈ new, w ∉ done ++ v :: queue := by
    intro w member old
    exact waiting (((inv.joined w).mp old).2 v vmember ((ready w).mp member).1)
  have shape : (done ++ [v]) ++ (queue ++ new) = (done ++ v :: queue) ++ new := by simp
  refine ⟨?_,?_,?_,?_⟩
  · rw [shape,List.nodup_append]
    refine ⟨inv.nodup,fresh ▸ (finite.simple v vmember).filter _,?_⟩
    rintro w old _ member rfl
    exact notJoined w member old
  · intro w
    rw [shape,List.mem_append,inv.joined,ready]
    constructor
    · rintro (⟨member,all⟩ | ⟨edge,all⟩)
      · exact ⟨member,fun u umember uedge => List.mem_append_left _ (all u umember uedge)⟩
      · exact ⟨finite.inside v vmember w edge,all⟩
    · rintro ⟨member,all⟩
      by_cases edge : w ∈ succ v
      · exact .inr ⟨edge,all⟩
      · refine .inl ⟨member,fun u umember uedge => ?_⟩
        rcases List.mem_append.mp (all u umember uedge) with old | last
        · exact old
        · exact absurd (List.mem_singleton.mp last ▸ uedge) edge
  · intro w member u umember edge
    rw [shape] at member ⊢
    rcases List.mem_append.mp member with old | member
    · exact (inv.sorted w old u umember edge).trans (List.sublist_append_left _ _)
    · refine pair_append ?_ member
      have early := ((ready w).mp member).2 u umember edge
      simp only [List.mem_append,List.mem_singleton] at early
      rcases early with early | rfl <;> simp [*]
  · rw [shape,List.pairwise_append]
    refine ⟨inv.fifo.imp fun before => before.extend _,?_,?_⟩
    · refine List.pairwise_of_forall_mem_list fun x memberx y membery p pmember edge => ?_
      refine ⟨v,vmember,((ready y).mp membery).1,?_⟩
      have early := ((ready x).mp memberx).2 p pmember edge
      rcases List.mem_append.mp early with early | last
      · exact .inr (pair_append early (by simp))
      · exact .inl (List.mem_singleton.mp last).symm
    · intro x memberx y membery p pmember edge
      refine ⟨v,vmember,((ready y).mp membery).1,.inr ?_⟩
      exact pair_append (((inv.joined x).mp memberx).2 p pmember edge) (by simp)

/-- The loop keeps the invariant, and it stops for one of its two reasons. -/
theorem loop_invariant (finite : Finite vertices succ) (fuel : Nat) (queue done : List α)
    (inv : Invariant vertices succ queue done) :
    ∃ rest, Invariant vertices succ rest (loop vertices succ fuel queue done) ∧
      (rest = [] ∨ (loop vertices succ fuel queue done).length = done.length + fuel) := by
  induction fuel generalizing queue done with
  | zero => exact ⟨queue,inv,.inr rfl⟩
  | succ fuel ih =>
    cases queue with
    | nil => exact ⟨[],inv,.inl rfl⟩
    | cons v queue =>
      obtain ⟨rest,final,stop⟩ := ih _ _ (invariant_round finite inv)
      refine ⟨rest,final,stop.imp_right fun length => ?_⟩
      simp only [loop,length,List.length_append,List.length_singleton]
      omega

end Loop

section Result

variable {vertices : List α} {succ : α → List α} {out : List α}

theorem topSort_sorted (finite : Finite vertices succ) (sorts : topSort vertices succ = some out) :
    Sorted vertices succ out := by
  simp only [topSort] at sorts
  split at sorts
  next full =>
    cases sorts
    obtain ⟨rest,inv,_⟩ := loop_invariant finite vertices.length _ _ (invariant_initial finite)
    have nodup := (List.nodup_append.mp inv.nodup).1
    have perm : (order vertices succ).Perm vertices := by
      have sub : (order vertices succ).Subperm vertices :=
        List.subperm_of_subset nodup fun w member => inv.subset (List.mem_append_left _ member)
      exact sub.perm_of_length_le (Nat.le_of_eq full.symm)
    have empty : rest = [] := by
      cases rest with
      | nil => rfl
      | cons w rest =>
        have inside : w ∈ order vertices succ := perm.mem_iff.mpr (inv.subset (by simp))
        exact absurd rfl ((List.nodup_append.mp inv.nodup).2.2 w inside w (by simp))
    subst empty
    refine ⟨perm,?_,by simpa [order] using inv.fifo⟩
    intro v vmember w edge
    have member : w ∈ order vertices succ := perm.mem_iff.mpr (finite.inside v vmember w edge)
    simpa [order] using inv.sorted w (by simpa [order] using member) v vmember edge
  next => contradiction

/-- A graph that a rank orders is sorted: a vertex of least rank among those left out
would have joined the queue. -/
theorem topSort_of_rank (finite : Finite vertices succ) (rank : α → Nat)
    (increasing : ∀ v ∈ vertices, ∀ w ∈ succ v, rank v < rank w) :
    ∃ out, topSort vertices succ = some out := by
  obtain ⟨rest,inv,stop⟩ := loop_invariant finite vertices.length _ _ (invariant_initial finite)
  refine ⟨order vertices succ,?_⟩
  have length : (order vertices succ).length = vertices.length := by
    rcases stop with rfl | full
    · have all : ∀ bound, ∀ w ∈ vertices, rank w < bound → w ∈ order vertices succ := by
        intro bound
        induction bound with
        | zero => intro w _ small; omega
        | succ bound ih =>
          intro w member small
          have joined : w ∈ order vertices succ ++ [] := by
            refine (inv.joined w).mpr ⟨member,fun v vmember edge => ?_⟩
            have less := increasing v vmember w edge
            exact ih v vmember (by omega)
          simpa using joined
      have nodup := (List.nodup_append.mp inv.nodup).1
      have perm : (order vertices succ).Perm vertices := by
        refine (List.perm_ext_iff_of_nodup nodup finite.nodup).mpr fun w => ⟨?_,?_⟩
        · exact fun member => inv.subset (by simpa [order] using member)
        · exact fun member => all (rank w + 1) w member (by omega)
      exact perm.length_eq
    · simpa [order] using full
  simp [topSort,length]

/-- Conversely the position in the output is a rank. -/
theorem Sorted.rank (sorted : Sorted vertices succ out) (finite : Finite vertices succ) :
    ∃ rank : α → Nat, ∀ v ∈ vertices, ∀ w ∈ succ v, rank v < rank w := by
  refine ⟨fun v => out.idxOf v,fun v vmember w edge => ?_⟩
  obtain ⟨before,after,split,memv,memw⟩ := List.cons_sublist_iff.mp (sorted.edges v vmember w edge)
  have nodup := sorted.nodup finite
  subst split
  have wlate : w ∈ after := List.singleton_sublist.mp memw
  have wnot : w ∉ before := fun early =>
    (List.nodup_append.mp nodup).2.2 w early w wlate rfl
  simp only [List.idxOf_append_of_mem memv,List.idxOf_append_of_notMem wnot]
  have := List.idxOf_lt_length_iff.mpr memv
  omega

end Result

end Kahn
