import TinyAutomator.Graph
import Mathlib.Data.List.Forall2

/-! What acceptance means: the graph can be layered, roots at depth zero and every edge
one layer deep. Only the accepted direction needs that the sort is first-in first-out. -/
namespace TinyAutomator

/-- Roots are at depth zero and every edge goes down exactly one layer. -/
structure Layered (ids : List ID) (edges : List ValidateEdge) (depth : ID → Nat) : Prop where
  edge : ∀ e ∈ edges, depth e.targetNodeID = depth e.sourceNodeID + 1
  root : ∀ id ∈ ids, (∀ e ∈ edges, e.targetNodeID ≠ id) → depth id = 0

/-- The callback lets a child through unless both levels are set, both are positive and
the parent is not above it. -/
def Passes (parentLevel childLevel : Option Nat) : Prop :=
  ¬(0 < parentLevel.getD 0 ∧ 0 < childLevel.getD 0 ∧ childLevel.getD 0 ≤ parentLevel.getD 0)

theorem Levels.set_self (level : Levels) (id : ID) (value : Nat) :
    level.set id value id = some value := by simp [Levels.set]

theorem Levels.set_other (level : Levels) {id other : ID} (value : Nat) (h : other ≠ id) :
    level.set id value other = level other := by simp [Levels.set,h]

section Visit

variable {idOf : Nat → ID} {parent : ID} {children : List Nat} {level level' : Levels}

/-- A successful visit puts every neighbour one below the parent and nothing else. -/
theorem visitChildren_ok (apart : ∀ c ∈ children, idOf c ≠ parent)
    (visited : visitChildren idOf parent children level = .ok level') :
    (∀ id, level' id = if id ∈ children.map idOf then some ((level parent).getD 0 + 1) else level id) ∧
    (∀ c ∈ children, Passes (level parent) (level (idOf c)) ∨
      level (idOf c) = some ((level parent).getD 0 + 1)) := by
  induction children generalizing level with
  | nil => cases visited; simp
  | cons c rest ih =>
    have cne := apart c (by simp)
    simp only [visitChildren] at visited
    split at visited
    next => contradiction
    next passed =>
      have kept : level.set (idOf c) ((level parent).getD 0 + 1) parent = level parent :=
        Levels.set_other _ _ (Ne.symm cne)
      obtain ⟨final,each⟩ := ih (fun d member => apart d (List.mem_cons_of_mem _ member)) visited
      simp only [kept] at final each
      refine ⟨fun id => ?_,fun d member => ?_⟩
      · rw [final id]
        by_cases same : id = idOf c
        · subst same
          simp [Levels.set_self]
        · simp [Levels.set_other _ _ same,same]
      · rcases List.mem_cons.mp member with rfl | tail
        · refine .inl fun ⟨low,high,order⟩ => passed ?_
          cases hp : level parent <;> cases hc : level (idOf d) <;> simp_all
        · by_cases same : idOf d = idOf c
          · refine .inl fun ⟨low,high,order⟩ => passed ?_
            rw [← same]
            cases hp : level parent <;> cases hc : level (idOf d) <;> simp_all
          · simpa [Levels.set_other _ _ same] using each d tail

theorem visitChildren_succeeds (apart : ∀ c ∈ children, idOf c ≠ parent)
    (fits : ∀ c ∈ children, level (idOf c) = none ∨
      level (idOf c) = some ((level parent).getD 0 + 1)) :
    ∃ level', visitChildren idOf parent children level = .ok level' := by
  induction children generalizing level with
  | nil => exact ⟨level,rfl⟩
  | cons c rest ih =>
    have cne := apart c (by simp)
    have kept : level.set (idOf c) ((level parent).getD 0 + 1) parent = level parent :=
      Levels.set_other _ _ (Ne.symm cne)
    have later : ∀ d ∈ rest, level.set (idOf c) ((level parent).getD 0 + 1) (idOf d) = none ∨
        level.set (idOf c) ((level parent).getD 0 + 1) (idOf d) =
          some ((level.set (idOf c) ((level parent).getD 0 + 1) parent).getD 0 + 1) := by
      intro d member
      rw [kept]
      by_cases same : idOf d = idOf c
      · rw [same,Levels.set_self]; exact .inr rfl
      · rw [Levels.set_other _ _ same]; exact fits d (List.mem_cons_of_mem _ member)
    obtain ⟨level',visited⟩ := ih (fun d member => apart d (List.mem_cons_of_mem _ member)) later
    refine ⟨level',?_⟩
    rw [visitChildren,if_neg,visited]
    rcases fits c (by simp) with unset | deeper
    · simp [unset]
    · simp [deeper]

end Visit

section Pass

variable {n : Nat} {succ visit : Nat → List Nat} {idOf : Nat → ID} {out : List Nat}

/-- What the pass relies on: distinct ids, sorted indices, neighbours visited once each. -/
structure PassInput (n : Nat) (succ visit : Nat → List Nat) (idOf : Nat → ID) (out : List Nat) :
    Prop where
  injective : ∀ v < n, ∀ w < n, idOf v = idOf w → v = w
  finite : Kahn.Finite (List.range n) succ
  sorted : Kahn.Sorted (List.range n) succ out
  visits : ∀ v w, w ∈ visit v ↔ w ∈ succ v

/-- After the indices `done` the levels are final there, and an index below one of
them is one deeper than each of its predecessors in `done`. -/
structure PassInvariant (n : Nat) (succ : Nat → List Nat) (idOf : Nat → ID) (done : List Nat)
    (level : Levels) : Prop where
  below : ∀ p ∈ done, ∀ w ∈ succ p, level (idOf w) = some ((level (idOf p)).getD 0 + 1)
  unreached : ∀ w < n, (∀ p ∈ done, w ∉ succ p) → level (idOf w) = if w ∈ done then some 0 else none
  rising : done.Pairwise fun x y => (level (idOf x)).getD 0 ≤ (level (idOf y)).getD 0

theorem PassInput.succ_lt (input : PassInput n succ visit idOf out) {v w : Nat} (hv : v < n)
    (edge : w ∈ succ v) : w < n :=
  List.mem_range.mp (input.finite.inside v (List.mem_range.mpr hv) w edge)

/-- The level at which an index is visited: zero for a root, otherwise what its
predecessors gave it. -/
def PassInvariant.entry (level : Levels) (id : ID) : Levels :=
  if (level id).isNone then level.set id 0 else level

theorem entry_self (level : Levels) (id : ID) :
    ((PassInvariant.entry level id) id).getD 0 = (level id).getD 0 := by
  unfold PassInvariant.entry
  cases h : level id <;> simp [h,Levels.set_self]

theorem entry_other (level : Levels) {id other : ID} (h : other ≠ id) :
    PassInvariant.entry level id other = level other := by
  unfold PassInvariant.entry
  split
  · exact Levels.set_other _ _ h
  · rfl


section Next

variable {done rest : List Nat} {u : Nat} {level level' : Levels}
  (input : PassInput n succ visit idOf (done ++ u :: rest))

include input

theorem PassInput.index_lt {v : Nat} (member : v ∈ done ++ u :: rest) : v < n :=
  List.mem_range.mp (input.sorted.perm.mem_iff.mp member)

theorem PassInput.fresh : u ∉ done := fun early =>
  (List.nodup_append.mp (input.sorted.nodup input.finite)).2.2 u early u (by simp) rfl

theorem PassInput.pred_done {x p : Nat} (hx : x ∈ done ∨ x = u) (hp : p < n) (edge : x ∈ succ p) :
    p ∈ done := by
  rcases hx with inside | rfl
  · exact input.sorted.before_mem input.finite inside (List.mem_range.mpr hp) edge
  · exact input.sorted.before input.finite (List.mem_range.mpr hp) edge

/-- The neighbours of the next index were not visited yet. -/
theorem PassInput.child_late {c x : Nat} (edge : c ∈ succ u) (hx : x ∈ done ∨ x = u) :
    idOf c ≠ idOf x := by
  have hu : u < n := input.index_lt (by simp)
  have hxn : x < n := input.index_lt (by rcases hx with h | h <;> simp [h])
  intro same
  have eq := input.injective c (input.succ_lt hu edge) x hxn same
  subst eq
  exact input.fresh (input.pred_done hx hu edge)

/-- First-in first-out: the next index is not above any index visited so far. -/
theorem PassInvariant.highest (inv : PassInvariant n succ idOf done level) :
    ∀ x ∈ done, (level (idOf x)).getD 0 ≤ (level (idOf u)).getD 0 := by
  intro x inside
  have hx : x < n := input.index_lt (by simp [inside])
  by_cases rootless : ∃ p, p < n ∧ x ∈ succ p
  · obtain ⟨p,hp,edge⟩ := rootless
    have fifo := (List.pairwise_append.mp input.sorted.fifo).2.2 x inside u (by simp)
    obtain ⟨q,hq,qedge,place⟩ := fifo p (List.mem_range.mpr hp) edge
    have pdone := input.pred_done (.inl inside) hp edge
    have qdone := input.pred_done (.inr rfl) (List.mem_range.mp hq) qedge
    have ordered : (level (idOf p)).getD 0 ≤ (level (idOf q)).getD 0 := by
      rcases place with rfl | pair
      · exact Nat.le_refl _
      · exact List.pairwise_iff_forall_sublist.mp inv.rising
          (Kahn.pair_left (input.sorted.nodup input.finite) pair qdone)
    rw [inv.below p pdone x edge,inv.below q qdone u qedge]
    simpa using ordered
  · have zero := inv.unreached x hx fun p member edge =>
      rootless ⟨p,input.index_lt (by simp [member]),edge⟩
    simp [zero,inside]

theorem PassInvariant.next (inv : PassInvariant n succ idOf done level)
    (visited : visitChildren idOf (idOf u) (visit u) (PassInvariant.entry level (idOf u)) = .ok level') :
    PassInvariant n succ idOf (done ++ [u]) level' := by
  have hu : u < n := input.index_lt (by simp)
  have late : ∀ c ∈ visit u, ∀ x, x ∈ done ∨ x = u → idOf c ≠ idOf x := fun c member x hx =>
    input.child_late ((input.visits u c).mp member) hx
  obtain ⟨final,each⟩ := visitChildren_ok (fun c member => late c member u (.inr rfl)) visited
  simp only [entry_self] at final each
  have highest := inv.highest input
  have old : ∀ x, x ∈ done ∨ x = u → level' (idOf x) = PassInvariant.entry level (idOf u) (idOf x) := by
    intro x hx
    rw [final,if_neg]
    rintro member
    obtain ⟨c,cmember,same⟩ := List.mem_map.mp member
    exact late c cmember x hx same
  have value : ∀ x, x ∈ done ∨ x = u → (level' (idOf x)).getD 0 = (level (idOf x)).getD 0 := by
    intro x hx
    rw [old x hx]
    by_cases same : idOf x = idOf u
    · rw [same,entry_self]
    · rw [entry_other _ same]
  have child : ∀ w ∈ succ u, level' (idOf w) = some ((level (idOf u)).getD 0 + 1) := by
    intro w edge
    rw [final,if_pos (List.mem_map_of_mem ((input.visits u w).mpr edge))]
  have other : ∀ w, w < n → w ∉ succ u →
      level' (idOf w) = PassInvariant.entry level (idOf u) (idOf w) := by
    intro w hw none
    rw [final,if_neg]
    intro member
    obtain ⟨c,cmember,same⟩ := List.mem_map.mp member
    have edge := (input.visits u c).mp cmember
    exact none (input.injective c (input.succ_lt hu edge) w hw same ▸ edge)
  refine ⟨?_,?_,?_⟩
  · intro p member w edge
    rcases List.mem_append.mp member with inside | last
    · have hp : p < n := input.index_lt (by simp [inside])
      have before := inv.below p inside w edge
      rw [value p (.inl inside)]
      by_cases both : w ∈ succ u
      · -- two predecessors: the check forces their levels to agree
        rw [child w both]
        have wother : idOf w ≠ idOf u := input.child_late both (.inr rfl)
        have checked := each w ((input.visits u w).mpr both)
        rw [entry_other _ wother,before] at checked
        have bound := highest p inside
        rcases checked with passed | same
        · simp only [Passes,entry_self,Option.getD_some] at passed
          congr 1
          omega
        · exact same.symm
      · rw [other w (input.succ_lt hp edge) both]
        by_cases same : idOf w = idOf u
        · rw [same] at before ⊢
          simp [PassInvariant.entry,before]
        · rw [entry_other _ same,before]
    · rw [List.mem_singleton.mp last] at edge ⊢
      rw [child w edge,value u (.inr rfl)]
  · intro w hw none
    have apart : w ∉ succ u := none u (by simp)
    have unreached := inv.unreached w hw fun p member => none p (by simp [member])
    rw [other w hw apart]
    by_cases same : w = u
    · subst same
      simp only [if_neg input.fresh] at unreached
      simp [PassInvariant.entry,unreached,Levels.set_self]
    · have different : idOf w ≠ idOf u := fun h => same (input.injective w hw u hu h)
      rw [entry_other _ different,unreached]
      simp [same]
  · rw [List.pairwise_append]
    refine ⟨?_,by simp,?_⟩
    · refine List.Pairwise.imp_of_mem (fun {x y} hx hy less => ?_) inv.rising
      rw [value x (.inl hx),value y (.inl hy)]
      exact less
    · intro x hx y hy
      rw [List.mem_singleton.mp hy,value x (.inl hx),value u (.inr rfl)]
      exact highest x hx

end Next

theorem PassInvariant.start : PassInvariant n succ idOf [] (fun _ => none) :=
  ⟨by simp,by simp,by simp⟩

/-- The whole pass: when it succeeds the levels layer the graph. -/
theorem checkLevels_sound (rest done : List Nat) (level final : Levels)
    (input : PassInput n succ visit idOf (done ++ rest))
    (inv : PassInvariant n succ idOf done level)
    (checked : checkLevels idOf visit rest level = .ok final) :
    PassInvariant n succ idOf (done ++ rest) final := by
  induction rest generalizing done level with
  | nil =>
    cases checked
    simpa using inv
  | cons u rest ih =>
    simp only [checkLevels] at checked
    split at checked
    next level' visited =>
      have next := inv.next input visited
      have shape : done ++ u :: rest = (done ++ [u]) ++ rest := by simp
      rw [shape] at input ⊢
      exact ih (done ++ [u]) level' input next checked
    next => contradiction

/-- Levels that agree with a given depth, with every index below a visited one set. -/
structure Agrees (n : Nat) (succ : Nat → List Nat) (idOf : Nat → ID) (depth : Nat → Nat)
    (done : List Nat) (level : Levels) : Prop where
  known : ∀ v < n, level (idOf v) = none ∨ level (idOf v) = some (depth v)
  below : ∀ p ∈ done, ∀ w ∈ succ p, level (idOf w) = some (depth w)

theorem checkLevels_complete (depth : Nat → Nat)
    (edge : ∀ v < n, ∀ w ∈ succ v, depth w = depth v + 1)
    (root : ∀ v < n, (∀ p < n, v ∉ succ p) → depth v = 0)
    (rest done : List Nat) (level : Levels)
    (input : PassInput n succ visit idOf (done ++ rest))
    (agrees : Agrees n succ idOf depth done level) :
    ∃ final, checkLevels idOf visit rest level = .ok final := by
  induction rest generalizing done level with
  | nil => exact ⟨level,rfl⟩
  | cons u rest ih =>
    have hu : u < n := input.index_lt (by simp)
    have entry : PassInvariant.entry level (idOf u) (idOf u) = some (depth u) := by
      by_cases reached : ∃ p, p < n ∧ u ∈ succ p
      · obtain ⟨p,hp,into⟩ := reached
        have set := agrees.below p (input.pred_done (.inr rfl) hp into) u into
        simp [PassInvariant.entry,set]
      · have zero := root u hu fun p hp into => reached ⟨p,hp,into⟩
        rcases agrees.known u hu with unset | set
        · simp [PassInvariant.entry,unset,Levels.set_self,zero]
        · simp [PassInvariant.entry,set]
    have late : ∀ c ∈ visit u, idOf c ≠ idOf u := fun c member =>
      input.child_late ((input.visits u c).mp member) (.inr rfl)
    have fits : ∀ c ∈ visit u, PassInvariant.entry level (idOf u) (idOf c) = none ∨
        PassInvariant.entry level (idOf u) (idOf c) =
          some ((PassInvariant.entry level (idOf u) (idOf u)).getD 0 + 1) := by
      intro c member
      have into := (input.visits u c).mp member
      rw [entry_other _ (late c member),entry,Option.getD_some,← edge u hu c into]
      exact agrees.known c (input.succ_lt hu into)
    obtain ⟨level',visited⟩ := visitChildren_succeeds late fits
    obtain ⟨final,_⟩ := visitChildren_ok late visited
    simp only [entry,Option.getD_some] at final
    have inside : ∀ w, w < n → idOf w ∈ (visit u).map idOf → w ∈ succ u := by
      intro w hw member
      obtain ⟨c,cmember,same⟩ := List.mem_map.mp member
      have into := (input.visits u c).mp cmember
      exact input.injective c (input.succ_lt hu into) w hw same ▸ into
    have next : Agrees n succ idOf depth (done ++ [u]) level' := by
      refine ⟨fun v hv => ?_,fun p member w into => ?_⟩
      · rw [final]
        split
        next child => exact .inr (by rw [edge u hu v (inside v hv child)])
        next =>
          by_cases same : v = u
          · subst same; exact .inr entry
          · rw [entry_other _ fun h => same (input.injective v hv u hu h)]
            exact agrees.known v hv
      · rw [final]
        split
        next child =>
          have hp : p < n := input.index_lt (by
            rcases List.mem_append.mp member with h | h
            · simp [h]
            · simp [List.mem_singleton.mp h])
          rw [edge u hu w (inside w (input.succ_lt hp into) child)]
        next apart =>
          rcases List.mem_append.mp member with old | last
          · have set := agrees.below p old w into
            by_cases same : idOf w = idOf u
            · rw [same] at set ⊢
              simp [PassInvariant.entry,set]
            · rw [entry_other _ same]; exact set
          · rw [List.mem_singleton.mp last] at into
            exact absurd (List.mem_map_of_mem ((input.visits u w).mpr into)) apart
    have shape : done ++ u :: rest = (done ++ [u]) ++ rest := by simp
    rw [shape] at input
    obtain ⟨last,checked⟩ := ih (done ++ [u]) level' input next
    refine ⟨last,?_⟩
    have visited' : visitChildren idOf (idOf u) (visit u)
        (if (level (idOf u)).isNone then level.set (idOf u) 0 else level) = .ok level' := visited
    simp only [checkLevels,visited',checked]

end Pass

section Indices

variable {nodes : List ValidateNode} {edges : List ValidateEdge} {pairs : List (Nat × Nat)}

theorem idToIdx_none {k : Nat} {id : ID} : idToIdx nodes k id = none ↔ id ∉ nodes.map (·.id) := by
  induction nodes generalizing k with
  | nil => simp [idToIdx]
  | cons node rest ih =>
    simp only [idToIdx,Option.or_eq_none_iff,ih,List.map_cons,List.mem_cons,not_or]
    by_cases same : node.id = id
    · simp [same]
    · simp [same,Ne.symm same]

theorem idToIdx_get {k i : Nat} {id : ID} (found : idToIdx nodes k id = some i) :
    k ≤ i ∧ nodes[i - k]?.map ValidateNode.id = some id := by
  induction nodes generalizing k with
  | nil => simp [idToIdx] at found
  | cons node rest ih =>
    simp only [idToIdx,Option.or_eq_some_iff] at found
    rcases found with later | ⟨_,here⟩
    · obtain ⟨bound,get⟩ := ih later
      refine ⟨by omega,?_⟩
      rw [show i - k = (i - (k + 1)) + 1 by omega]
      simpa using get
    · split at here
      next same => cases here; simp [same]
      next => contradiction

theorem idOfIdx_of_get {i : Nat} {id : ID} (get : nodes[i]?.map ValidateNode.id = some id) :
    i < nodes.length ∧ idOfIdx nodes i = id := by
  simp only [idOfIdx,get,Option.getD_some,and_true]
  cases h : nodes[i]? with
  | none => simp [h] at get
  | some node => exact (List.getElem?_eq_some_iff.mp h).1

theorem idOfIdx_mem {i : Nat} (hi : i < nodes.length) : idOfIdx nodes i ∈ nodes.map (·.id) := by
  simp only [idOfIdx,List.getElem?_eq_getElem hi,Option.map_some,Option.getD_some]
  exact List.mem_map_of_mem (List.getElem_mem hi)

theorem idOfIdx_injective (distinct : (nodes.map (·.id)).Nodup) :
    ∀ v < nodes.length, ∀ w < nodes.length, idOfIdx nodes v = idOfIdx nodes w → v = w := by
  intro v hv w hw same
  simp only [idOfIdx,List.getElem?_eq_getElem hv,List.getElem?_eq_getElem hw,Option.map_some,
    Option.getD_some] at same
  have inj := List.nodup_iff_injective_get.mp distinct
  have h := @inj ⟨v,by simpa using hv⟩ ⟨w,by simpa using hw⟩ (by simpa using same)
  exact congrArg Fin.val h

theorem edgeIdx_ok {edge : ValidateEdge} {pair : Nat × Nat} (ok : edgeIdx nodes edge = .ok pair) :
    (pair.1 < nodes.length ∧ idOfIdx nodes pair.1 = edge.sourceNodeID) ∧
    (pair.2 < nodes.length ∧ idOfIdx nodes pair.2 = edge.targetNodeID) := by
  simp only [edgeIdx] at ok
  split at ok
  next fromIdx toIdx src dst =>
    cases ok
    exact ⟨idOfIdx_of_get (idToIdx_get src).2,idOfIdx_of_get (idToIdx_get dst).2⟩
  next => contradiction

theorem edgeIdx_succeeds {edge : ValidateEdge} (src : edge.sourceNodeID ∈ nodes.map (·.id))
    (dst : edge.targetNodeID ∈ nodes.map (·.id)) : ∃ pair, edgeIdx nodes edge = .ok pair := by
  cases hs : idToIdx nodes 0 edge.sourceNodeID with
  | none => exact absurd src (idToIdx_none.mp hs)
  | some fromIdx =>
    cases hd : idToIdx nodes 0 edge.targetNodeID with
    | none => exact absurd dst (idToIdx_none.mp hd)
    | some toIdx => exact ⟨(fromIdx,toIdx),by simp [edgeIdx,hs,hd]⟩

theorem mapM_ok {α β : Type} {f : α → Except String β} {xs : List α} {ys : List β}
    (ok : xs.mapM f = .ok ys) : List.Forall₂ (fun x y => f x = .ok y) xs ys := by
  induction xs generalizing ys with
  | nil => cases ok; exact .nil
  | cons x xs ih =>
    rw [List.mapM_cons] at ok
    cases hx : f x with
    | error err => simp [hx,bind,Except.bind] at ok
    | ok y =>
      cases hxs : xs.mapM f with
      | error err => simp [hx,hxs,bind,Except.bind] at ok
      | ok tail =>
        simp [hx,hxs,bind,Except.bind,pure,Except.pure] at ok
        subst ok
        exact .cons hx (ih hxs)

theorem mapM_succeeds {α β : Type} {f : α → Except String β} {xs : List α}
    (each : ∀ x ∈ xs, ∃ y, f x = .ok y) : ∃ ys, xs.mapM f = .ok ys := by
  induction xs with
  | nil => exact ⟨[],rfl⟩
  | cons x xs ih =>
    obtain ⟨y,hy⟩ := each x (by simp)
    obtain ⟨ys,hys⟩ := ih fun z member => each z (List.mem_cons_of_mem _ member)
    exact ⟨y :: ys,by simp [List.mapM_cons,hy,hys,bind,Except.bind,pure,Except.pure]⟩

theorem mem_neighbours {v w : Nat} : w ∈ neighbours pairs v ↔ (v,w) ∈ pairs := by
  simp only [neighbours,List.mem_dedup,List.mem_map,List.mem_filter,decide_eq_true_eq]
  constructor
  · rintro ⟨⟨a,b⟩,⟨member,rfl⟩,rfl⟩
    exact member
  · intro member
    exact ⟨(v,w),⟨member,rfl⟩,rfl⟩

/-- The index pairs are the edges, read through the ids. -/
theorem pairs_edges (ok : edges.mapM (edgeIdx nodes) = .ok pairs) :
    (∀ v w, (v,w) ∈ pairs → ∃ e ∈ edges, idOfIdx nodes v = e.sourceNodeID ∧
      idOfIdx nodes w = e.targetNodeID ∧ v < nodes.length ∧ w < nodes.length) ∧
    (∀ e ∈ edges, ∃ v w, (v,w) ∈ pairs ∧ idOfIdx nodes v = e.sourceNodeID ∧
      idOfIdx nodes w = e.targetNodeID ∧ v < nodes.length ∧ w < nodes.length) := by
  have each := mapM_ok ok
  clear ok
  induction each with
  | nil => simp
  | cons head tail ih =>
    obtain ⟨⟨hv,src⟩,⟨hw,dst⟩⟩ := edgeIdx_ok head
    constructor
    · intro v w member
      rcases List.mem_cons.mp member with rfl | member
      · exact ⟨_,by simp,src,dst,hv,hw⟩
      · obtain ⟨e,emember,rest⟩ := ih.1 v w member
        exact ⟨e,List.mem_cons_of_mem _ emember,rest⟩
    · intro e member
      rcases List.mem_cons.mp member with rfl | member
      · exact ⟨_,_,by simp,src,dst,hv,hw⟩
      · obtain ⟨v,w,pmember,rest⟩ := ih.2 e member
        exact ⟨v,w,List.mem_cons_of_mem _ pmember,rest⟩

theorem neighbours_finite (visits : MapOrder) (call : Nat → Nat)
    (ok : edges.mapM (edgeIdx nodes) = .ok pairs) :
    Kahn.Finite (List.range nodes.length) fun idx => visits.pick (call idx) (neighbours pairs idx) := by
  refine ⟨List.nodup_range,fun v _ w member => ?_,fun v _ => ?_⟩
  · have edge := mem_neighbours.mp ((visits.perm _ _).mem_iff.mp member)
    obtain ⟨_,_,_,_,_,hw⟩ := (pairs_edges ok).1 v w edge
    exact List.mem_range.mpr hw
  · exact (visits.perm _ _).nodup_iff.mpr (List.nodup_dedup _)

end Indices

section Accepted

variable {visits : MapOrder} {nodes : List ValidateNode} {edges : List ValidateEdge}

theorem picked {pairs : List (Nat × Nat)} {call v w : Nat} :
    w ∈ visits.pick call (neighbours pairs v) ↔ (v,w) ∈ pairs :=
  (visits.perm _ _).mem_iff.trans mem_neighbours

theorem accepted_layered (distinct : (nodes.map (·.id)).Nodup)
    (accepted : validateWorkflowGraph visits nodes edges = .ok ()) :
    (∀ node ∈ nodes, node.id ≠ ID.empty) ∧
    (∀ e ∈ edges, e.sourceNodeID ∈ nodes.map (·.id) ∧ e.targetNodeID ∈ nodes.map (·.id)) ∧
    ∃ depth, Layered (nodes.map (·.id)) edges depth := by
  simp only [validateWorkflowGraph] at accepted
  split at accepted
  next => contradiction
  next nonempty =>
    split at accepted
    next => contradiction
    next pairs indexed =>
      split at accepted
      next => contradiction
      next order sorts =>
        split at accepted
        next level checked =>
          have finite := neighbours_finite visits (2 * ·) indexed
          have sorted := Kahn.topSort_sorted finite sorts
          have input : PassInput nodes.length _
              (fun idx => visits.pick (2 * idx + 1) (neighbours pairs idx)) (idOfIdx nodes)
              ([] ++ order) :=
            ⟨idOfIdx_injective distinct,finite,sorted,fun v w => picked.trans picked.symm⟩
          have inv := checkLevels_sound order [] _ level input .start checked
          have all : ∀ v, v ∈ [] ++ order ↔ v < nodes.length := fun v => by
            rw [List.nil_append,sorted.perm.mem_iff,List.mem_range]
          obtain ⟨toEdge,ofEdge⟩ := pairs_edges indexed
          refine ⟨fun node member empty => nonempty ⟨node,member,empty⟩,?_,?_⟩
          · intro e member
            obtain ⟨v,w,_,src,dst,hv,hw⟩ := ofEdge e member
            exact ⟨src ▸ idOfIdx_mem hv,dst ▸ idOfIdx_mem hw⟩
          · refine ⟨fun id => (level id).getD 0,fun e member => ?_,fun id member isRoot => ?_⟩
            · obtain ⟨v,w,pair,src,dst,hv,_⟩ := ofEdge e member
              have below := inv.below v ((all v).mpr hv) w (picked.mpr pair)
              rw [← src,← dst,below,Option.getD_some]
            · obtain ⟨node,nmember,rfl⟩ := List.mem_map.mp member
              obtain ⟨i,hi,get⟩ := List.mem_iff_getElem.mp nmember
              have at_ : idOfIdx nodes i = node.id := by
                simp [idOfIdx,List.getElem?_eq_getElem hi,get]
              have zero := inv.unreached i hi fun p _ edge => by
                obtain ⟨e,emember,_,dst,_⟩ := toEdge p i (picked.mp edge)
                exact isRoot e emember (dst.symm.trans at_)
              rw [if_pos ((all i).mpr hi),at_] at zero
              simp [zero]
        next => contradiction

theorem layered_accepted (distinct : (nodes.map (·.id)).Nodup)
    (nonempty : ∀ node ∈ nodes, node.id ≠ ID.empty)
    (declared : ∀ e ∈ edges, e.sourceNodeID ∈ nodes.map (·.id) ∧ e.targetNodeID ∈ nodes.map (·.id))
    {depth : ID → Nat} (layered : Layered (nodes.map (·.id)) edges depth) :
    validateWorkflowGraph visits nodes edges = .ok () := by
  obtain ⟨pairs,indexed⟩ := mapM_succeeds fun e member =>
    edgeIdx_succeeds (declared e member).1 (declared e member).2
  obtain ⟨toEdge,ofEdge⟩ := pairs_edges indexed
  have finite := neighbours_finite visits (2 * ·) indexed
  have edge : ∀ v w, (v,w) ∈ pairs → depth (idOfIdx nodes w) = depth (idOfIdx nodes v) + 1 := by
    intro v w pair
    obtain ⟨e,member,src,dst,_⟩ := toEdge v w pair
    rw [src,dst,layered.edge e member]
  obtain ⟨order,sorts⟩ := Kahn.topSort_of_rank finite (fun v => depth (idOfIdx nodes v))
    (fun v _ w member => by have := edge v w (picked.mp member); omega)
  have sorted := Kahn.topSort_sorted finite sorts
  have input : PassInput nodes.length _ (fun idx => visits.pick (2 * idx + 1) (neighbours pairs idx))
      (idOfIdx nodes) ([] ++ order) :=
    ⟨idOfIdx_injective distinct,finite,sorted,fun v w => picked.trans picked.symm⟩
  obtain ⟨level,checked⟩ := checkLevels_complete (fun v => depth (idOfIdx nodes v))
    (fun v _ w member => edge v w (picked.mp member))
    (fun v hv isRoot => by
      refine layered.root _ (idOfIdx_mem hv) fun e member same => ?_
      obtain ⟨u,w,pair,_,dst,hu,hw⟩ := ofEdge e member
      have eq := idOfIdx_injective distinct w hw v hv (dst.trans same)
      exact isRoot u hu (picked.mpr (eq ▸ pair)))
    order [] (fun _ => none) input ⟨fun _ _ => .inl rfl,by simp⟩
  simp only [validateWorkflowGraph]
  rw [if_neg fun ⟨node,member,empty⟩ => nonempty node member empty]
  simp only [indexed,sorts,checked]

/-- The verdict does not depend on the order of visits, and it is a property of the
ids and the edges between them. -/
theorem validateWorkflowGraph_ok_iff (distinct : (nodes.map (·.id)).Nodup) :
    validateWorkflowGraph visits nodes edges = .ok () ↔
      (∀ node ∈ nodes, node.id ≠ ID.empty) ∧
      (∀ e ∈ edges, e.sourceNodeID ∈ nodes.map (·.id) ∧ e.targetNodeID ∈ nodes.map (·.id)) ∧
      ∃ depth, Layered (nodes.map (·.id)) edges depth :=
  ⟨accepted_layered distinct,fun ⟨nonempty,declared,_,layered⟩ =>
    layered_accepted distinct nonempty declared layered⟩

end Accepted

end TinyAutomator
