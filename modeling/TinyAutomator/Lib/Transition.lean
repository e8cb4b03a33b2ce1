import Mathlib.Logic.Basic

/-! Labelled transition systems with a partial step function. A guard restricts
which labels a run may take in which state; every rule below is relative to one. -/
namespace Transition

structure System (σ α : Type) where
  init : σ
  step : α → σ → Option σ

/-- A guard says whether a label may be taken in a state. -/
abbrev Guard (σ α : Type) := σ → α → Prop

variable {σ α : Type}

inductive Path (sys : System σ α) (ok : Guard σ α) : σ → σ → Prop where
  | refl {s : σ} : Path sys ok s s
  | tail {s t u : σ} {a : α} : Path sys ok s t → ok t a → sys.step a t = some u → Path sys ok s u

def Reach (sys : System σ α) (ok : Guard σ α) (s : σ) : Prop := Path sys ok sys.init s

variable {sys : System σ α} {ok ok' : Guard σ α} {s t u : σ}

theorem Path.single {a : α} (allowed : ok s a) (step : sys.step a s = some t) :
    Path sys ok s t :=
  .tail .refl allowed step

theorem Path.trans (first : Path sys ok s t) (second : Path sys ok t u) : Path sys ok s u := by
  induction second with
  | refl => exact first
  | tail _ allowed step ih => exact .tail ih allowed step

theorem Path.mono (path : Path sys ok s t) (weaker : ∀ s a, ok s a → ok' s a) :
    Path sys ok' s t := by
  induction path with
  | refl => exact .refl
  | tail _ allowed step ih => exact .tail ih (weaker _ _ allowed) step

theorem Reach.mono (reach : Reach sys ok s) (weaker : ∀ s a, ok s a → ok' s a) :
    Reach sys ok' s :=
  Path.mono reach weaker

theorem Reach.append (reach : Reach sys ok s) (path : Path sys ok s t) : Reach sys ok t :=
  Path.trans reach path

/-- The induction rule for invariants; a step may use that its source is reachable. -/
theorem Reach.invariant (inv : σ → Prop) (initial : inv sys.init)
    (preserved : ∀ s a t, Reach sys ok s → inv s → ok s a → sys.step a s = some t → inv t)
    (reach : Reach sys ok s) : inv s := by
  induction reach with
  | refl => exact initial
  | tail path allowed step ih => exact preserved _ _ _ path ih allowed step

/-- The same from any state on. -/
theorem Path.invariant (inv : σ → Prop) (begins : inv s)
    (preserved : ∀ s a t, inv s → ok s a → sys.step a s = some t → inv t) (path : Path sys ok s t) :
    inv t := by
  induction path with
  | refl => exact begins
  | tail _ allowed step ih => exact preserved _ _ _ ih allowed step

/-- What one step preserves, a whole path from a reachable state preserves. -/
theorem Path.preserves (rel : σ → σ → Prop) (reflexive : ∀ s, rel s s)
    (transitive : ∀ s t u, rel s t → rel t u → rel s u)
    (preserved : ∀ s a t, Reach sys ok s → ok s a → sys.step a s = some t → rel s t)
    (reach : Reach sys ok s) (path : Path sys ok s t) : rel s t := by
  induction path with
  | refl => exact reflexive _
  | tail path allowed step ih =>
    exact transitive _ _ _ ih (preserved _ _ _ (reach.append path) allowed step)

/-- A run of a system is, seen through `f`, a run of the system that simulates it. -/
theorem Reach.image {τ β : Type} {sys' : System τ β} {ok' : Guard τ β} (f : σ → τ)
    (initial : f sys.init = sys'.init)
    (simulated : ∀ s a t, ok s a → sys.step a s = some t →
      ∃ b, ok' (f s) b ∧ sys'.step b (f s) = some (f t))
    (reach : Reach sys ok s) : Reach sys' ok' (f s) := by
  induction reach with
  | refl => exact initial ▸ .refl
  | tail _ allowed step ih =>
    obtain ⟨b,permitted,follows⟩ := simulated _ _ _ allowed step
    exact .tail ih permitted follows

/-- Forward simulation: when every step is matched by a path, so is every run. -/
theorem Reach.simulated {τ β : Type} {sys' : System τ β} {ok' : Guard τ β} (rel : σ → τ → Prop)
    (initial : rel sys.init sys'.init)
    (matched : ∀ s a t u, Reach sys' ok' u → rel s u → ok s a → sys.step a s = some t →
      ∃ v, Path sys' ok' u v ∧ rel t v)
    (reach : Reach sys ok s) : ∃ u, Reach sys' ok' u ∧ rel s u := by
  induction reach with
  | refl => exact ⟨_,.refl,initial⟩
  | tail _ allowed step ih =>
    obtain ⟨u,reached,related⟩ := ih
    obtain ⟨v,path,related⟩ := matched _ _ _ u reached related allowed step
    exact ⟨v,Path.trans reached path,related⟩

/-- A list of labels taken one after another, each checked against the guard. -/
def follow (sys : System σ α) (ok : Guard σ α) [∀ s a, Decidable (ok s a)] :
    List α → σ → Option σ
  | [], s => some s
  | a :: rest, s =>
    if ok s a then
      match sys.step a s with
      | some t => follow sys ok rest t
      | none => none
    else none

theorem follow_cons [∀ s a, Decidable (ok s a)] {a : α} {rest : List α}
    (followed : follow sys ok (a :: rest) s = some t) :
    ok s a ∧ ∃ u, sys.step a s = some u ∧ follow sys ok rest u = some t := by
  simp only [follow] at followed
  split at followed
  next allowed =>
    split at followed
    next u step => exact ⟨allowed,u,step,followed⟩
    next => contradiction
  next => contradiction

/-- What all labels of the list meet is part of the guard. -/
theorem follow_path_all [∀ s a, Decidable (ok s a)] {labels : List α} {may : α → Prop}
    (all : ∀ a ∈ labels, may a) (followed : follow sys ok labels s = some t) :
    Path sys (fun s a => may a ∧ ok s a) s t := by
  induction labels generalizing s with
  | nil => cases followed; exact .refl
  | cons a rest ih =>
    obtain ⟨allowed,u,step,followed⟩ := follow_cons followed
    have tail := ih (fun b member => all b (List.mem_cons_of_mem _ member)) followed
    exact (Path.single ⟨all a List.mem_cons_self,allowed⟩ step).trans tail

theorem follow_path [∀ s a, Decidable (ok s a)] {labels : List α}
    (followed : follow sys ok labels s = some t) : Path sys ok s t :=
  (follow_path_all (fun _ _ => trivial) followed).mono fun _ _ allowed => allowed.2

theorem follow_reach [∀ s a, Decidable (ok s a)] {labels : List α}
    (followed : follow sys ok labels sys.init = some s) : Reach sys ok s :=
  follow_path followed

/-- A decidable property of the state that a list of labels leads to. -/
theorem follow_exists [∀ s a, Decidable (ok s a)] (labels : List α) {p : σ → Prop} [DecidablePred p]
    (found : (follow sys ok labels sys.init).any (p ·) = true) : ∃ s, Reach sys ok s ∧ p s := by
  obtain ⟨s,followed,holds⟩ := (Option.any_eq_true _ _).mp found
  exact ⟨s,follow_reach followed,of_decide_eq_true holds⟩

/-- The same with a condition on the labels that need not be decidable. -/
theorem follow_exists_all [∀ s a, Decidable (ok s a)] (labels : List α) {may : α → Prop}
    (all : ∀ a ∈ labels, may a) {p : σ → Prop} [DecidablePred p]
    (found : (follow sys ok labels sys.init).any (p ·) = true) :
    ∃ s, Reach sys (fun s a => may a ∧ ok s a) s ∧ p s := by
  obtain ⟨s,followed,holds⟩ := (Option.any_eq_true _ _).mp found
  exact ⟨s,follow_path_all all followed,of_decide_eq_true holds⟩

/-- The same for a state and a later one. -/
theorem follow_path_exists [∀ s a, Decidable (ok s a)] (labels later : List α) {p : σ → σ → Prop}
    [∀ s, DecidablePred (p s)]
    (found : (follow sys ok labels sys.init).any
      (fun s => (follow sys ok later s).any (p s ·)) = true) :
    ∃ s t, Reach sys ok s ∧ Path sys ok s t ∧ p s t := by
  obtain ⟨s,followed,found⟩ := (Option.any_eq_true _ _).mp found
  obtain ⟨t,continued,holds⟩ := (Option.any_eq_true _ _).mp found
  exact ⟨s,t,follow_reach followed,follow_path continued,of_decide_eq_true holds⟩

/-- The same if another guard holds from the first state on. -/
theorem follow_phases_exist {ok' : Guard σ α} [∀ s a, Decidable (ok s a)] [∀ s a, Decidable (ok' s a)]
    (labels later : List α) {p : σ → σ → Prop} [∀ s, DecidablePred (p s)]
    (found : (follow sys ok labels sys.init).any
      (fun s => (follow sys ok' later s).any (p s ·)) = true) :
    ∃ s t, Reach sys ok s ∧ Path sys ok' s t ∧ p s t := by
  obtain ⟨s,followed,found⟩ := (Option.any_eq_true _ _).mp found
  obtain ⟨t,continued,holds⟩ := (Option.any_eq_true _ _).mp found
  exact ⟨s,t,follow_reach followed,follow_path continued,of_decide_eq_true holds⟩

end Transition
