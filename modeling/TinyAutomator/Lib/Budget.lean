import TinyAutomator.Lib.Transition
import Mathlib.Data.Nat.Init

/-! Runs that are paid for. A measure of the state pays one unit for each step that counts,
and some labels bring in new credit, so the steps that count are bounded by the credit. -/
namespace Transition

variable {σ α : Type} {sys : System σ α} {ok ok' : Guard σ α} {s t u : σ}

/-- A path together with the labels that were taken on it. -/
inductive Trace (sys : System σ α) (ok : Guard σ α) (s : σ) : List α → σ → Prop where
  | refl : Trace sys ok s [] s
  | tail {t u : σ} {a : α} {labels : List α} : Trace sys ok s labels t → ok t a →
      sys.step a t = some u → Trace sys ok s (labels ++ [a]) u

theorem Trace.path {labels : List α} (trace : Trace sys ok s labels t) : Path sys ok s t := by
  induction trace with
  | refl => exact .refl
  | tail _ allowed step ih => exact .tail ih allowed step

theorem Trace.cons {a : α} {labels : List α} (allowed : ok s a) (step : sys.step a s = some t)
    (trace : Trace sys ok t labels u) : Trace sys ok s (a :: labels) u := by
  induction trace with
  | refl =>
    show Trace sys ok s ([] ++ [a]) t
    exact .tail .refl allowed step
  | @tail _ _ b labels _ later goes ih =>
    show Trace sys ok s ((a :: labels) ++ [b]) _
    exact .tail ih later goes

theorem follow_trace [∀ s a, Decidable (ok s a)] {labels : List α}
    (followed : follow sys ok labels s = some t) : Trace sys ok s labels t := by
  induction labels generalizing s with
  | nil => cases followed; exact .refl
  | cons a rest ih =>
    obtain ⟨allowed,u,step,followed⟩ := follow_cons followed
    exact .cons allowed step (ih followed)

/-- What a measure of the state pays for: a step that counts costs one unit, and a label that
brings in credit adds at most `credit` units. -/
structure Pays (sys : System σ α) (ok : Guard σ α) (counts brings : α → Bool) (measure : σ → Nat)
    (credit : Nat) : Prop where
  step : ∀ s a t, ok s a → sys.step a s = some t →
    measure t + (if counts a then 1 else 0) ≤ measure s + if brings a then credit else 0

variable {counts brings : α → Bool} {measure : σ → Nat} {credit : Nat}

/-- All the steps that count are paid for by the first state and by the credit brought in. -/
theorem Pays.trace (pays : Pays sys ok counts brings measure credit) {labels : List α}
    (trace : Trace sys ok s labels t) :
    measure t + labels.countP counts ≤ measure s + credit * labels.countP brings := by
  induction trace with
  | refl => simp
  | tail _ allowed step ih =>
    have paid := pays.step _ _ _ allowed step
    rw [List.countP_append,List.countP_append,List.countP_singleton,List.countP_singleton,Nat.mul_add]
    split at paid <;> split at paid <;> simp_all <;> omega

/-- A run that never ends, with moments at which nothing happens. -/
structure Execution (sys : System σ α) (ok : Guard σ α) where
  state : Nat → σ
  label : Nat → Option α
  start : state 0 = sys.init
  moves : ∀ i a, label i = some a → ok (state i) a ∧ sys.step a (state i) = some (state (i + 1))
  rests : ∀ i, label i = none → state (i + 1) = state i

/-- The steps that a run is expected to take while it can. -/
def CanMove (sys : System σ α) (ok : Guard σ α) (counts : α → Bool) (s : σ) : Prop :=
  ∃ a t, counts a = true ∧ ok s a ∧ sys.step a s = some t

/-- While a step that counts can be taken, one is taken sooner or later. -/
def Execution.Fair (run : Execution sys ok) (counts : α → Bool) : Prop :=
  ∀ i, CanMove sys ok counts (run.state i) → ∃ j, i ≤ j ∧ ∃ a, run.label j = some a ∧ counts a = true

theorem Execution.reach (run : Execution sys ok) (i : Nat) : Reach sys ok (run.state i) := by
  induction i with
  | zero => exact run.start ▸ .refl
  | succ i ih =>
    cases label : run.label i with
    | none => exact run.rests i label ▸ ih
    | some a =>
      obtain ⟨allowed,step⟩ := run.moves i a label
      exact .tail ih allowed step

/-- Without new credit the measure pays for every step of the run. -/
theorem Execution.spends (run : Execution sys ok) (pays : Pays sys ok counts (fun _ => false) measure credit)
    (i : Nat) : measure (run.state (i + 1)) + (if (run.label i).any counts then 1 else 0) ≤
      measure (run.state i) := by
  cases label : run.label i with
  | none => simp [run.rests i label]
  | some a =>
    obtain ⟨allowed,step⟩ := run.moves i a label
    simpa using pays.step _ _ _ allowed step

theorem Execution.antitone (run : Execution sys ok)
    (pays : Pays sys ok counts (fun _ => false) measure credit) {i j : Nat} (later : i ≤ j) :
    measure (run.state j) ≤ measure (run.state i) := by
  induction later with
  | refl => exact Nat.le_refl _
  | @step j _ ih =>
    have spent := run.spends pays j
    show measure (run.state (j + 1)) ≤ _
    omega

/-- A fair run that lives on its first credit comes to a point from which on no step that
counts can be taken. -/
theorem Execution.settles (run : Execution sys ok)
    (pays : Pays sys ok counts (fun _ => false) measure credit) (fair : run.Fair counts) :
    ∃ i, ∀ j, i ≤ j → ¬CanMove sys ok counts (run.state j) := by
  -- the least value of the measure is reached, and no step that counts is taken from there on
  suffices found : ∀ least i, measure (run.state i) = least →
      ∃ i, ∀ j, i ≤ j → ¬CanMove sys ok counts (run.state j) from found _ 0 rfl
  intro least
  induction least using Nat.strong_induction_on with
  | _ least ih =>
    intro i here
    by_cases moves : ∃ j, i ≤ j ∧ CanMove sys ok counts (run.state j)
    · obtain ⟨j,later,can⟩ := moves
      obtain ⟨k,after,a,label,counted⟩ := fair j can
      have spent := run.spends pays k
      have before := run.antitone pays (Nat.le_trans later after)
      rw [label] at spent
      simp only [Option.any_some,counted,if_true] at spent
      exact ih _ (by omega) (k + 1) rfl
    · exact ⟨i,fun j later can => moves ⟨j,later,can⟩⟩

section Followed

variable [∀ s a, Decidable (ok s a)]

theorem follow_append {first rest : List α} :
    follow sys ok (first ++ rest) s = (follow sys ok first s).bind (follow sys ok rest) := by
  induction first generalizing s with
  | nil => rfl
  | cons a first ih =>
    simp only [List.cons_append,follow]
    split
    next =>
      split
      next => exact ih
      next => rfl
    next => rfl

/-- A list of labels taken from the initial state, and nothing after that. -/
def followed (sys : System σ α) (ok : Guard σ α) [∀ s a, Decidable (ok s a)] (labels : List α)
    (taken : (follow sys ok labels sys.init).isSome) : Execution sys ok where
  state i := (follow sys ok (labels.take i) sys.init).getD sys.init
  label i := labels[i]?
  start := by simp [follow]
  moves := by
    intro i a here
    obtain ⟨bound,rfl⟩ := List.getElem?_eq_some_iff.mp here
    have whole : labels = labels.take i ++ labels[i] :: labels.drop (i + 1) := by simp
    rw [whole,follow_append] at taken
    obtain ⟨s,before⟩ : ∃ s, follow sys ok (labels.take i) sys.init = some s := by
      cases before : follow sys ok (labels.take i) sys.init with
      | none => simp [before] at taken
      | some s => exact ⟨s,rfl⟩
    rw [before] at taken
    obtain ⟨t,after⟩ := Option.isSome_iff_exists.mp taken
    obtain ⟨allowed,u,step,_⟩ := follow_cons after
    rw [List.take_add_one,here,follow_append,before]
    simp [follow,allowed,step]
  rests := by
    intro i none
    have past : labels.length ≤ i := List.getElem?_eq_none_iff.mp none
    rw [List.take_of_length_le past,List.take_of_length_le (Nat.le_succ_of_le past)]

theorem followed_last (labels : List α) (taken : (follow sys ok labels sys.init).isSome) {i : Nat}
    (past : labels.length ≤ i) :
    (followed sys ok labels taken).state i = (follow sys ok labels sys.init).getD sys.init := by
  simp only [followed,List.take_of_length_le past]

/-- A list of labels that count, followed to the point where nothing more can be done, is fair. -/
theorem followed_fair (labels : List α) (taken : (follow sys ok labels sys.init).isSome)
    (count : ∀ a ∈ labels, counts a = true)
    (stuck : ¬CanMove sys ok counts ((follow sys ok labels sys.init).getD sys.init)) :
    (followed sys ok labels taken).Fair counts := by
  intro i can
  by_cases bound : i < labels.length
  · exact ⟨i,Nat.le_refl i,labels[i],List.getElem?_eq_getElem bound,count _ (List.getElem_mem bound)⟩
  · rw [followed_last labels taken (by omega)] at can
    exact absurd can stuck

end Followed

end Transition
