import Mathlib.Logic.Basic

/-! Functions that begin a transaction and end it in a deferred call. The call rolls back
if one error variable is set; an error in a variable that shadows it goes unnoticed. -/
namespace Deferred

/-- How a body is left early: with an error in the variable that the deferred call reads,
with an error elsewhere, or by a panic. -/
inductive Abrupt where
  | held (text : String)
  | shadowed (text : String)
  | panic (text : String)
  deriving DecidableEq

abbrev Body (α : Type) := Except Abrupt α

def held (text : String) (fails : Bool) : Body Unit := if fails then .error (.held text) else .ok ()

def shadowed (text : String) (fails : Bool) : Body Unit :=
  if fails then .error (.shadowed text) else .ok ()

def deref {α : Type} (text : String) (pointer : Option α) : Body Unit :=
  if pointer.isSome then .ok () else .error (.panic text)

/-- Some steps with errors of their own, one after another. -/
def attempts : List (String × Bool) → Body Unit
  | [] => .ok ()
  | step :: rest => shadowed step.1 step.2 >>= fun _ => attempts rest

/-- A loop that numbers its turns. -/
def inTurn {α : Type} (f : Nat → α → Body Unit) : Nat → List α → Body Unit
  | _, [] => .ok ()
  | i, a :: rest => f i a >>= fun _ => inTurn f (i + 1) rest

/-- How a call went: the error it returned, if it returned, and whether it has called
Commit and Rollback. -/
structure Ending where
  returned : Option (Option String)
  commit : Bool
  rollback : Bool
  deriving DecidableEq

def Abrupt.ending (commit : Bool) : Abrupt → Ending
  | .held text => ⟨some (some text),commit,true⟩
  | .shadowed text => ⟨some (some text),commit,false⟩
  | .panic _ => ⟨none,commit,false⟩

/-- The body, then Commit, with the deferred call around both. -/
def transact (body commit : Body Unit) : Ending :=
  match body with
  | .error stop => stop.ending false
  | .ok () =>
    match commit with
    | .error stop => stop.ending true
    | .ok () => ⟨some none,true,false⟩

/-- A call that has been left, by a return or by a panic, has ended its transaction. -/
def Ending.Released (e : Ending) : Prop := e.commit = true ∨ e.rollback = true

def Caught {α : Type} (body : Body α) : Prop := ∃ text, body = .error (.held text)

/-- The body goes through, or the deferred call sees why not. -/
def Seen (body : Body Unit) : Prop := body = .ok () ∨ Caught body

def Panics {α : Type} (body : Body α) : Prop := ∃ text, body = .error (.panic text)

variable {α : Type} {x body commit : Body Unit} {f : Nat → α → Body Unit} {l : List α} {n : Nat}
  {text : String} {fails : Bool} {steps : List (String × Bool)} {stop : Abrupt}

theorem transact_released : (transact body commit).Released ↔ Seen body := by
  unfold transact Seen Caught Ending.Released
  cases body with
  | error stop => cases stop <;> simp [Abrupt.ending]
  | ok =>
    cases commit with
    | error stop => cases stop <;> simp [Abrupt.ending]
    | ok => simp

theorem transact_panics : (transact body commit).returned = none ↔
    Panics body ∨ body = .ok () ∧ Panics commit := by
  unfold transact Panics
  cases body with
  | error stop => cases stop <;> simp [Abrupt.ending]
  | ok =>
    cases commit with
    | error stop => cases stop <;> simp [Abrupt.ending]
    | ok => simp

theorem bind_error {y : Body Unit} :
    x >>= (fun _ => y) = .error stop ↔ x = .error stop ∨ x = .ok () ∧ y = .error stop := by
  cases x with
  | error stop => simp [bind,Except.bind]
  | ok => simp [bind,Except.bind]

theorem caught_bind {y : Body Unit} : Caught (x >>= fun _ => y) ↔ Caught x ∨ x = .ok () ∧ Caught y := by
  simp only [Caught,bind_error,exists_or,exists_and_left]

theorem panics_bind {y : Body Unit} : Panics (x >>= fun _ => y) ↔ Panics x ∨ x = .ok () ∧ Panics y := by
  simp only [Panics,bind_error,exists_or,exists_and_left]

theorem passes_bind {y : Body Unit} : x >>= (fun _ => y) = .ok () ↔ x = .ok () ∧ y = .ok () := by
  cases x with
  | error stop => simp [bind,Except.bind]
  | ok => simp [bind,Except.bind]

theorem seen_bind {y : Body Unit} : Seen (x >>= fun _ => y) ↔ Caught x ∨ x = .ok () ∧ Seen y := by
  rw [Seen,Seen,passes_bind,caught_bind]
  exact ⟨by rintro (⟨first,later⟩ | first | ⟨first,later⟩) <;> simp [*],
    by rintro (first | ⟨first,later | later⟩) <;> simp [*]⟩

/-- Steps whose errors the deferred call sees leave the rest to answer for. -/
theorem Seen.bind {y : Body Unit} (seen : Seen x) : Seen (x >>= fun _ => y) ↔ (x = .ok () → Seen y) := by
  rw [seen_bind]
  rcases seen with passes | ⟨text,stops⟩
  · simp [passes,Caught]
  · simp [stops,Caught]

theorem unseen_bind {y : Body Unit} (unseen : ¬Caught x) :
    Seen (x >>= fun _ => y) ↔ x = .ok () ∧ Seen y := by
  rw [seen_bind,or_iff_right unseen]

theorem Seen.iff_passes (unseen : ¬Caught x) : Seen x ↔ x = .ok () := or_iff_left unseen

theorem seen_held : Seen (held text fails) := by
  cases fails <;> simp [Seen,Caught,held]

@[simp] theorem caught_held : Caught (held text fails) ↔ fails = true := by
  cases fails <;> simp [Caught,held]

@[simp] theorem panics_held : ¬Panics (held text fails) := by
  cases fails <;> simp [Panics,held]

@[simp] theorem passes_held : held text fails = .ok () ↔ fails = false := by
  cases fails <;> simp [held]

@[simp] theorem caught_shadowed : ¬Caught (shadowed text fails) := by
  cases fails <;> simp [Caught,shadowed]

@[simp] theorem panics_shadowed : ¬Panics (shadowed text fails) := by
  cases fails <;> simp [Panics,shadowed]

@[simp] theorem passes_shadowed : shadowed text fails = .ok () ↔ fails = false := by
  cases fails <;> simp [shadowed]

@[simp] theorem caught_deref {pointer : Option α} : ¬Caught (deref text pointer) := by
  cases pointer <;> simp [Caught,deref]

@[simp] theorem panics_deref {pointer : Option α} : Panics (deref text pointer) ↔ pointer = none := by
  cases pointer <;> simp [Panics,deref]

@[simp] theorem passes_deref {pointer : Option α} : deref text pointer = .ok () ↔ pointer.isSome = true := by
  cases pointer <;> simp [deref]

@[simp] theorem passes_attempts : attempts steps = .ok () ↔ ∀ step ∈ steps, step.2 = false := by
  induction steps with
  | nil => simp [attempts]
  | cons step rest ih => rw [attempts,passes_bind,ih,passes_shadowed,List.forall_mem_cons]

@[simp] theorem caught_attempts : ¬Caught (attempts steps) := by
  induction steps with
  | nil => simp [attempts,Caught]
  | cons step rest ih =>
    rw [attempts,caught_bind]
    exact fun either => either.elim caught_shadowed fun later => ih later.2

@[simp] theorem panics_attempts : ¬Panics (attempts steps) := by
  induction steps with
  | nil => simp [attempts,Panics]
  | cons step rest ih =>
    rw [attempts,panics_bind]
    exact fun either => either.elim panics_shadowed fun later => ih later.2

theorem passes_inTurn : inTurn f n l = .ok () ↔ ∀ i a, l[i]? = some a → f (n + i) a = .ok () := by
  induction l generalizing n with
  | nil => simp [inTurn]
  | cons a rest ih =>
    rw [inTurn,passes_bind,ih]
    constructor
    · rintro ⟨first,later⟩ i b at_
      cases i with
      | zero => cases at_; exact first
      | succ i =>
        have turn := later i b at_
        rwa [Nat.add_assoc,Nat.add_comm 1 i] at turn
    · intro all
      refine ⟨all 0 a rfl,fun i b at_ => ?_⟩
      have turn := all (i + 1) b at_
      rwa [← Nat.add_assoc,Nat.add_right_comm] at turn

/-- Where the entry does not matter, its number does. -/
theorem passes_each {passes : Nat → Prop} (pass : ∀ i a, f i a = .ok () ↔ passes i) :
    inTurn f 0 l = .ok () ↔ ∀ i < l.length, passes i := by
  rw [passes_inTurn]
  simp only [Nat.zero_add,pass]
  exact ⟨fun all i below => all i _ (List.getElem?_eq_getElem below),
    fun all i _ at_ => all i (List.getElem?_eq_some_iff.mp at_).1⟩

/-- A loop stops as the first turn that does not go through. -/
theorem inTurn_error : inTurn f n l = .error stop ↔ ∃ i a, l[i]? = some a ∧ f (n + i) a = .error stop ∧
    ∀ j < i, ∀ b, l[j]? = some b → f (n + j) b = .ok () := by
  induction l generalizing n with
  | nil => simp [inTurn]
  | cons a rest ih =>
    rw [inTurn,bind_error,ih]
    constructor
    · rintro (here | ⟨first,i,b,at_,stops,before⟩)
      · exact ⟨0,a,rfl,here,fun j below => absurd below (Nat.not_lt_zero j)⟩
      · refine ⟨i + 1,b,at_,?_,fun j below c at' => ?_⟩
        · rwa [← Nat.add_assoc,Nat.add_right_comm]
        · cases j with
          | zero => cases at'; exact first
          | succ j =>
            have turn := before j (Nat.lt_of_succ_lt_succ below) c at'
            rwa [Nat.add_assoc,Nat.add_comm 1 j] at turn
    · rintro ⟨i,b,at_,stops,before⟩
      cases i with
      | zero => cases at_; exact .inl stops
      | succ i =>
        refine .inr ⟨before 0 (Nat.succ_pos i) a rfl,i,b,at_,?_,fun j below c at' => ?_⟩
        · rwa [Nat.add_assoc,Nat.add_comm 1 i]
        · have turn := before (j + 1) (Nat.succ_lt_succ below) c at'
          rwa [← Nat.add_assoc,Nat.add_right_comm] at turn

theorem stops_inTurn {g : String → Abrupt} : (∃ text, inTurn f n l = .error (g text)) ↔
    ∃ i a, l[i]? = some a ∧ (∃ text, f (n + i) a = .error (g text)) ∧
      ∀ j < i, ∀ b, l[j]? = some b → f (n + j) b = .ok () := by
  simp only [inTurn_error]
  constructor
  · rintro ⟨text,i,a,at_,stops,before⟩
    exact ⟨i,a,at_,⟨text,stops⟩,before⟩
  · rintro ⟨i,a,at_,⟨text,stops⟩,before⟩
    exact ⟨text,i,a,at_,stops,before⟩

/-- A loop does not stop in a way in which no turn does. -/
theorem never_inTurn {g : String → Abrupt} (never : ∀ i a, ¬∃ text, f i a = .error (g text)) :
    ¬∃ text, inTurn f n l = .error (g text) := by
  rw [stops_inTurn]
  exact fun ⟨_,a,_,stops,_⟩ => never _ a stops

theorem seen_inTurn (seen : ∀ i a, Seen (f i a)) : Seen (inTurn f n l) := by
  induction l generalizing n with
  | nil => exact .inl rfl
  | cons a rest ih =>
    rw [inTurn,(seen n a).bind]
    exact fun _ => ih

theorem panics_inTurn : Panics (inTurn f n l) ↔ ∃ i a, l[i]? = some a ∧ Panics (f (n + i) a) ∧
    ∀ j < i, ∀ b, l[j]? = some b → f (n + j) b = .ok () :=
  stops_inTurn

/-- The first turn of a loop that does not go through is lost. -/
def FirstLost (passes lost : Nat → α → Prop) (l : List α) : Prop :=
  ∃ i a, l[i]? = some a ∧ lost i a ∧ ∀ j < i, ∀ b, l[j]? = some b → passes j b

def AllPass (passes : Nat → α → Prop) (l : List α) : Prop := ∀ i a, l[i]? = some a → passes i a

theorem allPass_inTurn {passes : Nat → α → Prop} (pass : ∀ i a, f i a = .ok () ↔ passes i a) :
    inTurn f 0 l = .ok () ↔ AllPass passes l := by
  rw [passes_inTurn]
  simp only [Nat.zero_add,pass]
  rfl

theorem inTurn_panics {passes panics : Nat → α → Prop} (pass : ∀ i a, f i a = .ok () ↔ passes i a)
    (panic : ∀ i a, Panics (f i a) ↔ panics i a) : Panics (inTurn f 0 l) ↔ FirstLost passes panics l := by
  rw [panics_inTurn]
  simp only [Nat.zero_add,pass,panic]
  exact .rfl

theorem FirstLost.mono {passes passes' lost lost' : Nat → α → Prop}
    (pass : ∀ i a, l[i]? = some a → passes i a → passes' i a)
    (lose : ∀ i a, l[i]? = some a → lost i a → lost' i a) (first : FirstLost passes lost l) :
    FirstLost passes' lost' l := by
  obtain ⟨i,a,at_,loses,before⟩ := first
  exact ⟨i,a,at_,lose i a at_ loses,fun j below b at' => pass j b at' (before j below b at')⟩

theorem firstLost_cons {passes lost : Nat → α → Prop} {a : α} : FirstLost passes lost (a :: l) ↔
    lost 0 a ∨ passes 0 a ∧ FirstLost (fun i => passes (i + 1)) (fun i => lost (i + 1)) l := by
  constructor
  · rintro ⟨i,b,at_,loses,before⟩
    cases i with
    | zero => cases at_; exact .inl loses
    | succ i =>
      exact .inr ⟨before 0 (Nat.succ_pos i) a rfl,i,b,at_,loses,fun j below => before (j + 1) (Nat.succ_lt_succ below)⟩
  · rintro (loses | ⟨first,i,b,at_,loses,before⟩)
    · exact ⟨0,a,rfl,loses,fun j below => absurd below (Nat.not_lt_zero j)⟩
    · refine ⟨i + 1,b,at_,loses,fun j below c at' => ?_⟩
      cases j with
      | zero => cases at'; exact first
      | succ j => exact before j (Nat.lt_of_succ_lt_succ below) c at'

theorem allPass_cons {passes : Nat → α → Prop} {a : α} : AllPass passes (a :: l) ↔
    passes 0 a ∧ AllPass (fun i => passes (i + 1)) l := by
  constructor
  · exact fun all => ⟨all 0 a rfl,fun i => all (i + 1)⟩
  · rintro ⟨first,later⟩ i b at_
    cases i with
    | zero => cases at_; exact first
    | succ i => exact later i b at_

end Deferred
