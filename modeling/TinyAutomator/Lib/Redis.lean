import Mathlib.Data.Finset.Card
import Mathlib.Data.Finset.Dedup
import Mathlib.Logic.Function.Basic

/-! The part of Redis that counts the members of sets and takes locks: keys that hold
strings or sets and may time out, commands on them, and scripts of several commands. The
server executes one command or script after another. -/
namespace Redis

inductive Failure where
  | wrongType
  deriving DecidableEq, Repr

def Failure.text : Failure → String
  | .wrongType => "WRONGTYPE Operation against a key holding the wrong kind of value"

/-- A set is deleted with its last member, so that no stored set is empty. -/
inductive Value (μ : Type) where
  | string (text : String)
  | set (members : {members : Finset μ // members.Nonempty})

/-- A key without a time to live, in milliseconds, stays until it is deleted. -/
structure Entry (μ : Type) where
  value : Value μ
  ttl : Option Nat

abbrev Database (κ μ : Type) := κ → Option (Entry μ)

/-- What a script has written stays when it fails: there is no rollback. -/
abbrev Script (ε κ μ : Type) := ExceptT ε (StateM (Database κ μ))

section Scripts

variable {ε ε' κ μ α β : Type} {db db' : Database κ μ}

def exec (script : Script ε κ μ α) (db : Database κ μ) : Except ε α × Database κ μ :=
  script.run.run db

def command (effect : Database κ μ → Except ε α × Database κ μ) : Script ε κ μ α :=
  ExceptT.mk effect

@[simp] theorem exec_command (effect : Database κ μ → Except ε α × Database κ μ) :
    exec (command effect) db = effect db := rfl

@[simp] theorem exec_pure (a : α) : exec (pure a : Script ε κ μ α) db = (.ok a,db) := rfl

@[simp] theorem exec_throw (e : ε) : exec (throw e : Script ε κ μ α) db = (.error e,db) := rfl

/-- The script's result as a value, whatever it is. -/
def attempt (script : Script ε κ μ α) : Script ε' κ μ (Except ε α) :=
  command fun db => (.ok (exec script db).1,(exec script db).2)

@[simp] theorem exec_attempt (script : Script ε κ μ α) :
    exec (attempt script : Script ε' κ μ (Except ε α)) db = (.ok (exec script db).1,(exec script db).2) := rfl

variable {script : Script ε κ μ α} {next : α → Script ε κ μ β} {a : α} {e : ε}

/-- A script goes on with the result of its first part, or stops there. -/
theorem exec_bind : exec (script >>= next) db =
    match exec script db with
    | (.ok a,db') => exec (next a) db'
    | (.error e,db') => (.error e,db') := by
  unfold exec
  rw [ExceptT.run_bind,StateT.run_bind]
  cases script.run.run db with
  | mk result db' => cases result <;> rfl

theorem exec_bind_ok (first : exec script db = (.ok a,db')) :
    exec (script >>= next) db = exec (next a) db' := by
  rw [exec_bind,first]

theorem exec_bind_error (first : exec script db = (.error e,db')) :
    exec (script >>= next) db = (.error e,db') := by
  rw [exec_bind,first]

theorem exec_adapt (wrap : ε → ε') (script : Script ε κ μ α) :
    exec (ExceptT.adapt wrap script) db = ((exec script db).1.mapError wrap,(exec script db).2) := by
  unfold exec
  rw [ExceptT.run_adapt,StateT.run_map]
  rfl

end Scripts

section Sets

variable {κ μ : Type} {db db' : Database κ μ} {key other : κ} {stored : Finset μ}

def members (db : Database κ μ) (key : κ) : Except Failure (Finset μ) :=
  match db key with
  | none => .ok ∅
  | some ⟨.set stored,_⟩ => .ok stored
  | some ⟨.string _,_⟩ => .error .wrongType

/-- A missing key is the empty set. -/
def Holds (db : Database κ μ) (key : κ) (stored : Finset μ) : Prop := members db key = .ok stored

theorem Holds.congr (holds : Holds db key stored) (same : db' key = db key) :
    Holds db' key stored := by
  unfold Holds members at holds ⊢
  rw [same]
  exact holds

theorem holds_of_none (missing : db key = none) : Holds db key ∅ := by
  simp [Holds,members,missing]

theorem Holds.eq_none (holds : Holds db key ∅) : db key = none := by
  unfold Holds members at holds
  split at holds
  next missing => exact missing
  next stored _ _ =>
    have empty : stored.1 = ∅ := Except.ok.inj holds
    exact absurd empty stored.2.ne_empty
  next => contradiction

theorem Holds.isSome (holds : Holds db key stored) : (db key).isSome = true ↔ stored ≠ ∅ := by
  constructor
  · rintro present rfl
    rw [holds.eq_none] at present
    contradiction
  · intro filled
    by_contra missing
    have absent := holds_of_none (Option.not_isSome_iff_eq_none.mp missing)
    exact filled (Except.ok.inj (holds.symm.trans absent))

variable [DecidableEq κ]

/-- The database with other members under a key, whose time to live stays. -/
def put (db : Database κ μ) (key : κ) (members : Finset μ) : Database κ μ :=
  Function.update db key
    (if stored : members.Nonempty then some ⟨.set ⟨members,stored⟩,(db key).bind (·.ttl)⟩ else none)

@[simp] theorem put_holds (db : Database κ μ) (key : κ) (stored : Finset μ) :
    Holds (put db key stored) key stored := by
  by_cases filled : stored.Nonempty
  · simp [Holds,members,put,filled]
  · simp [Holds,members,put,Finset.not_nonempty_iff_eq_empty.mp filled]

@[simp] theorem put_other (apart : other ≠ key) : put db key stored other = db other :=
  Function.update_of_ne apart _ _

end Sets

section Commands

variable {ε κ μ : Type} [DecidableEq κ] [DecidableEq μ]

def existsKey (key : κ) : Script ε κ μ Bool := command fun db => (.ok (db key).isSome,db)

def sMembers (key : κ) : Script Failure κ μ (Finset μ) := command fun db => (members db key,db)

def sCard (key : κ) : Script Failure κ μ Nat :=
  command fun db => ((members db key).map Finset.card,db)

def sAdd (key : κ) (added : List μ) : Script Failure κ μ Nat :=
  command fun db =>
    match members db key with
    | .ok stored => (.ok (added.toFinset \ stored).card,put db key (stored ∪ added.toFinset))
    | .error failure => (.error failure,db)

def sRem (key : κ) (removed : μ) : Script Failure κ μ Nat :=
  command fun db =>
    match members db key with
    | .ok stored => (.ok (if removed ∈ stored then 1 else 0),put db key (stored.erase removed))
    | .error failure => (.error failure,db)

def del (key : κ) : Script ε κ μ Nat :=
  command fun db => (.ok (if (db key).isSome then 1 else 0),Function.update db key none)

def expire (key : κ) (ttl : Nat) : Script ε κ μ Bool :=
  command fun db =>
    match db key with
    | some entry => (.ok true,Function.update db key (some {entry with ttl := some ttl}))
    | none => (.ok false,db)

def setNX (key : κ) (text : String) (ttl : Option Nat) : Script ε κ μ Bool :=
  command fun db =>
    match db key with
    | some _ => (.ok false,db)
    | none => (.ok true,Function.update db key (some ⟨.string text,ttl⟩))

/-- The time to live of a key is over. -/
def timeOut (key : κ) (db : Database κ μ) : Database κ μ :=
  if ((db key).bind (·.ttl)).isSome then Function.update db key none else db

end Commands

section Specs

variable {ε κ μ : Type} {db : Database κ μ} {key : κ} {stored : Finset μ}

theorem Holds.exec_sCard (holds : Holds db key stored) :
    exec (sCard key) db = (.ok stored.card,db) := by
  unfold Holds at holds
  simp [sCard,holds,Except.map]

theorem Holds.exec_expire [DecidableEq κ] (holds : Holds db key stored) (ttl : Nat) :
    ∃ set db', exec (expire key ttl : Script ε κ μ Bool) db = (.ok set,db') ∧ Holds db' key stored := by
  rw [expire,exec_command]
  cases here : db key with
  | none => exact ⟨_,_,rfl,holds⟩
  | some entry =>
    refine ⟨_,_,rfl,?_⟩
    unfold Holds members at holds ⊢
    obtain ⟨value,_⟩ := entry
    rw [here] at holds
    cases value with
    | string => contradiction
    | set => simpa using holds

theorem exec_setNX [DecidableEq κ] (key : κ) (text : String) (ttl : Option Nat) :
    (exec (setNX key text ttl : Script ε κ μ Bool) db).1 = .ok (db key).isNone ∧
      ((exec (setNX key text ttl : Script ε κ μ Bool) db).2 key).isSome = true := by
  rw [setNX,exec_command]
  cases here : db key with
  | none => simp
  | some entry => simp [here]

variable [DecidableEq μ]

theorem Holds.exec_existsKey (holds : Holds db key stored) :
    exec (existsKey key : Script ε κ μ Bool) db = (.ok (!decide (stored = ∅)),db) := by
  have present : (db key).isSome = !decide (stored = ∅) := by
    rw [Bool.eq_iff_iff,holds.isSome]
    simp
  rw [existsKey,exec_command,present]

variable [DecidableEq κ]

theorem Holds.exec_sAdd (holds : Holds db key stored) (added : List μ) : exec (sAdd key added) db =
    (.ok (added.toFinset \ stored).card,put db key (stored ∪ added.toFinset)) := by
  unfold Holds at holds
  simp [sAdd,holds]

theorem Holds.exec_sRem (holds : Holds db key stored) (removed : μ) : exec (sRem key removed) db =
    (.ok (if removed ∈ stored then 1 else 0),put db key (stored.erase removed)) := by
  unfold Holds at holds
  simp [sRem,holds]

end Specs

/-- A script that writes one key at most. -/
def OnlyAt {ε κ μ α : Type} (key : κ) (script : Script ε κ μ α) : Prop :=
  ∀ db other, other ≠ key → (exec script db).2 other = db other

section Frames

variable {ε ε' κ μ α β : Type} {key : κ} {script : Script ε κ μ α} {next : α → Script ε κ μ β}

theorem OnlyAt.pure (a : α) : OnlyAt key (Pure.pure a : Script ε κ μ α) := fun _ _ _ => rfl

theorem OnlyAt.throw (e : ε) : OnlyAt key (MonadExcept.throw e : Script ε κ μ α) := fun _ _ _ => rfl

theorem OnlyAt.bind (first : OnlyAt key script) (later : ∀ a, OnlyAt key (next a)) :
    OnlyAt key (script >>= next) := by
  intro db other apart
  have before := first db other apart
  cases done : exec script db with
  | mk result db' =>
    rw [done] at before
    cases result with
    | ok a =>
      rw [exec_bind_ok done,later a db' other apart]
      exact before
    | error e =>
      rw [exec_bind_error done]
      exact before

theorem OnlyAt.adapt (within : OnlyAt key script) (wrap : ε → ε') :
    OnlyAt key (ExceptT.adapt wrap script : Script ε' κ μ α) := by
  intro db other apart
  rw [exec_adapt,within db other apart]

theorem existsKey_onlyAt : OnlyAt key (existsKey key : Script ε κ μ Bool) := fun _ _ _ => rfl

theorem sCard_onlyAt : OnlyAt key (sCard key : Script Failure κ μ Nat) := fun _ _ _ => rfl

variable [DecidableEq κ]

theorem del_onlyAt : OnlyAt key (del key : Script ε κ μ Nat) := by
  intro db other apart
  simp [del,apart]

theorem expire_onlyAt (ttl : Nat) : OnlyAt key (expire key ttl : Script ε κ μ Bool) := by
  intro db other apart
  rw [expire,exec_command]
  split <;> simp [apart]

theorem setNX_onlyAt (text : String) (ttl : Option Nat) :
    OnlyAt key (setNX key text ttl : Script ε κ μ Bool) := by
  intro db other apart
  rw [setNX,exec_command]
  split <;> simp [apart]

theorem timeOut_other {db : Database κ μ} {other : κ} (apart : other ≠ key) :
    timeOut key db other = db other := by
  unfold timeOut
  split <;> simp [apart]

variable [DecidableEq μ]

theorem sAdd_onlyAt (added : List μ) : OnlyAt key (sAdd key added : Script Failure κ μ Nat) := by
  intro db other apart
  rw [sAdd,exec_command]
  split <;> simp [apart]

theorem sRem_onlyAt (removed : μ) : OnlyAt key (sRem key removed : Script Failure κ μ Nat) := by
  intro db other apart
  rw [sRem,exec_command]
  split <;> simp [apart]

end Frames

end Redis
