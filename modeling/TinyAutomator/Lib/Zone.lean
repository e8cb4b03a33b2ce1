import TinyAutomator.Lib.Rfc3339

/-! Local times in milliseconds, and the setters of a JavaScript Date on them. -/

/-- A time zone. A local time that occurs twice is read as the earlier instant; how one that is
skipped is read is left open. -/
structure Zone where
  offset : Int → Int
  utc : Int → Int
  exact : ∀ u, utc (u + offset u) + offset (utc (u + offset u)) = u + offset u
  first : ∀ u, utc (u + offset u) ≤ u

namespace Zone

open Rfc3339 (dayLength)

/-- A time of a day. -/
def timeOf (d : Int) (h m : Nat) : Int := d * dayLength + (h * 60 + m) * 60000

section Getters

variable (z : Zone)

def localTime (u : Int) : Int := u + z.offset u

def day (u : Int) : Int := z.localTime u / dayLength

def clock (u : Int) : Int := z.localTime u % dayLength

def getHours (u : Int) : Nat := (z.clock u / 3600000).toNat

def getMinutes (u : Int) : Nat := (z.clock u / 60000 % 60).toNat

/-- Seconds and milliseconds stay. -/
def setTime (u : Int) (h m : Nat) : Int := z.utc (timeOf (z.day u) h m + z.clock u % 60000)

def setHours (u : Int) (h : Nat) : Int := z.setTime u h (z.getMinutes u)

def setMinutes (u : Int) (m : Nat) : Int := z.setTime u (z.getHours u) m

def midnight (u : Int) : Int := z.utc (timeOf (z.day u) 0 0)

/-- The local time is not skipped. -/
def Has (x : Int) : Prop := ∃ u, z.localTime u = x

/-- Midnight is read as an instant of the day, at a whole minute. -/
def Begins (d : Int) : Prop :=
  z.day (z.utc (timeOf d 0 0)) = d ∧ z.clock (z.utc (timeOf d 0 0)) % 60000 = 0

end Getters

variable {z : Zone} {u x d : Int} {h m : Nat}

theorem localTime_utc (has : z.Has x) : z.localTime (z.utc x) = x := by
  obtain ⟨u,rfl⟩ := has
  exact z.exact u

theorem getters (hours : h < 24) (minutes : m < 60) (time : z.localTime u = timeOf d h m) :
    z.day u = d ∧ z.getHours u = h ∧ z.getMinutes u = m ∧ z.clock u % 60000 = 0 := by
  unfold day getHours getMinutes clock
  rw [time]
  unfold timeOf dayLength
  refine ⟨?_,?_,?_,?_⟩ <;> omega

theorem setTime_midnight (begins : z.Begins (z.day u)) :
    z.setTime (z.midnight u) h m = z.utc (timeOf (z.day u) h m) := by
  unfold setTime midnight
  rw [begins.1,begins.2,Int.add_zero]

end Zone
