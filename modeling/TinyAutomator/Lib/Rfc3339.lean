import Mathlib.Data.List.Basic
import TinyAutomator.Lib.Civil

/-! Instants in milliseconds and their RFC 3339 texts: one writer, and a reader that takes
any fraction of a second and any offset. A year before 0 or after 9999 is written with a
sign and six digits, which the reader refuses. -/
namespace Rfc3339

def dayLength : Int := 24 * 60 * 60 * 1000

section Digits

/-- The last decimal digits of a number. -/
def pad : Nat → Nat → List Char
  | 0, _ => []
  | width + 1, n => pad width (n / 10) ++ [Nat.digitChar (n % 10)]

variable {width n low high : Nat} {rest : List Char} {c : Char}

@[simp] theorem pad_length (width n : Nat) : (pad width n).length = width := by
  induction width generalizing n with
  | zero => rfl
  | succ width ih => simp [pad,ih]

theorem digitChar_isDigit (n : Nat) : (Nat.digitChar (n % 10)).isDigit = true := by
  have all : ∀ d < 10, (Nat.digitChar d).isDigit = true := by decide
  exact all (n % 10) (Nat.mod_lt n (by decide))

theorem pad_isDigit (member : c ∈ pad width n) : c.isDigit = true := by
  induction width generalizing n with
  | zero => contradiction
  | succ width ih =>
    rcases List.mem_append.mp member with early | last
    · exact ih early
    · exact List.mem_singleton.mp last ▸ digitChar_isDigit n

theorem ofDigitChars_pad (fits : n < 10 ^ width) : Nat.ofDigitChars 10 (pad width n) 0 = n := by
  induction width generalizing n with
  | zero =>
    obtain rfl : n = 0 := by simpa using fits
    rfl
  | succ width ih =>
    have smaller : n / 10 < 10 ^ width := by
      rw [Nat.pow_succ] at fits
      omega
    rw [pad,Nat.ofDigitChars_append,ih smaller,
      Nat.ofDigitChars_cons_digitChar_of_lt_ten (Nat.mod_lt n (by decide)),Nat.ofDigitChars_nil]
    omega

/-- Some digits with a value between two bounds. -/
def field (width low high : Nat) (text : List Char) : Option (Nat × List Char) :=
  let value := Nat.ofDigitChars 10 (text.take width) 0
  if width ≤ text.length ∧ (text.take width).all Char.isDigit = true ∧ low ≤ value ∧ value ≤ high then
    some (value,text.drop width)
  else none

theorem field_pad (fits : n < 10 ^ width) (least : low ≤ n) (most : n ≤ high) :
    field width low high (pad width n ++ rest) = some (n,rest) := by
  have head : (pad width n ++ rest).take width = pad width n := by
    rw [List.take_append_of_le_length (by simp),List.take_of_length_le (by simp)]
  have tail : (pad width n ++ rest).drop width = rest := by
    rw [List.drop_append_of_le_length (by simp),List.drop_of_length_le (by simp),List.nil_append]
  have digits : (pad width n).all Char.isDigit = true :=
    List.all_eq_true.mpr fun _ member => pad_isDigit member
  rw [field,head,tail,ofDigitChars_pad fits,if_pos ⟨by simp,digits,least,most⟩]

def symbol (c : Char) : List Char → Option (List Char)
  | d :: rest => if d = c then some rest else none
  | [] => none

@[simp] theorem symbol_cons : symbol c (c :: rest) = some rest := if_pos rfl

end Digits

section Texts

/-- Year, and month from 1 to 12, of a day. -/
def yearMonth (d : Int) : Int × Int :=
  let m := Civil.monthOf d
  ((m + 2) / 12,(m + 2) % 12 + 1)

def year (t : Int) : Int := (yearMonth (t / dayLength)).1

def yearText (year : Int) : List Char :=
  if 0 ≤ year ∧ year ≤ 9999 then pad 4 year.toNat
  else (if year < 0 then '-' else '+') :: pad 6 year.natAbs

/-- Date.prototype.toISOString. -/
def render (t : Int) : List Char :=
  let d := t / dayLength
  let ms := (t % dayLength).toNat
  yearText (year t) ++ '-' :: (pad 2 (yearMonth d).2.toNat ++ '-' :: (pad 2 (Civil.dayOf d).toNat ++
    'T' :: (pad 2 (ms / 3600000) ++ ':' :: (pad 2 (ms / 60000 % 60) ++ ':' :: (pad 2 (ms / 1000 % 60) ++
    '.' :: (pad 3 (ms % 1000) ++ ['Z']))))))

/-- The milliseconds of a fraction of a second, if there is one. -/
def fraction (text : List Char) : Nat × List Char :=
  match symbol '.' text with
  | some rest =>
    let digits := rest.takeWhile Char.isDigit
    if digits = [] then (0,text)
    else (Nat.ofDigitChars 10 ((digits ++ ['0','0']).take 3) 0,rest.dropWhile Char.isDigit)
  | none => (0,text)

/-- How much the offset at the end is ahead of UTC. -/
def offset : List Char → Option Int
  | ['Z'] => some 0
  | sign :: text => do
    let (hours,text) ← field 2 0 23 text
    let text ← symbol ':' text
    let (minutes,text) ← field 2 0 59 text
    let ahead : Int := (hours * 60 + minutes) * 60000
    if text ≠ [] then none
    else if sign = '+' then some ahead
    else if sign = '-' then some (-ahead)
    else none
  | [] => none

/-- The day of a date. -/
def date (text : List Char) : Option (Int × List Char) := do
  let (year,text) ← field 4 0 9999 text
  let text ← symbol '-' text
  let (month,text) ← field 2 1 12 text
  let text ← symbol '-' text
  let (day,text) ← field 2 1 (Civil.length year month).toNat text
  return (Civil.day (Civil.month year month) day,text)

/-- The milliseconds of a time of the day. -/
def time (text : List Char) : Option (Nat × List Char) := do
  let (hour,text) ← field 2 0 23 text
  let text ← symbol ':' text
  let (minute,text) ← field 2 0 59 text
  let text ← symbol ':' text
  let (second,text) ← field 2 0 59 text
  let (millisecond,text) := fraction text
  return ((hour * 3600 + minute * 60 + second) * 1000 + millisecond,text)

/-- parseRFC3339 of Go's package time. -/
def parse (text : List Char) : Option Int := do
  let (day,text) ← date text
  let text ← symbol 'T' text
  let (milliseconds,text) ← time text
  let ahead ← offset text
  return day * dayLength + milliseconds - ahead

end Texts

section RoundTrip

variable {t d : Int}

theorem yearMonth_month (d : Int) : Civil.month (yearMonth d).1 (yearMonth d).2 = Civil.monthOf d := by
  unfold yearMonth Civil.month
  dsimp only
  omega

theorem yearMonth_bounds (d : Int) : 1 ≤ (yearMonth d).2 ∧ (yearMonth d).2 ≤ 12 := by
  unfold yearMonth
  dsimp only
  omega

theorem dayOf_length (d : Int) :
    1 ≤ Civil.dayOf d ∧ Civil.dayOf d ≤ Civil.length (yearMonth d).1 (yearMonth d).2 := by
  obtain ⟨first,last⟩ := yearMonth_bounds d
  rw [← Civil.daysIn_month first last,yearMonth_month]
  exact Civil.dayOf_bounds d

theorem fraction_pad {n : Nat} (fits : n < 10 ^ 3) : fraction ('.' :: (pad 3 n ++ ['Z'])) = (n,['Z']) := by
  have digits : ∀ c ∈ pad 3 n, c.isDigit = true := fun _ member => pad_isDigit member
  have some_ : pad 3 n ≠ [] := by
    intro none_
    have length := pad_length 3 n
    rw [none_] at length
    contradiction
  have head : (pad 3 n ++ ['Z']).takeWhile Char.isDigit = pad 3 n := by
    rw [List.takeWhile_append_of_pos digits]
    simp
  have tail : (pad 3 n ++ ['Z']).dropWhile Char.isDigit = ['Z'] := by
    rw [List.dropWhile_append_of_pos digits]
    rfl
  have three : (pad 3 n ++ ['0','0']).take 3 = pad 3 n := by
    rw [List.take_append_of_le_length (by simp),List.take_of_length_le (by simp)]
  unfold fraction
  rw [symbol_cons]
  dsimp only
  rw [head,tail,if_neg some_,three,ofDigitChars_pad fits]

theorem date_yearless {c : Char} (sign : c.isDigit = false) (rest : List Char) : date (c :: rest) = none := by
  have refused : field 4 0 9999 (c :: rest) = none := by
    refine if_neg fun ⟨_,digits,_⟩ => ?_
    rw [List.take_succ_cons,List.all_cons,sign] at digits
    contradiction
  unfold date
  rw [refused]
  rfl

theorem date_pad {y mo d : Nat} (years : y ≤ 9999) (january : 1 ≤ mo) (december : mo ≤ 12) (first : 1 ≤ d)
    (last : d ≤ (Civil.length y mo).toNat) (few : d < 100) :
    date (pad 4 y ++ '-' :: (pad 2 mo ++ '-' :: (pad 2 d ++ rest))) =
      some (Civil.day (Civil.month y mo) d,rest) := by
  unfold date
  rw [field_pad (by omega) (Nat.zero_le y) years]
  simp only [Option.bind_eq_bind,Option.bind_some,symbol_cons]
  rw [field_pad (by omega) january december]
  simp only [Option.bind_some,symbol_cons]
  rw [field_pad (by omega) first last]
  rfl

theorem time_pad {h m s ms : Nat} (hours : h ≤ 23) (minutes : m ≤ 59) (seconds : s ≤ 59) (part : ms < 1000) :
    time (pad 2 h ++ ':' :: (pad 2 m ++ ':' :: (pad 2 s ++ '.' :: (pad 3 ms ++ ['Z'])))) =
      some ((h * 3600 + m * 60 + s) * 1000 + ms,['Z']) := by
  unfold time
  rw [field_pad (by omega) (Nat.zero_le h) hours]
  simp only [Option.bind_eq_bind,Option.bind_some,symbol_cons]
  rw [field_pad (by omega) (Nat.zero_le m) minutes]
  simp only [Option.bind_some,symbol_cons]
  rw [field_pad (by omega) (Nat.zero_le s) seconds]
  simp only [Option.bind_some,fraction_pad part]
  rfl

/-- What is written is read, in the years that have four digits. -/
theorem parse_render (t : Int) :
    parse (render t) = if 0 ≤ year t ∧ year t ≤ 9999 then some t else none := by
  obtain ⟨first,last⟩ := dayOf_length (t / dayLength)
  obtain ⟨january,december⟩ := yearMonth_bounds (t / dayLength)
  split
  next years =>
    have most := (Civil.dayOf_bounds (t / dayLength)).2
    have days := (Civil.daysIn_bounds (Civil.monthOf (t / dayLength))).2
    have within : t % dayLength < dayLength := Int.emod_lt_of_pos t (by decide)
    have positive : 0 ≤ t % dayLength := Int.emod_nonneg t (by decide)
    have whole : dayLength * (t / dayLength) + t % dayLength = t := Int.mul_ediv_add_emod t dayLength
    have numbered : ((year t).toNat : Int) = (yearMonth (t / dayLength)).1 := Int.toNat_of_nonneg years.1
    have months : ((yearMonth (t / dayLength)).2.toNat : Int) = (yearMonth (t / dayLength)).2 :=
      Int.toNat_of_nonneg (by omega)
    have dated : ((Civil.dayOf (t / dayLength)).toNat : Int) = Civil.dayOf (t / dayLength) :=
      Int.toNat_of_nonneg (by omega)
    have clock : ((t % dayLength).toNat : Int) = t % dayLength := Int.toNat_of_nonneg positive
    have short : (t % dayLength).toNat < 86400000 := by
      unfold dayLength at within clock ⊢
      omega
    unfold render yearText parse
    rw [if_pos years,date_pad (by omega) (by omega) (by omega) (by omega) (by rw [numbered,months]; omega) (by omega),
      numbered,months,dated,yearMonth_month,Civil.day_monthOf_dayOf]
    simp only [Option.bind_eq_bind,Option.bind_some,symbol_cons]
    rw [time_pad (by omega) (by omega) (by omega) (by omega)]
    have parts (n : Nat) : (n / 3600000 * 3600 + n / 60000 % 60 * 60 + n / 1000 % 60) * 1000 + n % 1000 = n := by
      omega
    rw [parts]
    refine congrArg some ((Int.sub_zero _).trans ?_)
    rw [clock,Int.mul_comm,whole]
  next years =>
    unfold render yearText
    rw [if_neg years]
    unfold parse
    rw [List.cons_append,date_yearless (by split <;> rfl)]
    rfl

end RoundTrip

end Rfc3339
