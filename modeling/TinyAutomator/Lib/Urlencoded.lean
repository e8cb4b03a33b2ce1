import Mathlib.Data.List.Basic

/-! application/x-www-form-urlencoded: the text of a list of names and values, on bytes. -/
namespace Urlencoded

abbrev Bytes := List UInt8

def hexDigit (n : Nat) : UInt8 := UInt8.ofNat (if n < 10 then 48 + n else 55 + n)

def hexValue (c : UInt8) : Option Nat :=
  if 48 ≤ c ∧ c ≤ 57 then some (c.toNat - 48)
  else if 65 ≤ c ∧ c ≤ 70 then some (c.toNat - 55)
  else if 97 ≤ c ∧ c ≤ 102 then some (c.toNat - 87)
  else none

/-- Letters, digits, `*`, `-`, `.` and `_` stay as they are. -/
def plain (b : UInt8) : Bool :=
  48 ≤ b ∧ b ≤ 57 ∨ 65 ≤ b ∧ b ≤ 90 ∨ 97 ≤ b ∧ b ≤ 122 ∨ b = 42 ∨ b = 45 ∨ b = 46 ∨ b = 95

def encodeByte (b : UInt8) : Bytes :=
  if b = 32 then [43]
  else if plain b then [b]
  else [37,hexDigit (b.toNat / 16),hexDigit (b.toNat % 16)]

def encode (text : Bytes) : Bytes := text.flatMap encodeByte

/-- A percent sign without two digits after it stands for itself. -/
def decode : Bytes → Bytes
  | [] => []
  | [c] => [if c = 43 then 32 else c]
  | [c,d] => [if c = 43 then 32 else c,if d = 43 then 32 else d]
  | c :: a :: b :: rest =>
    if c = 37 then
      match hexValue a,hexValue b with
      | some x, some y => UInt8.ofNat (x * 16 + y) :: decode rest
      | _, _ => c :: decode (a :: b :: rest)
    else (if c = 43 then 32 else c) :: decode (a :: b :: rest)

def piece (pair : Bytes × Bytes) : Bytes := encode pair.1 ++ 61 :: encode pair.2

def serialize (pairs : List (Bytes × Bytes)) : Bytes := [38].intercalate (pairs.map piece)

/-- A piece is split at its first `=`; a piece without one is a name. -/
def readPiece (piece : Bytes) : Bytes × Bytes :=
  (decode (piece.takeWhile (· ≠ 61)),decode (piece.dropWhile (· ≠ 61)).tail)

def parse (text : Bytes) : List (Bytes × Bytes) := ((text.splitOn 38).filter (· ≠ [])).map readPiece

variable {b : UInt8} {text rest : Bytes} {pairs : List (Bytes × Bytes)}

theorem decode_cons (b : UInt8) (rest : Bytes) (other : b ≠ 37) :
    decode (b :: rest) = (if b = 43 then 32 else b) :: decode rest := by
  match rest with
  | [] => rfl
  | [_] => rfl
  | _ :: _ :: _ => rw [decode,if_neg other]

/-- What the encoding of a byte can be. -/
theorem encodeByte_cases (b : UInt8) :
    b = 32 ∧ encodeByte b = [43] ∨
    (encodeByte b = [b] ∧ b ≠ 37 ∧ b ≠ 43 ∧ b ≠ 38 ∧ b ≠ 61) ∨
    encodeByte b = [37,hexDigit (b.toNat / 16),hexDigit (b.toNat % 16)] := by
  have each : ∀ n < 256, let b := UInt8.ofNat n
      b = 32 ∧ encodeByte b = [43] ∨
      (encodeByte b = [b] ∧ b ≠ 37 ∧ b ≠ 43 ∧ b ≠ 38 ∧ b ≠ 61) ∨
      encodeByte b = [37,hexDigit (b.toNat / 16),hexDigit (b.toNat % 16)] := by decide +kernel
  have found := each b.toNat b.toNat_lt
  rwa [UInt8.ofNat_toNat] at found

theorem hexValue_hexDigit {n : Nat} (digit : n < 16) :
    hexValue (hexDigit n) = some n ∧ hexDigit n ≠ 38 ∧ hexDigit n ≠ 61 := by
  have each : ∀ n < 16, hexValue (hexDigit n) = some n ∧ hexDigit n ≠ 38 ∧ hexDigit n ≠ 61 := by
    decide +kernel
  exact each n digit

theorem digits (b : UInt8) : b.toNat / 16 < 16 ∧ b.toNat % 16 < 16 := by
  have small := b.toNat_lt
  omega

theorem decode_encodeByte : decode (encodeByte b ++ rest) = b :: decode rest := by
  rcases encodeByte_cases b with ⟨rfl,coded⟩ | ⟨coded,percent,plus,_⟩ | coded
  · rw [coded,List.singleton_append,decode_cons 43 rest (by decide),if_pos rfl]
  · rw [coded,List.singleton_append,decode_cons b rest percent,if_neg plus]
  · have whole : b.toNat / 16 * 16 + b.toNat % 16 = b.toNat := by omega
    rw [coded]
    simp [decode,(hexValue_hexDigit (digits b).1).1,(hexValue_hexDigit (digits b).2).1,whole]

theorem decode_encode : decode (encode text) = text := by
  induction text with
  | nil => rfl
  | cons b text ih =>
    have split : encode (b :: text) = encodeByte b ++ encode text := List.flatMap_cons
    rw [split,decode_encodeByte,ih]

/-- Neither separator is left in an encoded text. -/
theorem encode_free (text : Bytes) : ∀ c ∈ encode text, c ≠ 38 ∧ c ≠ 61 := by
  intro c member
  obtain ⟨b,_,within⟩ := List.mem_flatMap.mp member
  rcases encodeByte_cases b with ⟨_,coded⟩ | ⟨coded,_,_,amp,equals⟩ | coded
  · rw [coded,List.mem_singleton] at within
    subst within
    decide
  · rw [coded,List.mem_singleton] at within
    subst within
    exact ⟨amp,equals⟩
  · rw [coded] at within
    simp only [List.mem_cons,List.not_mem_nil,or_false] at within
    rcases within with rfl | rfl | rfl
    · decide
    · exact (hexValue_hexDigit (digits b).1).2
    · exact (hexValue_hexDigit (digits b).2).2

theorem readPiece_piece (pair : Bytes × Bytes) : readPiece (piece pair) = pair := by
  have free : ∀ c ∈ encode pair.1, decide (c ≠ 61) = true :=
    fun c member => decide_eq_true (encode_free pair.1 c member).2
  rw [readPiece,piece,List.takeWhile_append_of_pos free,List.dropWhile_append_of_pos free]
  simp [decode_encode]

/-- The pairs are read back from their text. -/
theorem parse_serialize (pairs : List (Bytes × Bytes)) : parse (serialize pairs) = pairs := by
  by_cases empty : pairs = []
  · subst empty
    rfl
  · have free : ∀ l ∈ pairs.map piece, 38 ∉ l := by
      simp only [List.mem_map,forall_exists_index,and_imp,forall_apply_eq_imp_iff₂]
      intro pair _ member
      rcases List.mem_append.mp member with name | value
      · exact (encode_free pair.1 38 name).1 rfl
      · rcases List.mem_cons.mp value with same | value
        · exact absurd same (by decide)
        · exact (encode_free pair.2 38 value).1 rfl
    have some_ : ∀ l ∈ pairs.map piece, decide (l ≠ []) = true := by
      intro l member
      obtain ⟨pair,_,rfl⟩ := List.mem_map.mp member
      simp [piece]
    rw [parse,serialize,List.splitOn_intercalate 38 free (by simpa using empty),List.filter_eq_self.mpr some_]
    simp [Function.comp_def,readPiece_piece]

end Urlencoded
