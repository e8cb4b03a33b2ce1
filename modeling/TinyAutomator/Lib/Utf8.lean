import Mathlib.Data.List.Basic

/-! Texts as the bytes of UTF-8, and their lengths in bytes and in UTF-16 code units. -/
namespace Utf8

def encode (text : String) : List UInt8 := text.toList.flatMap String.utf8EncodeChar

def utf16Length (text : String) : Nat := text.toList.foldr (fun c n => (if c.toNat < 0x10000 then 1 else 2) + n) 0

variable {text : String} {c : Char} {b : UInt8}

/-- A code unit takes three bytes at most. -/
theorem encode_length_le : (encode text).length ≤ 3 * utf16Length text := by
  unfold encode utf16Length
  induction text.toList with
  | nil => simp
  | cons c rest ih =>
    have width : (String.utf8EncodeChar c).length ≤ 3 * if c.toNat < 0x10000 then 1 else 2 := by
      by_cases basic : c.toNat < 0x10000
      · rw [if_pos basic]
        unfold String.utf8EncodeChar
        dsimp only
        split
        next => simp
        next =>
          split
          next => simp
          next =>
            split
            next => simp
            next above => exact absurd (Nat.le_of_lt_succ basic) above
      · rw [if_neg basic,String.length_utf8EncodeChar]
        exact Nat.le_trans c.utf8Size_le_four (by decide)
    rw [List.flatMap_cons,List.length_append,List.foldr_cons]
    omega

end Utf8
