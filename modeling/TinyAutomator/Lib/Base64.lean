import Mathlib.Data.List.Basic

/-! Base64 with the URL alphabet and without padding, on lists of bytes. -/
namespace Base64

abbrev Bytes := List UInt8

def alphabet : Bytes :=
  "ABCDEFGHIJKLMNOPQRSTUVWXYZabcdefghijklmnopqrstuvwxyz0123456789-_".toList.map fun c => UInt8.ofNat c.toNat

def char (value : Nat) : UInt8 := alphabet.getD value 0

def value (c : UInt8) : Option Nat := alphabet.idxOf? c

/-- Three bytes become four characters; the rest of the last group is filled with zeros. -/
def encode : Bytes → Bytes
  | a :: b :: c :: rest =>
    char (a.toNat / 4) :: char (a.toNat % 4 * 16 + b.toNat / 16) ::
      char (b.toNat % 16 * 4 + c.toNat / 64) :: char (c.toNat % 64) :: encode rest
  | [a,b] =>
    [char (a.toNat / 4),char (a.toNat % 4 * 16 + b.toNat / 16),char (b.toNat % 16 * 4)]
  | [a] => [char (a.toNat / 4),char (a.toNat % 4 * 16)]
  | [] => []

def first (w x : Nat) : UInt8 := UInt8.ofNat (w * 4 + x / 16)
def second (x y : Nat) : UInt8 := UInt8.ofNat (x % 16 * 16 + y / 4)
def third (y z : Nat) : UInt8 := UInt8.ofNat (y % 4 * 64 + z)

def decode : Bytes → Option Bytes
  | w :: x :: y :: z :: rest => do
    let w ← value w
    let x ← value x
    let y ← value y
    let z ← value z
    let rest ← decode rest
    some (first w x :: second x y :: third y z :: rest)
  | [w,x,y] => do
    let w ← value w
    let x ← value x
    let y ← value y
    some [first w x,second x y]
  | [w,x] => do
    let w ← value w
    let x ← value x
    some [first w x]
  | [_] => none
  | [] => some []

theorem value_char {v : Nat} (within : v < 64) : value (char v) = some v := by
  have each : ∀ v < 64, value (char v) = some v := by decide +kernel
  exact each v within

section Groups

variable (a b c : UInt8)

theorem first_bytes : first (a.toNat / 4) (a.toNat % 4 * 16 + b.toNat / 16) = a := by
  have small := b.toNat_lt
  have whole : a.toNat / 4 * 4 + (a.toNat % 4 * 16 + b.toNat / 16) / 16 = a.toNat := by omega
  rw [first,whole,UInt8.ofNat_toNat]

theorem second_bytes :
    second (a.toNat % 4 * 16 + b.toNat / 16) (b.toNat % 16 * 4 + c.toNat / 64) = b := by
  have smallb := b.toNat_lt
  have smallc := c.toNat_lt
  have whole : (a.toNat % 4 * 16 + b.toNat / 16) % 16 * 16 + (b.toNat % 16 * 4 + c.toNat / 64) / 4 =
      b.toNat := by omega
  rw [second,whole,UInt8.ofNat_toNat]

theorem third_bytes : third (b.toNat % 16 * 4 + c.toNat / 64) (c.toNat % 64) = c := by
  have smallc := c.toNat_lt
  have whole : (b.toNat % 16 * 4 + c.toNat / 64) % 4 * 64 + c.toNat % 64 = c.toNat := by omega
  rw [third,whole,UInt8.ofNat_toNat]

end Groups

theorem decode_encode (text : Bytes) : decode (encode text) = some text := by
  induction text using encode.induct with
  | case1 a b c rest ih =>
    have smalla := a.toNat_lt
    have smallb := b.toNat_lt
    have smallc := c.toNat_lt
    rw [encode,decode,value_char (by omega),value_char (by omega),value_char (by omega),
      value_char (by omega),ih]
    simp [first_bytes,second_bytes,third_bytes]
  | case2 a b =>
    have smalla := a.toNat_lt
    have smallb := b.toNat_lt
    rw [encode,decode,value_char (by omega),value_char (by omega),value_char (by omega)]
    have last := second_bytes a b 0
    simp only [UInt8.toNat_zero,Nat.zero_div,Nat.add_zero] at last
    simp [first_bytes,last]
  | case3 a =>
    have smalla := a.toNat_lt
    rw [encode,decode,value_char (by omega),value_char (by omega)]
    have last := first_bytes a 0
    simp only [UInt8.toNat_zero,Nat.zero_div,Nat.add_zero] at last
    simp [last]
  | case4 => rfl

end Base64
