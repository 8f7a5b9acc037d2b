import Mathlib.Data.Nat.Bitwise
import Mathlib.Tactic.Common

/-!
# Hexadecimal strings

`decode` reads a string of hex digits, in either case, two to a byte, and
`encode` writes bytes back in lower case.  `decode_encode` says that what is
written is read back.
-/

namespace Hex

def digit (c : Char) : Option UInt8 :=
  if '0' ≤ c ∧ c ≤ '9' then some (UInt8.ofNat (c.toNat - '0'.toNat))
  else if 'a' ≤ c ∧ c ≤ 'f' then some (UInt8.ofNat (c.toNat - 'a'.toNat + 10))
  else if 'A' ≤ c ∧ c ≤ 'F' then some (UInt8.ofNat (c.toNat - 'A'.toNat + 10))
  else none

/-- Two digits to a byte; `none` on an odd length or a character that is no digit. -/
def decodeChars : List Char → Option (List UInt8)
  | [] => some []
  | hi :: lo :: rest => do
    let hi ← digit hi
    let lo ← digit lo
    let rest ← decodeChars rest
    some (((hi <<< 4) ||| lo) :: rest)
  | [_] => none

def decode (s : String) : Option (List UInt8) := decodeChars s.toList

def char (d : UInt8) : Char :=
  if d < 10 then Char.ofNat ('0'.toNat + d.toNat) else Char.ofNat ('a'.toNat + (d.toNat - 10))

def encodeChars (bytes : List UInt8) : List Char :=
  bytes.flatMap fun b : UInt8 => [char (b >>> 4), char (b &&& 15)]

def encode (bytes : List UInt8) : String := String.ofList (encodeChars bytes)

theorem digit_char_ofNat : ∀ n < 16, digit (char (UInt8.ofNat n)) = some (UInt8.ofNat n) := by
  decide

theorem digit_char {d : UInt8} (h : d.toNat < 16) : digit (char d) = some d := by
  have := digit_char_ofNat d.toNat h
  rwa [UInt8.ofNat_toNat] at this

theorem nibbles (b : UInt8) : ((b >>> 4) <<< 4) ||| (b &&& 15) = b := by
  have hb := b.toNat_lt
  have hhi : ((b >>> 4) <<< 4).toNat = (b.toNat / 16) <<< 4 := by
    rw [UInt8.toNat_shiftLeft, UInt8.toNat_shiftRight, show UInt8.toNat 4 % 8 = 4 from rfl,
      Nat.shiftRight_eq_div_pow, Nat.mod_eq_of_lt]
    rw [Nat.shiftLeft_eq]
    omega
  have hlo : (b &&& 15).toNat = b.toNat % 16 := by
    rw [UInt8.toNat_and, show UInt8.toNat 15 = 2 ^ 4 - 1 from rfl, Nat.and_two_pow_sub_one_eq_mod]
  rw [← UInt8.toNat_inj, UInt8.toNat_or, hhi, hlo,
    ← Nat.shiftLeft_add_eq_or_of_lt (Nat.mod_lt _ (by decide)), Nat.shiftLeft_eq]
  omega

theorem decodeChars_encodeChars (bytes : List UInt8) :
    decodeChars (encodeChars bytes) = some bytes := by
  induction bytes with
  | nil => rfl
  | cons b bytes ih =>
    have hb := b.toNat_lt
    have hhi : (b >>> 4).toNat < 16 := by
      rw [UInt8.toNat_shiftRight, show UInt8.toNat 4 % 8 = 4 from rfl, Nat.shiftRight_eq_div_pow]
      omega
    have hlo : (b &&& 15).toNat < 16 := by
      rw [UInt8.toNat_and, show UInt8.toNat 15 = 2 ^ 4 - 1 from rfl, Nat.and_two_pow_sub_one_eq_mod]
      exact Nat.mod_lt _ (by decide)
    show decodeChars (char (b >>> 4) :: char (b &&& 15) :: encodeChars bytes) = some (b :: bytes)
    rw [decodeChars, digit_char hhi, digit_char hlo, ih]
    show some (((b >>> 4) <<< 4 ||| (b &&& 15)) :: bytes) = some (b :: bytes)
    rw [nibbles]

/-- **What is written is read back.** -/
@[simp] theorem decode_encode (bytes : List UInt8) : decode (encode bytes) = some bytes := by
  rw [decode, encode, String.toList_ofList, decodeChars_encodeChars]

end Hex
