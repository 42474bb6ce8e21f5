import GpuQuota.Number.Decimal
import GpuQuota.Number.Rounding
import GpuQuota.Text.Blank
import GpuQuota.Text.Segment

/-!
# Sizes in binary units

A size is a decimal number, with or without a fraction, and one letter for its unit: `1.5G` is
one and a half gibibytes. The number is rounded to a 64-bit float before it is multiplied, and
what lies past the largest 64-bit word counts as that word.
-/

namespace GpuQuota.Settings.Size

open GpuQuota.Text GpuQuota.Number

/-- The largest 64-bit word. -/
def maxBytes : Nat := UInt64.size - 1

/-- Characters that a number is made of. -/
def isNumeral (c : Char) : Bool :=
  (digit? c).isSome || c == '.'

/-- The value of digits with at most one point among them; at least one digit is needed. -/
def fraction? (s : List Char) : Option Rat :=
  let (whole, part) := (cutFirst '.' s).getD (s, [])
  let all := whole ++ part
  if all ≠ [] ∧ all.all fun c => (digit? c).isSome then
    some (mkRat (valueFrom 0 all) (powerOfTen part.length))
  else none

/-- The unit that the text behind the number names by its first letter: bytes when there is
none. What follows the letter plays no part, so `GiB` and `Gb` both mean `G`. -/
def unit? : List Char → Option Nat
  | [] => some 1
  | 'K' :: _ | 'k' :: _ => some (1 <<< 10)
  | 'M' :: _ | 'm' :: _ => some (1 <<< 20)
  | 'G' :: _ | 'g' :: _ => some (1 <<< 30)
  | 'T' :: _ | 't' :: _ => some (1 <<< 40)
  | _ => none

/-- So many units in bytes. -/
def bytesOf (number : Rat) (unit : Nat) : Nat :=
  (clampTrunc 0 maxBytes (double number * unit)).toNat

/-- The size that a text stands for, blanks around it aside. -/
def read? (text : List Char) : Option UInt64 := do
  let text := trim text
  let number ← fraction? (text.takeWhile isNumeral)
  let unit ← unit? (text.dropWhile isNumeral)
  return UInt64.ofNat (bytesOf number unit)

end GpuQuota.Settings.Size
