/-!
# Rounding to a binary precision

Binary floating-point arithmetic is exact arithmetic on fractions followed by one rounding. A
value with `precision` significant bits is `m * 2 ^ e` with `m < 2 ^ precision`; rounding takes a
fraction to the nearest such value, a tie to the even `m`. The exponent is not bounded here: the
quantities that are rounded in this library stay far from the largest and the smallest float of
either width.

* `halfEven_mul`: an integer is its own rounding.
* `halfEven_two_mul_le` and `le_halfEven_two_mul`: a rounded quotient is within one half.
-/

namespace GpuQuota.Number

/-- The integer nearest to `num / den`, and of two equally near ones the even one. -/
def halfEven (num den : Nat) : Nat :=
  let quotient := num / den
  let rest := 2 * (num % den)
  if rest < den ∨ (rest = den ∧ quotient % 2 = 0) then quotient else quotient + 1

/-- The exponent `e` for which `num / den` lies in `2 ^ (precision - 1 + e) ≤ · < 2 ^ (precision +
e)`. -/
def scaleOf (precision num den : Nat) : Int :=
  let guess : Int := (Nat.log2 num : Int) - Nat.log2 den - precision + 1
  let (n, d) := if 0 ≤ guess then (num, den <<< guess.toNat) else (num <<< (-guess).toNat, den)
  if n < d <<< (precision - 1) then guess - 1 else guess

/-- The multiple of `2 ^ scale` nearest to `num / den`. -/
def nearestMultiple (scale : Int) (num den : Nat) : Rat :=
  if 0 ≤ scale then ((halfEven num (den <<< scale.toNat) <<< scale.toNat : Nat) : Rat)
  else mkRat (halfEven (num <<< (-scale).toNat) den) (1 <<< (-scale).toNat)

/-- The value nearest to `x` that has `precision` significant bits; the sign plays no part in
the choice. -/
def roundTo (precision : Nat) (x : Rat) : Rat :=
  let num := x.num.natAbs
  if num = 0 then 0
  else
    let size := nearestMultiple (scaleOf precision num x.den) num x.den
    if x.num < 0 then -size else size

/-- The integer between zero and `x` that is nearest to `x`. -/
def towardZero (x : Rat) : Int :=
  Int.tdiv x.num x.den

/-- `x` without its fraction, moved to the nearer end where it lies outside `low … high`. -/
def clampTrunc (low high : Int) (x : Rat) : Int :=
  max low (min high (towardZero x))

/-- The value of a 32-bit float: 24 significant bits. -/
def single (x : Rat) : Rat := roundTo 24 x

/-- The value of a 64-bit float: 53 significant bits. -/
def double (x : Rat) : Rat := roundTo 53 x

theorem halfEven_mul (n : Nat) {den : Nat} (h : 0 < den) : halfEven (n * den) den = n := by
  simp [halfEven, Nat.mul_div_cancel n h, h]

theorem halfEven_two_mul_le (num : Nat) {den : Nat} (h : 0 < den) :
    2 * (halfEven num den * den) ≤ 2 * num + den := by
  have hdm := Nat.div_add_mod num den
  have hlt := Nat.mod_lt num h
  have hc : num / den * den = den * (num / den) := Nat.mul_comm _ _
  simp only [halfEven]
  split
  · omega
  · rw [Nat.add_mul]
    omega

theorem le_halfEven_two_mul (num : Nat) {den : Nat} (h : 0 < den) :
    2 * num ≤ 2 * (halfEven num den * den) + den := by
  have hdm := Nat.div_add_mod num den
  have hlt := Nat.mod_lt num h
  have hc : num / den * den = den * (num / den) := Nat.mul_comm _ _
  simp only [halfEven]
  split
  · omega
  · rw [Nat.add_mul]
    omega

end GpuQuota.Number
