import GpuQuota.Proofs.Number.Rounding

/-!
# 32-bit floats

`single` rounds to the 24 significant bits of a 32-bit float and sets the exponent no bounds. A
float does: its rounding is `single` as long as the result is zero or lies between the smallest
normal float and the largest one.

A computation in floats is therefore a computation in rationals with a rounding after each step,
provided that no intermediate result leaves this range. That is what the second half of the module
is for. A range between two powers of two is kept by rounding, and sums up under multiplication and
division, so that the range of a long expression is read off its shape.

* `single_le_single`, `single_single`, `single_natCast`: `single` is monotone and idempotent, and
  whole numbers up to `2 ^ 24` are exact;
* `le_clampTrunc`, `clampTrunc_le`: cutting off the fraction does not pass a whole number;
* `Spans` is a range between two powers of two, which rounding does not leave (`Spans.single`);
* `float?` rounds where the result is a float, and `quotient?` divides where there is a quotient:
  `Spans.float?_eq` says when they do.
-/

namespace GpuQuota.Number

variable {x y : ℚ}

/-! ## Rounding to 24 bits

The laws of rounding to any number of places, at the 24 of a 32-bit float. -/

/-- Zero is no special case. -/
@[simp]
theorem single_zero : single 0 = 0 := roundTo_zero 24

/-- Rounding is the same on both sides of zero. -/
@[simp]
theorem single_neg (x : ℚ) : single (-x) = -single x := roundTo_neg 24 x

/-- A float is its own rounding. -/
@[simp]
theorem single_single (x : ℚ) : single (single x) = single x := roundTo_roundTo x

/-- Rounding keeps the order, though it may make different numbers equal. -/
theorem single_le_single (h : x ≤ y) : single x ≤ single y := roundTo_le_roundTo h

/-- It does not lead below zero. -/
theorem single_nonneg (h : 0 ≤ x) : 0 ≤ single x := roundTo_nonneg h

/-- A whole number of at most 24 bits is a float, and so is `2 ^ 24` itself. -/
theorem single_intCast {n : ℤ} (h : n.natAbs ≤ 2 ^ 24) : single n = n := by
  have hexact := roundTo_mul_zpow (p := 24) h 0
  rwa [zpow_zero, mul_one] at hexact

/-- The same for a number without a sign. -/
theorem single_natCast {n : ℕ} (h : n ≤ 2 ^ 24) : single n = n := by
  have hexact := single_intCast (n := n) (by simpa using h)
  rwa [Int.cast_natCast] at hexact

/-- A power of two has one significant bit. -/
theorem single_two_zpow (e : ℤ) : single (2 ^ e) = 2 ^ e := by
  have hexact := roundTo_mul_zpow (p := 24) (n := 1) (by decide) e
  rwa [Int.cast_one, one_mul] at hexact

/-- The size of a rounding is the rounding of the size. -/
theorem abs_single (x : ℚ) : |single x| = single |x| := by
  rcases le_total 0 x with h | h
  · rw [abs_of_nonneg h, abs_of_nonneg (single_nonneg h)]
  · have hneg := single_nonneg (neg_nonneg.2 h)
    rw [abs_of_nonpos h, single_neg, abs_of_nonpos]
    rw [single_neg] at hneg
    exact neg_nonneg.1 hneg

/-- What is not small is rounded to a multiple of no small unit. -/
theorem exists_single_eq {e : ℤ} (h : 2 ^ e ≤ |x|) : ∃ n : ℤ, single x = n * 2 ^ (e - 23) := by
  obtain ⟨n, -, heq⟩ := exists_roundTo_eq (p := 24) x
  have hlog := (two_zpow_le_iff ((two_zpow_pos e).trans_le h)).1 h
  have hunit : unitOf 24 x = Int.log 2 |x| - 23 := by rw [unitOf]; omega
  refine ⟨n * 2 ^ (Int.log 2 |x| - e).toNat, ?_⟩
  rw [single, heq, hunit, Int.cast_mul, Int.cast_pow, Int.cast_ofNat, mul_assoc, ← zpow_natCast,
    Int.toNat_of_nonneg (by omega), ← zpow_add₀ two_ne_zero]
  congr 2
  ring

/-! ## Without the fraction

A float becomes a whole number by losing its fraction, towards zero. What lies above a whole number
stays there, and what lies below it stays below: that is all the direction of a retuning needs. -/

/-- Above zero this is the floor. -/
theorem towardZero_of_nonneg (h : 0 ≤ x) : towardZero x = ⌊x⌋ := by
  rw [towardZero, Rat.floor_def', Int.tdiv_eq_ediv_of_nonneg (Rat.num_nonneg.2 h)]

/-- Below zero it leads no further than zero. -/
theorem towardZero_nonpos (h : x ≤ 0) : towardZero x ≤ 0 := by
  have hnum : 0 ≤ (-x.num).tdiv x.den :=
    Int.tdiv_nonneg (neg_nonneg.2 (Rat.num_nonpos.2 h)) (Int.natCast_nonneg _)
  rwa [Int.neg_tdiv, neg_nonneg] at hnum

/-- What is at least a whole number is not cut off below it. -/
theorem le_towardZero {n : ℤ} (hn : 0 ≤ n) (h : n ≤ x) : n ≤ towardZero x := by
  have hx : 0 ≤ x := (Int.cast_nonneg hn).trans h
  rw [towardZero_of_nonneg hx]
  exact Int.le_floor.2 h

/-- What is at most a whole number is not cut off above it. -/
theorem towardZero_le {n : ℤ} (hn : 0 ≤ n) (h : x ≤ n) : towardZero x ≤ n := by
  rcases le_total 0 x with hx | hx
  · rw [towardZero_of_nonneg hx]
    exact_mod_cast (Int.floor_le x).trans h
  · exact (towardZero_nonpos hx).trans hn

/-- Stopping at the ends of a range changes nothing about that, if the whole number is in the
range. -/
theorem le_clampTrunc {low high n : ℤ} (hn : 0 ≤ n) (hhigh : n ≤ high) (h : n ≤ x) :
    n ≤ clampTrunc low high x := by
  have htrunc := le_towardZero hn h
  rw [clampTrunc]
  omega

/-- On the other side as well. -/
theorem clampTrunc_le {low high n : ℤ} (hn : 0 ≤ n) (hlow : low ≤ n) (h : x ≤ n) :
    clampTrunc low high x ≤ n := by
  have htrunc := towardZero_le hn h
  rw [clampTrunc]
  omega

/-! ## Between powers of two

The operations on ranges follow those on exponents: a product adds them, a quotient subtracts them
crosswise. Only positive numbers have a range in this sense, so a sum that may cancel has none, and
is looked at as a multiple of a unit instead (`float?_eq_of_multiple`). -/

/-- The fraction lies between two powers of two. -/
structure Spans (low high : ℤ) (x : ℚ) : Prop where
  le : 2 ^ low ≤ x
  ge : x ≤ 2 ^ high

namespace Spans

variable {low high low' high' : ℤ}

/-- What lies between powers of two is positive. -/
theorem pos (h : Spans low high x) : 0 < x := (two_zpow_pos low).trans_le h.le

/-- A positive number of `k` bits. -/
theorem natCast {n k : ℕ} (hone : 1 ≤ n) (h : n ≤ 2 ^ k) : Spans 0 k n where
  le := by rw [zpow_zero]; exact_mod_cast hone
  ge := by rw [zpow_natCast]; exact_mod_cast h

/-- A product lies between the products of the ends. -/
protected theorem mul (hx : Spans low high x) (hy : Spans low' high' y) :
    Spans (low + low') (high + high') (x * y) where
  le := by
    rw [zpow_add₀ two_ne_zero]
    exact mul_le_mul hx.le hy.le (two_zpow_pos _).le hx.pos.le
  ge := by
    rw [zpow_add₀ two_ne_zero]
    exact mul_le_mul hx.ge hy.ge hy.pos.le (two_zpow_pos _).le

/-- And a quotient between the quotients, each end by the opposite one. -/
protected theorem div (hx : Spans low high x) (hy : Spans low' high' y) :
    Spans (low - high') (high - low') (x / y) where
  le := by
    rw [zpow_sub₀ two_ne_zero]
    exact div_le_div₀ hx.pos.le hx.le hy.pos hy.ge
  ge := by
    rw [zpow_sub₀ two_ne_zero]
    exact div_le_div₀ (two_zpow_pos _).le hx.ge (two_zpow_pos _) hy.le

/-- **Rounding does not leave the range.** -/
protected theorem single (h : Spans low high x) : Spans low high (single x) where
  le := by
    rw [← single_two_zpow low]
    exact single_le_single h.le
  ge := by
    rw [← single_two_zpow high]
    exact single_le_single h.ge

end Spans

/-! ## Where there is a float

Normal floats reach from `2 ^ (-126)` to just below `2 ^ 128`. Whatever is known to lie between two
powers of two in there is rounded to a float. -/

/-- Zero, or of a size between the smallest normal 32-bit float and the largest one, which is below
`2 ^ 128`. -/
def IsNormal (x : ℚ) : Prop := x = 0 ∨ 2 ^ (-126 : ℤ) ≤ |x| ∧ |x| < 2 ^ (128 : ℤ)

instance (x : ℚ) : Decidable (IsNormal x) :=
  inferInstanceAs (Decidable (x = 0 ∨ 2 ^ (-126 : ℤ) ≤ |x| ∧ |x| < 2 ^ (128 : ℤ)))

/-- The 32-bit float nearest to a fraction; none where that would be infinite or short of bits. -/
def float? (x : ℚ) : Option ℚ := if IsNormal (single x) then some (single x) else none

/-- The quotient of two floats; none for a divisor of zero. -/
def quotient? (x y : ℚ) : Option ℚ := if y = 0 then none else float? (x / y)

/-- Zero is a float. -/
@[simp]
theorem float?_zero : float? 0 = some 0 := if_pos (Or.inl rfl)

/-- What matters is the size of a number, since there are floats of both signs. -/
theorem float?_eq_of_abs {low high : ℤ} (h : Spans low high |x|) (hlow : -126 ≤ low)
    (hhigh : high ≤ 127) : float? x = some (single x) := by
  have hsize := h.single
  rw [← abs_single] at hsize
  apply if_pos
  right
  constructor
  · exact (zpow_le_zpow_right₀ one_le_two hlow).trans hsize.le
  · exact hsize.ge.trans_lt (zpow_lt_zpow_right₀ one_lt_two (by omega))

/-- A positive number in the range of the floats is rounded to one. -/
theorem Spans.float?_eq {low high : ℤ} (h : Spans low high x) (hlow : -126 ≤ low)
    (hhigh : high ≤ 127) : float? x = some (single x) := by
  rw [← abs_of_pos h.pos] at h
  exact float?_eq_of_abs h hlow hhigh

/-- Whole numbers of at most 24 bits, zero included, need no rounding. -/
theorem float?_natCast {n : ℕ} (h : n ≤ 2 ^ 24) : float? n = some (n : ℚ) := by
  rcases Nat.eq_zero_or_pos n with rfl | hn
  · exact float?_zero
  · rw [(Spans.natCast hn h).float?_eq (by decide) (by decide), single_natCast h]

/-- A multiple of a unit that is not too small is not too small, unless it is zero. -/
theorem float?_eq_of_multiple {n low high : ℤ} (h : x = n * 2 ^ low) (hsize : |x| ≤ 2 ^ high)
    (hlow : -126 ≤ low) (hhigh : high ≤ 127) : float? x = some (single x) := by
  rcases eq_or_ne n 0 with rfl | hn
  · rw [Int.cast_zero, zero_mul] at h
    rw [h, float?_zero, single_zero]
  · refine float?_eq_of_abs ⟨?_, hsize⟩ hlow hhigh
    have hone : (1 : ℚ) ≤ |(n : ℚ)| := by
      rw [← Int.cast_abs]
      exact_mod_cast Int.one_le_abs hn
    rw [h, abs_mul, abs_of_pos (two_zpow_pos low)]
    exact le_mul_of_one_le_left (two_zpow_pos low).le hone

/-- Two positive numbers have a quotient, if it lies in the range. -/
theorem Spans.quotient?_eq {low high low' high' : ℤ} (hx : Spans low high x)
    (hy : Spans low' high' y) (hlow : -126 ≤ low - high') (hhigh : high - low' ≤ 127) :
    quotient? x y = some (single (x / y)) :=
  (if_neg hy.pos.ne').trans ((hx.div hy).float?_eq hlow hhigh)

/-- And zero has one by anything else. -/
theorem quotient?_zero (h : y ≠ 0) : quotient? 0 y = some 0 := by
  rw [quotient?, if_neg h, zero_div, float?_zero]

end GpuQuota.Number
