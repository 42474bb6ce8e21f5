import GpuQuota.Number.Rounding
import Mathlib.Data.Int.Log
import Mathlib.Data.Rat.Floor
import Mathlib.Tactic.Linarith
import Mathlib.Tactic.Positivity

/-!
# Rounding keeps the order

A rounded value is a multiple of the unit in the last place of what is rounded. Two facts carry most
of what is said about rounded results: rounding is monotone, and what has few enough significant
bits is its own rounding. So where the arguments of an operation lie between two such values, its
result does.

* `nearestNat` is the rounding to a natural number, as a function of the fraction alone, and
  `nearestNat_le_nearestNat` says that it is monotone;
* `roundTo_of_pos` says what a rounding is in terms of it;
* `roundTo_le_roundTo` and `roundTo_mul_zpow` are the two facts, and `roundTo_roundTo` follows: what
  is rounded stays as it is.
-/

namespace GpuQuota.Number

/-! ## To a natural number

The program rounds a numerator over a denominator. How a fraction is written does not matter to the
result (`halfEven_eq_nearestNat`), so that from here on the rounding is one of rational numbers. -/

/-- A fraction in the middle goes to the even neighbour. -/
theorem halfEven_mod_two {num den m : ℕ} (hden : 0 < den) (h : 2 * num = (2 * m + 1) * den) :
    halfEven num den % 2 = 0 := by
  have hmid : 2 * num = 2 * (m * den) + den := by rw [h]; ring
  have hquotient : num / den = m :=
    Nat.div_eq_of_lt_le (by omega) (by rw [Nat.add_mul]; omega)
  have hrest : 2 * (num % den) = den := by
    have hdm := Nat.div_add_mod num den
    rw [hquotient, Nat.mul_comm] at hdm
    omega
  simp only [halfEven, hquotient, hrest, Nat.lt_irrefl, true_and, false_or]
  split <;> omega

/-- A larger fraction has no smaller neighbour. -/
theorem halfEven_le_halfEven {num den num' den' : ℕ} (hden : 0 < den) (hden' : 0 < den')
    (h : num * den' ≤ num' * den) : halfEven num den ≤ halfEven num' den' := by
  have hlow := halfEven_two_mul_le num hden
  have hhigh := le_halfEven_two_mul num' hden'
  have heven : ∀ {m}, 2 * num = (2 * m + 1) * den → halfEven num den % 2 = 0 :=
    halfEven_mod_two hden
  have heven' : ∀ {m}, 2 * num' = (2 * m + 1) * den' → halfEven num' den' % 2 = 0 :=
    halfEven_mod_two hden'
  generalize halfEven num den = k at *
  generalize halfEven num' den' = l at *
  by_contra hlt
  obtain ⟨j, rfl⟩ : ∃ j, k = l + 1 + j := ⟨k - (l + 1), by omega⟩
  -- both fractions are squeezed into the middle between the neighbours
  have hfirst : (2 * l + 1) * den + 2 * j * den ≤ 2 * num := by nlinarith
  have hlast : 2 * num' ≤ (2 * l + 1) * den' := by nlinarith
  have hj : j = 0 := by
    by_contra hj
    have : 0 < j * den * den' := by positivity
    nlinarith
  subst hj
  have hmid : 2 * num = (2 * l + 1) * den := by
    apply Nat.le_antisymm _ (by omega)
    apply Nat.le_of_mul_le_mul_right _ hden'
    nlinarith
  have hmid' : 2 * num' = (2 * l + 1) * den' := by
    apply Nat.le_antisymm hlast
    apply Nat.le_of_mul_le_mul_right _ hden
    nlinarith
  have := heven hmid
  have := heven' hmid'
  omega

/-- The natural number nearest to a fraction, and of two equally near ones the even one. -/
def nearestNat (x : ℚ) : ℕ := halfEven x.num.natAbs x.den

/-- A fraction that is not negative is its numerator over its denominator. -/
theorem natAbs_num_div_den {x : ℚ} (h : 0 ≤ x) : (x.num.natAbs : ℚ) / x.den = x := by
  have hnum : ((x.num.natAbs : ℤ) : ℚ) = x.num := by
    rw [Int.natAbs_of_nonneg (Rat.num_nonneg.2 h)]
  rw [← Int.cast_natCast, hnum, Rat.num_div_den]

/-- It is a matter of the fraction and not of how that is written. -/
theorem halfEven_eq_nearestNat (num : ℕ) {den : ℕ} (hden : 0 < den) :
    halfEven num den = nearestNat (num / den) := by
  have hden' : (0 : ℚ) < den := Nat.cast_pos.2 hden
  have hx := natAbs_num_div_den (x := (num : ℚ) / den) (by positivity)
  have hpos := ((num : ℚ) / den).den_pos
  rw [div_eq_div_iff (by positivity) (by positivity)] at hx
  have hcross : num * ((num : ℚ) / den).den = ((num : ℚ) / den).num.natAbs * den := by
    exact_mod_cast hx.symm
  exact Nat.le_antisymm (halfEven_le_halfEven hden hpos hcross.le)
    (halfEven_le_halfEven hpos hden hcross.ge)

/-- **Rounding to a natural number is monotone.** -/
theorem nearestNat_le_nearestNat {x y : ℚ} (hx : 0 ≤ x) (h : x ≤ y) :
    nearestNat x ≤ nearestNat y := by
  apply halfEven_le_halfEven x.den_pos y.den_pos
  have hxden : (0 : ℚ) < x.den := Nat.cast_pos.2 x.den_pos
  have hyden : (0 : ℚ) < y.den := Nat.cast_pos.2 y.den_pos
  have hcross : (x.num.natAbs : ℚ) / x.den ≤ y.num.natAbs / y.den := by
    rwa [natAbs_num_div_den hx, natAbs_num_div_den (hx.trans h)]
  rw [div_le_div_iff₀ hxden hyden] at hcross
  exact_mod_cast hcross

/-- A natural number is the one nearest to itself. -/
@[simp]
theorem nearestNat_natCast (n : ℕ) : nearestNat n = n := by
  have h := halfEven_eq_nearestNat n Nat.one_pos
  rw [Nat.cast_one, div_one] at h
  rw [← h, ← Nat.mul_one n, halfEven_mul n Nat.one_pos, Nat.mul_one]

/-! ## To a precision

The unit in the last place of `x` is `2 ^ unitOf p x`. The program finds its exponent by shifting
numerator and denominator until they compare; by `scaleOf_eq` it is that of `Int.log`. -/

theorem two_zpow_pos (e : ℤ) : (0 : ℚ) < 2 ^ e := zpow_pos two_pos e

/-- A power of two is not above a fraction if its exponent is not above the logarithm. -/
theorem two_zpow_le_iff {x : ℚ} (h : 0 < x) {e : ℤ} : 2 ^ e ≤ x ↔ e ≤ Int.log 2 x := by
  rw [← Int.zpow_le_iff_le_log one_lt_two h, Nat.cast_ofNat]

/-- A fraction is below a power of two if its logarithm is below the exponent. -/
theorem lt_two_zpow_iff {x : ℚ} (h : 0 < x) {e : ℤ} : x < 2 ^ e ↔ Int.log 2 x < e := by
  rw [← Int.lt_zpow_iff_log_lt one_lt_two h, Nat.cast_ofNat]

/-- A shift by either sign is a product with a power of two. -/
theorem shiftLeft_zpow (n : ℕ) {e : ℤ} (h : 0 ≤ e) : ((n <<< e.toNat : ℕ) : ℚ) = n * 2 ^ e := by
  rw [Nat.shiftLeft_eq, Nat.cast_mul, Nat.cast_pow, Nat.cast_ofNat, ← zpow_natCast,
    Int.toNat_of_nonneg h]

/-- The binary digits of numerator and denominator tell the largest power of two not above a
fraction, but for one place. -/
theorem log_div (num den : ℕ) (hnum : 0 < num) (hden : 0 < den) :
    Int.log 2 ((num : ℚ) / den) =
      if (num : ℚ) / den < 2 ^ ((num.log2 : ℤ) - den.log2) then (num.log2 : ℤ) - den.log2 - 1
      else (num.log2 : ℤ) - den.log2 := by
  have hden' : (0 : ℚ) < den := Nat.cast_pos.2 hden
  have hpos : (0 : ℚ) < num / den := div_pos (Nat.cast_pos.2 hnum) hden'
  have hnumLow : ((2 : ℚ) ^ (num.log2 : ℤ)) ≤ num := by
    exact_mod_cast Nat.log2_self_le hnum.ne'
  have hnumHigh : (num : ℚ) < 2 ^ (num.log2 + 1 : ℤ) := by
    exact_mod_cast Nat.lt_log2_self (n := num)
  have hdenLow : ((2 : ℚ) ^ (den.log2 : ℤ)) ≤ den := by
    exact_mod_cast Nat.log2_self_le hden.ne'
  have hdenHigh : (den : ℚ) < 2 ^ (den.log2 + 1 : ℤ) := by
    exact_mod_cast Nat.lt_log2_self (n := den)
  -- the digits of numerator and denominator leave one place open
  have hlow : (2 : ℚ) ^ ((num.log2 : ℤ) - den.log2 - 1) ≤ num / den := by
    rw [le_div_iff₀ hden']
    calc (2 : ℚ) ^ ((num.log2 : ℤ) - den.log2 - 1) * den
        ≤ 2 ^ ((num.log2 : ℤ) - den.log2 - 1) * 2 ^ (den.log2 + 1 : ℤ) :=
          mul_le_mul_of_nonneg_left hdenHigh.le (two_zpow_pos _).le
      _ = 2 ^ (num.log2 : ℤ) := by rw [← zpow_add₀ two_ne_zero]; congr 1; ring
      _ ≤ num := hnumLow
  have hhigh : (num : ℚ) / den < 2 ^ ((num.log2 : ℤ) - den.log2 + 1) := by
    rw [div_lt_iff₀ hden']
    calc (num : ℚ) < 2 ^ (num.log2 + 1 : ℤ) := hnumHigh
      _ = 2 ^ ((num.log2 : ℤ) - den.log2 + 1) * 2 ^ (den.log2 : ℤ) := by
          rw [← zpow_add₀ two_ne_zero]; congr 1; ring
      _ ≤ 2 ^ ((num.log2 : ℤ) - den.log2 + 1) * den :=
          mul_le_mul_of_nonneg_left hdenLow (two_zpow_pos _).le
  rw [two_zpow_le_iff hpos] at hlow
  rw [lt_two_zpow_iff hpos] at hhigh
  simp only [lt_two_zpow_iff hpos]
  split <;> omega

/-- A fraction is compared with a power of two by shifting its denominator. -/
theorem lt_shiftLeft_iff (num : ℕ) {den : ℕ} (hden : 0 < den) {e : ℤ} (h : 0 ≤ e) (places : ℕ) :
    num < den <<< e.toNat <<< places ↔ (num : ℚ) / den < 2 ^ (e + places) := by
  have hplaces := shiftLeft_zpow (den <<< e.toNat) (Int.natCast_nonneg places)
  rw [Int.toNat_natCast, shiftLeft_zpow den h] at hplaces
  rw [div_lt_iff₀ (Nat.cast_pos.2 hden), ← Nat.cast_lt (α := ℚ), hplaces, zpow_add₀ two_ne_zero,
    mul_assoc, mul_comm]

/-- For one that is smaller the numerator is shifted, too. -/
theorem shiftLeft_lt_shiftLeft_iff (num : ℕ) {den : ℕ} (hden : 0 < den) {e : ℤ} (h : e ≤ 0)
    (places : ℕ) :
    num <<< (-e).toNat < den <<< places ↔ (num : ℚ) / den < 2 ^ (e + places) := by
  have hplaces := shiftLeft_zpow den (Int.natCast_nonneg places)
  rw [Int.toNat_natCast] at hplaces
  rw [div_lt_iff₀ (Nat.cast_pos.2 hden), ← Nat.cast_lt (α := ℚ), hplaces,
    shiftLeft_zpow num (by omega), zpow_add₀ two_ne_zero, zpow_neg,
    ← div_eq_mul_inv, div_lt_iff₀ (two_zpow_pos e)]
  ring_nf

/-- The exponent is that of the largest power of two not above the fraction, less the places behind
the first. -/
theorem scaleOf_eq (p : ℕ) [NeZero p] {num den : ℕ} (hnum : 0 < num)
    (hden : 0 < den) :
    scaleOf p num den = Int.log 2 ((num : ℚ) / den) - p + 1 := by
  have hprecision : 0 < p := NeZero.pos p
  have hguess : (num.log2 : ℤ) - den.log2 =
      (num.log2 : ℤ) - den.log2 - p + 1 + (p - 1 : ℕ) := by omega
  rw [log_div num den hnum hden, scaleOf]
  by_cases hless : (num : ℚ) / den < 2 ^ ((num.log2 : ℤ) - den.log2)
  · rw [if_pos hless]
    rw [hguess] at hless
    dsimp only
    split
    · next h => rw [if_pos ((lt_shiftLeft_iff num hden h _).2 hless)]; omega
    · next h => rw [if_pos ((shiftLeft_lt_shiftLeft_iff num hden (by omega) _).2 hless)]; omega
  · rw [if_neg hless]
    rw [hguess] at hless
    dsimp only
    split
    · next h => rw [if_neg (mt (lt_shiftLeft_iff num hden h _).1 hless)]
    · next h => rw [if_neg (mt (shiftLeft_lt_shiftLeft_iff num hden (by omega) _).1 hless)]

/-- What is kept of a fraction is its nearest multiple of the unit. -/
theorem nearestMultiple_eq (scale : ℤ) (num : ℕ) {den : ℕ} (hden : 0 < den) :
    nearestMultiple scale num den = nearestNat (num / den / 2 ^ scale) * 2 ^ scale := by
  rw [nearestMultiple]
  split
  · next h =>
    have hshift : 0 < den <<< scale.toNat := by
      rw [Nat.shiftLeft_eq]
      positivity
    rw [shiftLeft_zpow _ h, halfEven_eq_nearestNat _ hshift, shiftLeft_zpow _ h, div_div]
  · next h =>
    have hneg : 0 ≤ -scale := by omega
    have hone := shiftLeft_zpow 1 hneg
    rw [Nat.cast_one, one_mul] at hone
    rw [Rat.mkRat_eq_div, hone, halfEven_eq_nearestNat _ hden, shiftLeft_zpow _ hneg]
    rw [Int.cast_natCast, zpow_neg, div_inv_eq_mul]
    congr 3
    rw [div_eq_mul_inv _ ((2 : ℚ) ^ scale)]
    ring

/-- The exponent of the unit in the last place. -/
def unitOf (p : ℕ) (x : ℚ) : ℤ := Int.log 2 |x| - p + 1

variable {p : ℕ} {x y : ℚ}

@[simp]
theorem roundTo_zero (p : ℕ) : roundTo p 0 = 0 := rfl

/-- The sign plays no part. -/
@[simp]
theorem roundTo_neg (p : ℕ) (x : ℚ) : roundTo p (-x) = -roundTo p x := by
  simp only [roundTo, Rat.neg_num, Rat.neg_den, Int.natAbs_neg]
  split
  · rfl
  · split <;> split <;> first | omega | simp

/-- What is rounded has no more places before the unit than the precision says. -/
theorem div_unit_lt (h : 0 < x) : x / 2 ^ unitOf p x < 2 ^ p := by
  rw [div_lt_iff₀ (two_zpow_pos _), ← zpow_natCast, ← zpow_add₀ two_ne_zero, lt_two_zpow_iff h,
    unitOf, abs_of_pos h]
  omega

/-- So its nearest multiple of the unit has no more, or is the next power of two. -/
theorem nearestNat_div_unit_le (h : 0 < x) : nearestNat (x / 2 ^ unitOf p x) ≤ 2 ^ p := by
  have hle := nearestNat_le_nearestNat (div_pos h (two_zpow_pos _)).le
    (div_unit_lt (p := p) h).le
  rwa [← Nat.cast_ofNat, ← Nat.cast_pow, nearestNat_natCast] at hle

variable [NeZero p]

/-- What is rounded has as many places before the unit as the precision says. -/
theorem le_div_unit (h : 0 < x) : 2 ^ (p - 1) ≤ x / 2 ^ unitOf p x := by
  have hprecision : 0 < p := NeZero.pos p
  rw [le_div_iff₀ (two_zpow_pos _), ← zpow_natCast, ← zpow_add₀ two_ne_zero, two_zpow_le_iff h,
    unitOf, abs_of_pos h]
  omega

/-- What a rounding is: the nearest multiple of the unit in the last place. -/
theorem roundTo_of_pos (h : 0 < x) :
    roundTo p x =
      nearestNat (x / 2 ^ unitOf p x) * 2 ^ unitOf p x := by
  have hnum : 0 < x.num := Rat.num_pos.2 h
  have hx := natAbs_num_div_den h.le
  rw [roundTo, if_neg (by omega)]
  dsimp only
  rw [if_neg (by omega), scaleOf_eq p (by omega) x.den_pos, nearestMultiple_eq _ _ x.den_pos,
    hx, unitOf, abs_of_pos h]

/-- A rounded value does not leave its binade, but for the upper end. -/
theorem zpow_log_le_roundTo (h : 0 < x) : 2 ^ Int.log 2 x ≤ roundTo p x := by
  have hprecision : 0 < p := NeZero.pos p
  have hlow : 2 ^ (p - 1) ≤ nearestNat (x / 2 ^ unitOf p x) := by
    have h := nearestNat_le_nearestNat (by positivity) (le_div_unit (p := p) h)
    rwa [← Nat.cast_ofNat, ← Nat.cast_pow, nearestNat_natCast] at h
  have hbinade : Int.log 2 x = (p - 1 : ℕ) + unitOf p x := by
    rw [unitOf, abs_of_pos h]
    omega
  rw [roundTo_of_pos h, hbinade, zpow_add₀ two_ne_zero, zpow_natCast]
  exact mul_le_mul_of_nonneg_right (by exact_mod_cast hlow) (two_zpow_pos _).le

/-- A rounded value does not go beyond the upper end of its binade. -/
theorem roundTo_le_zpow_log (h : 0 < x) : roundTo p x ≤ 2 ^ (Int.log 2 x + 1) := by
  have hhigh := nearestNat_div_unit_le (p := p) h
  have hbinade : Int.log 2 x + 1 = (p : ℕ) + unitOf p x := by
    rw [unitOf, abs_of_pos h]
    omega
  rw [roundTo_of_pos h, hbinade, zpow_add₀ two_ne_zero, zpow_natCast]
  exact mul_le_mul_of_nonneg_right (by exact_mod_cast hhigh) (two_zpow_pos _).le

/-- A positive value does not vanish. -/
theorem roundTo_pos (h : 0 < x) : 0 < roundTo p x :=
  (two_zpow_pos _).trans_le (zpow_log_le_roundTo h)

theorem roundTo_nonneg (h : 0 ≤ x) : 0 ≤ roundTo p x := by
  rcases h.eq_or_lt with rfl | h
  · rfl
  · exact (roundTo_pos h).le

/-- Rounding is monotone for positive values. In one binade the unit is the same, and two binades
have their common end in between. -/
theorem roundTo_le_roundTo_of_pos (hx : 0 < x) (h : x ≤ y) :
    roundTo p x ≤ roundTo p y := by
  have hy := hx.trans_le h
  -- in one binade both have the same unit, and else a power of two lies between the roundings
  rcases (Int.log_mono_right (b := 2) hx h).eq_or_lt with hlog | hlog
  · have hunit : unitOf p y = unitOf p x := by
      rw [unitOf, unitOf, abs_of_pos hx, abs_of_pos hy, hlog]
    have hle := nearestNat_le_nearestNat (div_pos hx (two_zpow_pos _)).le
      (div_le_div_of_nonneg_right h (two_zpow_pos (unitOf p x)).le)
    rw [roundTo_of_pos hx, roundTo_of_pos hy, hunit]
    exact mul_le_mul_of_nonneg_right (by exact_mod_cast hle) (two_zpow_pos _).le
  · calc roundTo p x ≤ 2 ^ (Int.log 2 x + 1) := roundTo_le_zpow_log hx
      _ ≤ 2 ^ Int.log 2 y := zpow_le_zpow_right₀ one_le_two hlog
      _ ≤ roundTo p y := zpow_log_le_roundTo hy

/-- **Rounding is monotone.** -/
theorem roundTo_le_roundTo (h : x ≤ y) : roundTo p x ≤ roundTo p y := by
  rcases lt_or_ge 0 x with hx | hx
  · exact roundTo_le_roundTo_of_pos hx h
  · rcases le_or_gt 0 y with hy | hy
    · have hx' := roundTo_nonneg (p := p) (neg_nonneg.2 hx)
      rw [roundTo_neg] at hx'
      exact (neg_nonneg.1 hx').trans (roundTo_nonneg hy)
    · have hneg := roundTo_le_roundTo_of_pos (p := p) (neg_pos.2 hy) (neg_le_neg h)
      rwa [roundTo_neg, roundTo_neg, neg_le_neg_iff] at hneg

/-! ### What is its own rounding

A value of `p` binary places, whatever the exponent, is not changed. Since `2 ^ p` is such a value
of a larger unit, the bound may be reached. -/

/-- A multiple of its own unit is. -/
theorem roundTo_of_eq_mul (hx : 0 < x) {n : ℕ} (h : x = n * 2 ^ unitOf p x) :
    roundTo p x = x := by
  have hdiv : x / 2 ^ unitOf p x = n := by
    rw [div_eq_iff (two_zpow_pos _).ne', ← h]
  rw [roundTo_of_pos hx, hdiv, nearestNat_natCast, ← h]

/-- What has fewer places than the precision is its own rounding, whatever its exponent. -/
theorem roundTo_natCast_mul_zpow {n : ℕ} (h : n < 2 ^ p) (e : ℤ) :
    roundTo p (n * 2 ^ e) = n * 2 ^ e := by
  rcases Nat.eq_zero_or_pos n with rfl | hn
  · simp
  have hpos : (0 : ℚ) < n * 2 ^ e := mul_pos (Nat.cast_pos.2 hn) (two_zpow_pos e)
  have hunit : unitOf p (n * 2 ^ e) ≤ e := by
    have hlt : (n : ℚ) * 2 ^ e < 2 ^ (p + e) := by
      rw [zpow_add₀ two_ne_zero, zpow_natCast]
      exact mul_lt_mul_of_pos_right (by exact_mod_cast h) (two_zpow_pos e)
    rw [lt_two_zpow_iff hpos] at hlt
    rw [unitOf, abs_of_pos hpos]
    omega
  apply roundTo_of_eq_mul hpos (n := n * 2 ^ (e - unitOf p (n * 2 ^ e)).toNat)
  rw [Nat.cast_mul, Nat.cast_pow, Nat.cast_ofNat, mul_assoc, ← zpow_natCast,
    Int.toNat_of_nonneg (by omega), ← zpow_add₀ two_ne_zero, Int.sub_add_cancel]

/-- **What has no more places than the precision is its own rounding.** -/
theorem roundTo_mul_zpow {n : ℤ} (h : n.natAbs ≤ 2 ^ p) (e : ℤ) :
    roundTo p (n * 2 ^ e) = n * 2 ^ e := by
  have hsize : ∀ {n : ℕ}, n ≤ 2 ^ p → roundTo p (n * 2 ^ e) = n * 2 ^ e := by
    intro n h
    rcases h.eq_or_lt with rfl | h
    · have hone : 1 < 2 ^ p := Nat.one_lt_two_pow (NeZero.ne p)
      have hcarry := roundTo_natCast_mul_zpow hone (p + e)
      rw [zpow_add₀ two_ne_zero, zpow_natCast, Nat.cast_one, one_mul] at hcarry
      rwa [Nat.cast_pow, Nat.cast_ofNat]
    · exact roundTo_natCast_mul_zpow h e
  rcases Int.natAbs_eq n with hn | hn
  · rw [hn, Int.cast_natCast]
    exact hsize h
  · rw [hn, Int.cast_neg, Int.cast_natCast, neg_mul, roundTo_neg, hsize h]

/-- A rounded value is a multiple of the unit, by a number of no more places than the precision. -/
theorem exists_roundTo_eq (x : ℚ) :
    ∃ n : ℤ, n.natAbs ≤ 2 ^ p ∧ roundTo p x = n * 2 ^ unitOf p x := by
  have hpos : ∀ {x : ℚ}, 0 < x →
      ∃ n : ℕ, n ≤ 2 ^ p ∧ roundTo p x = n * 2 ^ unitOf p x := by
    intro x h
    exact ⟨_, nearestNat_div_unit_le h, roundTo_of_pos h⟩
  rcases lt_trichotomy x 0 with h | rfl | h
  · obtain ⟨n, hn, heq⟩ := hpos (neg_pos.2 h)
    rw [roundTo_neg, unitOf, abs_neg, ← unitOf, neg_eq_iff_eq_neg] at heq
    exact ⟨-n, by omega, by rw [heq, Int.cast_neg, Int.cast_natCast, neg_mul]⟩
  · exact ⟨0, by simp, by simp⟩
  · obtain ⟨n, hn, heq⟩ := hpos h
    exact ⟨n, by omega, heq⟩

/-- What is rounded is its own rounding. -/
@[simp]
theorem roundTo_roundTo (x : ℚ) : roundTo p (roundTo p x) = roundTo p x := by
  obtain ⟨n, hn, heq⟩ := exists_roundTo_eq (p := p) x
  rw [heq, roundTo_mul_zpow hn]

end GpuQuota.Number
