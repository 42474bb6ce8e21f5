import GpuQuota.Pacing.TokenRegion
import Mathlib.Algebra.Group.Int.Defs
import Mathlib.Algebra.Group.Nat.Defs

/-!
# Words with a sign

The words of a token region are 32 bits wide and have a sign; most of what is read from them has
none.

* `toNat_atLeast` says what a reader sees of a word, `toInt_toInt32` what a writer leaves, and
  `toNat_atLeast_ofInt_iff` what comes through;
* `toInt_add_ofNat` and `add_ofNat_of_end`: a counter counts until it comes to the end of its range,
  where it goes on with the lowest word;
* `TokenRegion.toNat_rate` and `TokenRegion.toNat_limit` are what is read of a region.
-/

namespace GpuQuota.Pacing

theorem toInt_max (a b : Int32) : (max a b).toInt = max a.toInt b.toInt := by
  change (if a ≤ b then b else a).toInt = _
  split
  · next h => exact (Int.max_eq_right (Int32.le_iff_toInt_le.1 h)).symm
  · next h =>
    have hlt : b.toInt < a.toInt := Int32.lt_iff_toInt_lt.1 (Int32.not_le.1 h)
    exact (Int.max_eq_left (Int.le_of_lt hlt)).symm

/-- A word that is not negative is read as it stands. -/
theorem toNat_toUInt32 {word : Int32} (h : 0 ≤ word.toInt) :
    (word.toUInt32.toNat : ℤ) = word.toInt := by
  have hword : (0 : Int32) ≤ word := Int32.le_iff_toInt_le.2 h
  rw [Int32.toNat_toUInt32_of_le hword, Int32.cast_toNatClampNeg word hword]

/-- A reader sees the number of a word, but no less than the least one. -/
theorem toNat_atLeast (least word : Int32) (h : 0 ≤ least.toInt) :
    ((atLeast least word).toNat : ℤ) = max word.toInt least.toInt := by
  rw [atLeast, toNat_toUInt32, toInt_max]
  rw [toInt_max]
  omega

theorem toNat_max_one (word : UInt32) : (max word 1).toNat = max word.toNat 1 := by
  change (if word ≤ 1 then 1 else word).toNat = _
  split
  · next h => exact (Nat.max_eq_right (UInt32.le_iff_toNat_le.1 h)).symm
  · next h =>
    have hlt : UInt32.toNat 1 < word.toNat := UInt32.lt_iff_toNat_lt.1 (UInt32.not_le.1 h)
    exact (Nat.max_eq_left (Nat.le_of_lt hlt)).symm

/-- A cast gives the word with a sign that has the same number, but for multiples of `2 ^ 32`. -/
theorem toInt32_eq_ofNat (word : UInt32) : word.toInt32 = Int32.ofNat word.toNat := by
  rw [← UInt32.toInt32_ofNat', UInt32.ofNat_toNat]

/-- A cast keeps every number below `2 ^ 31`. -/
theorem toInt_toInt32 {word : UInt32} (h : word.toNat < 2 ^ 31) :
    word.toInt32.toInt = word.toNat := by
  rw [toInt32_eq_ofNat, Int32.toInt_ofNat_of_lt h]

/-- A number that is stored in a word is read back if and only if it fits. -/
theorem toNat_atLeast_ofInt_iff {n : ℕ} (h : 1 ≤ n) :
    (atLeast 1 (Int32.ofInt n)).toNat = n ↔ n < 2 ^ 31 := by
  have hread := toNat_atLeast 1 (Int32.ofInt n) (by decide)
  rw [Int32.toInt_one, Int32.toInt_ofInt, Int32.size, Int.bmod_def] at hread
  omega

/-- A counter that has not reached the end of its range counts. -/
theorem toInt_add_ofNat {word : Int32} {n : ℕ} (h : word.toInt + n < 2 ^ 31) :
    (word + Int32.ofNat n).toInt = word.toInt + n := by
  have hlow := word.le_toInt
  rw [Int32.toInt_add, Int32.toInt_ofNat', Int32.size, Int.bmod_def, Int.bmod_def]
  omega

/-- One that comes to the end goes on with the lowest word. -/
theorem add_ofNat_of_end {word : Int32} {n : ℕ} (h : word.toInt + n = 2 ^ 31) :
    word + Int32.ofNat n = Int32.minValue := by
  have hlow := word.le_toInt
  apply Int32.toInt_inj.1
  rw [Int32.toInt_add, Int32.toInt_ofNat', Int32.size, Int32.toInt_minValue, Int.bmod_def,
    Int.bmod_def]
  omega

/-! ## What is read of a region

A reader never sees a negative number: it reads the limit as zero and the rate as one instead. -/

namespace TokenRegion

/-- The limit is the number of its word, or zero. -/
theorem toNat_limit (region : TokenRegion) :
    (region.limit.toNat : ℤ) = max region.limitWord.toInt 0 :=
  toNat_atLeast 0 region.limitWord (by decide)

/-- The rate is the number of its word, or one. -/
theorem toNat_rate (region : TokenRegion) :
    (region.rate.toNat : ℤ) = max region.rateWord.toInt 1 :=
  toNat_atLeast 1 region.rateWord (by decide)

theorem one_le_rate (region : TokenRegion) : 1 ≤ region.rate.toNat := by
  have hread := region.toNat_rate
  omega

theorem toNat_rate_lt (region : TokenRegion) : region.rate.toNat < 2 ^ 31 := by
  have hread := region.toNat_rate
  have htop := region.rateWord.toInt_lt
  omega

end TokenRegion

end GpuQuota.Pacing
