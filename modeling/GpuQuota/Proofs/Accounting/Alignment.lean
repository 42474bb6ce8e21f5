import GpuQuota.Accounting.Account
import Mathlib.Algebra.Group.Nat.Defs
import Mathlib.Order.Bounds.Basic

/-!
# Rounding up to an alignment

`alignedSize` adds the alignment less one and then clears the bits of that number. Clearing bits
takes away no more than was added, whatever the alignment is, so nothing is ever rounded down,
unless the sum is larger than the largest word. Then the addition stops there, and clearing bits of
the largest word leads below every size that can have come so far.

Where the alignment is a power of two, the bits that are cleared are a remainder, and what is left
of the sum is a multiple of the alignment, also where the addition has stopped.

* `toNat_and_not_add`: the bits of a mask part a word in two.
* `le_alignedSize_iff`: a size is rounded up exactly if the sum fits in a word.
* `toNat_alignedSize_of_outgrows`: what comes out where it does not.
* `toNat_alignedSize`: the multiple that a power of two leaves of the sum.
* `alignedSize_exact`: rounding to a power of two gives the least multiple, keeps the order and
  changes nothing the second time.
-/

namespace GpuQuota.Accounting

open GpuQuota.Number

/-- What is cleared of a word and what is kept of it make up the word. -/
theorem toNat_and_not_add (word mask : UInt64) :
    (word &&& ~~~mask).toNat + (word &&& mask).toNat = word.toNat := by
  -- no bit stands in both parts, so the sum is the union and cannot carry
  have happart : (word &&& ~~~mask).toBitVec &&& (word &&& mask).toBitVec = 0#64 := by
    have hzero : (word &&& ~~~mask) &&& (word &&& mask) = 0 := by
      rw [UInt64.and_comm word mask, ← UInt64.and_assoc, UInt64.and_assoc word, UInt64.not_and_self,
        UInt64.and_zero, UInt64.zero_and]
    exact congrArg UInt64.toBitVec hzero
  have hunion : (word &&& ~~~mask).toBitVec ||| (word &&& mask).toBitVec = word.toBitVec := by
    ext i
    simp only [UInt64.toBitVec_and, UInt64.toBitVec_not, BitVec.getElem_or, BitVec.getElem_and,
      BitVec.getElem_not]
    rw [← Bool.and_or_distrib_left, Bool.not_or_self, Bool.and_true]
  calc (word &&& ~~~mask).toNat + (word &&& mask).toNat
      = ((word &&& ~~~mask).toBitVec + (word &&& mask).toBitVec).toNat :=
        (BitVec.toNat_add_of_and_eq_zero happart).symm
    _ = word.toBitVec.toNat := by rw [BitVec.add_eq_or_of_and_eq_zero _ _ happart, hunion]

/-- The size and what its rounding adds do not fit in a word together. -/
def Outgrows (size alignment : UInt64) : Prop :=
  UInt64.size ≤ size.toNat + (alignment.toNat - 1)

instance (size alignment : UInt64) : Decidable (Outgrows size alignment) :=
  inferInstanceAs (Decidable (_ ≤ _))

theorem toNat_sub_one {alignment : UInt64} (h : alignment ≠ 0) :
    (alignment - 1).toNat = alignment.toNat - 1 := by
  have hpos : alignment.toNat ≠ 0 := fun hzero => h (UInt64.toNat_inj.1 hzero)
  refine UInt64.toNat_sub_of_le _ _ ?_
  rw [UInt64.le_iff_toNat_le]
  exact Nat.one_le_iff_ne_zero.2 hpos

/-- A size that is rounded loses at most what was added. -/
theorem le_alignedSize {size alignment : UInt64} (h : ¬ Outgrows size alignment) :
    size ≤ alignedSize size alignment := by
  rw [UInt64.le_iff_toNat_le, alignedSize]
  by_cases hzero : alignment = 0
  · refine Nat.le_of_eq ?_
    rw [if_pos hzero]
  · rw [Outgrows] at h
    have hpart := toNat_and_not_add (saturatingAdd size (alignment - 1)) (alignment - 1)
    have hkept : (saturatingAdd size (alignment - 1) &&& (alignment - 1)).toNat ≤
        alignment.toNat - 1 := by
      rw [UInt64.toNat_and, toNat_sub_one hzero]
      exact Nat.and_le_right
    rw [toNat_saturatingAdd, toNat_sub_one hzero] at hpart
    rw [if_neg hzero]
    omega

/-- Where the sum does not fit, what is left of the largest word does not depend on the size. -/
theorem toNat_alignedSize_of_outgrows {size alignment : UInt64} (h : Outgrows size alignment) :
    (alignedSize size alignment).toNat = UInt64.size - alignment.toNat := by
  rw [Outgrows] at h
  have hwidth : UInt64.size = 2 ^ 64 := rfl
  have hsize := size.toNat_lt
  have hzero : alignment ≠ 0 := by
    rintro rfl
    rw [UInt64.toNat_zero] at h
    exact absurd h (Nat.not_le.2 hsize)
  have hfull : saturatingAdd size (alignment - 1) = UInt64.ofNat (UInt64.size - 1) := by
    rw [saturatingAdd, if_neg]
    rw [toNat_sub_one hzero]
    omega
  have hkept : UInt64.ofNat (UInt64.size - 1) &&& (alignment - 1) = alignment - 1 :=
    UInt64.neg_one_and
  have hpart := toNat_and_not_add (UInt64.ofNat (UInt64.size - 1)) (alignment - 1)
  have hlargest : (UInt64.ofNat (UInt64.size - 1)).toNat = UInt64.size - 1 := rfl
  rw [hkept, hlargest, toNat_sub_one hzero] at hpart
  rw [alignedSize, if_neg hzero, hfull]
  omega

/-- **A size is rounded up exactly if the sum fits in a word.** -/
theorem le_alignedSize_iff {size alignment : UInt64} :
    size ≤ alignedSize size alignment ↔ ¬ Outgrows size alignment := by
  constructor
  · intro hle houtgrows
    have hleft := toNat_alignedSize_of_outgrows houtgrows
    have hwidth : UInt64.size = 2 ^ 64 := rfl
    have hsize := size.toNat_lt
    have halignment := alignment.toNat_lt
    rw [Outgrows] at houtgrows
    rw [UInt64.le_iff_toNat_le] at hle
    omega
  · exact le_alignedSize

/-! ## Powers of two

Here the mask is all ones below one bit, and to clear it is to take the remainder away. -/

section PowerOfTwo

variable {alignment : UInt64} {k : ℕ}

/-- What the addition comes to. -/
def paddedSize (size alignment : UInt64) : ℕ :=
  min (size.toNat + (alignment.toNat - 1)) (UInt64.size - 1)

theorem ne_zero_of_pow (h : alignment.toNat = 2 ^ k) : alignment ≠ 0 := by
  rintro rfl
  exact absurd h.symm (Nat.pow_pos (by decide)).ne'

/-- Clearing the bits below a power of two takes the remainder away. -/
theorem toNat_and_not_sub_one (h : alignment.toNat = 2 ^ k) (word : UInt64) :
    (word &&& ~~~(alignment - 1)).toNat = alignment.toNat * (word.toNat / alignment.toNat) := by
  have hpart := toNat_and_not_add word (alignment - 1)
  have hrest : (word &&& (alignment - 1)).toNat = word.toNat % alignment.toNat := by
    rw [UInt64.toNat_and, toNat_sub_one (ne_zero_of_pow h), h, Nat.and_two_pow_sub_one_eq_mod]
  have hdiv := Nat.div_add_mod word.toNat alignment.toNat
  omega

/-- What comes out is the greatest multiple of the alignment up to the padded size. -/
theorem toNat_alignedSize (h : alignment.toNat = 2 ^ k) (size : UInt64) :
    (alignedSize size alignment).toNat =
      alignment.toNat * (paddedSize size alignment / alignment.toNat) := by
  have hzero := ne_zero_of_pow h
  rw [alignedSize, if_neg hzero, toNat_and_not_sub_one h, toNat_saturatingAdd,
    toNat_sub_one hzero, paddedSize]

/-- A multiple that is a word leaves room for the rest of its page. -/
theorem add_le_of_dvd (h : alignment.toNat = 2 ^ k) {multiple : ℕ}
    (hdvd : alignment.toNat ∣ multiple) (hlt : multiple < UInt64.size) :
    multiple + alignment.toNat ≤ UInt64.size := by
  -- the number of words is a multiple as well, so the next multiple does not pass it
  have hpages : alignment.toNat ∣ UInt64.size := by
    have hk : k ≤ 64 := (Nat.pow_le_pow_iff_right (by decide)).1 (h ▸ alignment.toNat_lt.le)
    rw [h, show UInt64.size = 2 ^ 64 from rfl]
    exact Nat.pow_dvd_pow 2 hk
  have hrest : alignment.toNat ∣ UInt64.size - multiple := Nat.dvd_sub hpages hdvd
  have hle := Nat.le_of_dvd (by omega) hrest
  omega

/-- Where a multiple not below the size is a word, the least such multiple comes out. -/
theorem toNat_alignedSize_of_isLeast (h : alignment.toNat = 2 ^ k) {size : UInt64} {multiple : ℕ}
    (hleast : IsLeast {m | alignment.toNat ∣ m ∧ size.toNat ≤ m} multiple)
    (hlt : multiple < UInt64.size) : (alignedSize size alignment).toNat = multiple := by
  obtain ⟨⟨hdvd, hle⟩, hlower⟩ := hleast
  have hroom := add_le_of_dvd h hdvd hlt
  have hpos : 0 < alignment.toNat := h ▸ Nat.pow_pos (by decide)
  have hpadded : paddedSize size alignment = size.toNat + (alignment.toNat - 1) :=
    Nat.min_eq_left (by omega)
  rw [toNat_alignedSize h, hpadded]
  refine Nat.le_antisymm ?_ (hlower ⟨Nat.dvd_mul_right _ _, ?_⟩)
  · obtain ⟨pages, rfl⟩ := hdvd
    refine Nat.mul_le_mul_left _ (Nat.le_of_lt_succ ((Nat.div_lt_iff_lt_mul hpos).2 ?_))
    rw [Nat.succ_mul, Nat.mul_comm pages]
    omega
  · have hdiv := Nat.div_add_mod (size.toNat + (alignment.toNat - 1)) alignment.toNat
    have hmod := Nat.mod_lt (size.toNat + (alignment.toNat - 1)) hpos
    omega

/-- What comes out is a multiple of the alignment. -/
theorem dvd_alignedSize (h : alignment.toNat = 2 ^ k) (size : UInt64) :
    alignment.toNat ∣ (alignedSize size alignment).toNat := by
  rw [toNat_alignedSize h]
  exact Nat.dvd_mul_right _ _

/-- A larger size is not rounded to less. -/
theorem alignedSize_le_alignedSize (h : alignment.toNat = 2 ^ k) {small large : UInt64}
    (hle : small ≤ large) : alignedSize small alignment ≤ alignedSize large alignment := by
  rw [UInt64.le_iff_toNat_le] at hle ⊢
  have hpadded : paddedSize small alignment ≤ paddedSize large alignment := by
    rw [paddedSize, paddedSize]
    omega
  rw [toNat_alignedSize h, toNat_alignedSize h]
  exact Nat.mul_le_mul_left _ (Nat.div_le_div_right hpadded)

/-- **Rounding to a power of two is exact.** Where the least multiple of it not below a size is a
word, that multiple comes out. For all sizes, those included for which the addition stops at the
largest word, a larger size is not rounded to a smaller one, what comes out is a multiple, and
rounding it again changes nothing. -/
theorem alignedSize_exact (h : ∃ k, alignment.toNat = 2 ^ k) :
    (∀ (size : UInt64) (multiple : ℕ),
        IsLeast {m | alignment.toNat ∣ m ∧ size.toNat ≤ m} multiple → multiple < UInt64.size →
          (alignedSize size alignment).toNat = multiple) ∧
      (∀ small large : UInt64, small ≤ large →
        alignedSize small alignment ≤ alignedSize large alignment) ∧
      ∀ size : UInt64, alignment.toNat ∣ (alignedSize size alignment).toNat ∧
        alignedSize (alignedSize size alignment) alignment = alignedSize size alignment := by
  obtain ⟨k, h⟩ := h
  refine ⟨fun size multiple => toNat_alignedSize_of_isLeast h,
    fun small large => alignedSize_le_alignedSize h, fun size => ⟨dvd_alignedSize h size, ?_⟩⟩
  -- a multiple is the least one that is not below itself
  have hleast : IsLeast {m | alignment.toNat ∣ m ∧ (alignedSize size alignment).toNat ≤ m}
      (alignedSize size alignment).toNat :=
    ⟨⟨dvd_alignedSize h size, Nat.le_refl _⟩, fun _ hm => hm.2⟩
  exact UInt64.toNat_inj.1
    (toNat_alignedSize_of_isLeast h hleast (alignedSize size alignment).toNat_lt)

/-- Pages of 4096 bytes: 5000 bytes take two of them, and the largest size, which no page can be
added to, is cut to whole pages. -/
theorem alignedSize_exact_page :
    (∃ k, (4096 : UInt64).toNat = 2 ^ k) ∧
      IsLeast {m | (4096 : UInt64).toNat ∣ m ∧ (5000 : UInt64).toNat ≤ m} 8192 ∧
      8192 < UInt64.size ∧ (5000 : UInt64) ≤ 18446744073709551615 ∧
      (alignedSize 5000 4096).toNat = 8192 ∧
      alignedSize 5000 4096 ≤ alignedSize 18446744073709551615 4096 ∧
      (4096 : UInt64).toNat ∣ (alignedSize 18446744073709551615 4096).toNat := by
  have hpow : ∃ k, (4096 : UInt64).toNat = 2 ^ k := ⟨12, rfl⟩
  have hleast : IsLeast {m | (4096 : UInt64).toNat ∣ m ∧ (5000 : UInt64).toNat ≤ m} 8192 := by
    refine ⟨⟨by decide, by decide⟩, ?_⟩
    rintro m ⟨⟨pages, rfl⟩, hle⟩
    simp only [UInt64.reduceToNat] at hle ⊢
    omega
  obtain ⟨hexact, hmono, hall⟩ := alignedSize_exact hpow
  exact ⟨hpow, hleast, by decide, by decide, hexact 5000 8192 hleast (by decide),
    hmono 5000 _ (by decide), (hall _).1⟩

end PowerOfTwo

end GpuQuota.Accounting
