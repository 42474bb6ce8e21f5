/-!
# Saturating words

Sums and differences of 64-bit words that stop at the largest word and at zero.

* `toNat_saturatingAdd`, `toNat_saturatingSub`: the same operations on natural numbers.
-/

namespace GpuQuota.Number

/-- The sum of two words, or the largest word where the sum is larger. -/
def saturatingAdd (a b : UInt64) : UInt64 :=
  if a.toNat + b.toNat < UInt64.size then a + b else UInt64.ofNat (UInt64.size - 1)

/-- The difference of two words, or zero where it is negative. -/
def saturatingSub (a b : UInt64) : UInt64 :=
  if b ≤ a then a - b else 0

theorem toNat_saturatingSub (a b : UInt64) :
    (saturatingSub a b).toNat = a.toNat - b.toNat := by
  unfold saturatingSub
  split
  · rename_i h
    exact UInt64.toNat_sub_of_le _ _ h
  · rename_i h
    have := UInt64.lt_iff_toNat_lt.1 (UInt64.not_le.1 h)
    simp only [UInt64.toNat_zero]
    omega

theorem toNat_saturatingAdd (a b : UInt64) :
    (saturatingAdd a b).toNat = min (a.toNat + b.toNat) (UInt64.size - 1) := by
  have hsize : UInt64.size = 2 ^ 64 := rfl
  unfold saturatingAdd
  split
  · rename_i h
    rw [UInt64.toNat_add, Nat.mod_eq_of_lt h]
    omega
  · rename_i h
    simp only [UInt64.toNat_ofNat']
    omega

end GpuQuota.Number
