import GpuQuota.Number.Word

/-!
# Token buckets

Every launch takes one token out of its process's bucket; a refill puts tokens in. A thread that
finds the bucket empty blocks until a refill. What is not used stays in the bucket.

* `tokens_take`: a launch takes exactly one token.
* `takeUpTo_succ`: several tokens are taken one by one.
-/

namespace GpuQuota.Pacing

open GpuQuota.Number

/-- A bucket of launch tokens. -/
structure Bucket where
  tokens : UInt64
  deriving DecidableEq, Repr, Inhabited

namespace Bucket

/-- Takes one token; there is no bucket afterwards where the thread blocks. -/
def take? (bucket : Bucket) : Option Bucket :=
  if bucket.tokens = 0 then none else some ⟨bucket.tokens - 1⟩

/-- Puts tokens in. -/
def add (bucket : Bucket) (count : UInt64) : Bucket :=
  ⟨saturatingAdd bucket.tokens count⟩

/-- Takes up to `n` tokens without blocking; the answer is how many. -/
def takeUpTo (bucket : Bucket) (n : Nat) : Nat × Bucket :=
  let taken := min n bucket.tokens.toNat
  (taken, ⟨bucket.tokens - UInt64.ofNat taken⟩)

theorem tokens_take {bucket after : Bucket} (h : bucket.take? = some after) :
    after.tokens.toNat + 1 = bucket.tokens.toNat := by
  unfold take? at h
  split at h
  · simp at h
  · rename_i hne
    simp only [Option.some.injEq] at h
    have hpos : bucket.tokens.toNat ≠ 0 := fun h0 => hne (UInt64.toNat_inj.1 h0)
    have hle : (1 : UInt64) ≤ bucket.tokens := by
      rw [UInt64.le_iff_toNat_le]
      exact Nat.one_le_iff_ne_zero.2 hpos
    rw [← h, UInt64.toNat_sub_of_le _ _ hle]
    exact Nat.sub_add_cancel (Nat.one_le_iff_ne_zero.2 hpos)

theorem take?_eq_none_iff {bucket : Bucket} : bucket.take? = none ↔ bucket.tokens = 0 := by
  simp [take?]

theorem takeUpTo_of_take?_eq_none {bucket : Bucket} (n : Nat) (h : bucket.take? = none) :
    bucket.takeUpTo n = (0, bucket) := by
  obtain ⟨tokens⟩ := bucket
  obtain rfl : tokens = 0 := take?_eq_none_iff.1 h
  simp [takeUpTo]

theorem takeUpTo_succ {bucket after : Bucket} (n : Nat) (h : bucket.take? = some after) :
    bucket.takeUpTo (n + 1) = ((after.takeUpTo n).1 + 1, (after.takeUpTo n).2) := by
  have htokens := tokens_take h
  have hmin : min (n + 1) bucket.tokens.toNat = min n after.tokens.toNat + 1 := by omega
  have hafter : after.tokens = bucket.tokens - 1 := by
    unfold take? at h
    split at h
    · simp at h
    · exact (congrArg tokens (Option.some.inj h)).symm
  have hrest : bucket.tokens - UInt64.ofNat (min n after.tokens.toNat + 1) =
      after.tokens - UInt64.ofNat (min n after.tokens.toNat) := by
    rw [hafter, UInt64.ofNat_add]
    grind
  simp only [takeUpTo, hmin, hrest]

end Bucket

end GpuQuota.Pacing
