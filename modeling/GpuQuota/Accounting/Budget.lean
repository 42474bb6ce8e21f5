import GpuQuota.Number.Word

/-!
# The shared memory budget

All processes that share a device share one counter of the bytes that are still free. The counter
starts at the ceiling and moves by three operations, each of which is one atomic step: a
reservation succeeds only if it fits, a consumption takes what is there, a release puts back and
never goes past the ceiling.

The words are 64 bits wide, as they are in the shared region.

* `total_perform`: no operation moves the ceiling.
* `free_perform_le`: no operation takes the counter past the ceiling.
* `free_add_of_granted`, `reserve_eq_denied_iff`: a granted reservation takes exactly its bytes, and
  one is denied where it does not fit.
-/

namespace GpuQuota.Accounting

open GpuQuota.Number

/-- The shared counter. -/
structure Budget where
  /-- the ceiling, fixed when the region is laid out -/
  total : UInt64
  /-- the bytes that are still free -/
  free : UInt64
  /-- the process that laid the region out, or zero -/
  owner : Int32
  deriving DecidableEq, Repr, Inhabited

/-- The answer to a reservation: the free bytes after it, or those it did not fit in. -/
inductive Reservation where
  /-- the bytes were taken, and so many are left -/
  | granted (free : UInt64)
  /-- there are only so many, and none were taken -/
  | denied (free : UInt64)
  deriving DecidableEq, Repr

namespace Budget

/-- A budget of which nothing is used. -/
def full (total : UInt64) (owner : Int32) : Budget := ⟨total, total, owner⟩

/-- Takes `bytes` if they fit. -/
def reserve (budget : Budget) (bytes : UInt64) : Reservation × Budget :=
  if budget.free < bytes then (.denied budget.free, budget)
  else (.granted (budget.free - bytes), { budget with free := budget.free - bytes })

/-- Takes `bytes`, or what there is of them. -/
def consume (budget : Budget) (bytes : UInt64) : Budget :=
  { budget with free := saturatingSub budget.free bytes }

/-- Puts `bytes` back, up to the ceiling. -/
def release (budget : Budget) (bytes : UInt64) : Budget :=
  { budget with free := min (saturatingAdd budget.free bytes) budget.total }

/-- The free bytes to report: when the owner has died, its limit binds nobody and everything
counts as free. -/
def reportedFree (budget : Budget) (alive : Int32 → Bool) : UInt64 :=
  if budget.owner ≠ 0 ∧ !alive budget.owner then budget.total else budget.free

/-- The operations on the counter. -/
inductive Operation where
  /-- takes bytes, all of them or none -/
  | reserve (bytes : UInt64)
  /-- takes bytes that are in use already, down to zero -/
  | consume (bytes : UInt64)
  /-- gives bytes back, up to the ceiling -/
  | release (bytes : UInt64)
  deriving DecidableEq, Repr

/-- The counter after an operation. -/
def perform (budget : Budget) : Operation → Budget
  | .reserve bytes => (budget.reserve bytes).2
  | .consume bytes => budget.consume bytes
  | .release bytes => budget.release bytes

theorem total_perform (budget : Budget) (op : Operation) :
    (budget.perform op).total = budget.total := by
  cases op <;> simp only [perform, reserve, consume, release]
  split <;> rfl

theorem free_add_of_granted {budget after : Budget} {bytes free : UInt64}
    (h : budget.reserve bytes = (.granted free, after)) :
    after.free.toNat + bytes.toNat = budget.free.toNat := by
  unfold reserve at h
  split at h
  · simp at h
  · rename_i hlt
    have hle : bytes ≤ budget.free := UInt64.not_lt.1 hlt
    simp only [Prod.mk.injEq] at h
    obtain ⟨_, rfl⟩ := h
    have := UInt64.toNat_sub_of_le _ _ hle
    have := UInt64.le_iff_toNat_le.1 hle
    simp only
    omega

theorem reserve_eq_denied_iff {budget after : Budget} {bytes free : UInt64} :
    budget.reserve bytes = (.denied free, after) ↔
      budget.free < bytes ∧ free = budget.free ∧ after = budget := by
  unfold reserve
  split
  · next h => simp [h, eq_comm]
  · next h => simp [h]

theorem free_perform_le {budget : Budget} (h : budget.free ≤ budget.total) (op : Operation) :
    (budget.perform op).free ≤ (budget.perform op).total := by
  rw [total_perform]
  cases op with
  | reserve bytes =>
    rw [perform, reserve]
    split
    · exact h
    · next hlt =>
      have hle := UInt64.not_lt.1 hlt
      rw [UInt64.le_iff_toNat_le] at h ⊢
      have := UInt64.toNat_sub_of_le _ _ hle
      simp only
      omega
  | consume bytes =>
    rw [UInt64.le_iff_toNat_le] at h ⊢
    rw [perform, consume, toNat_saturatingSub]
    omega
  | release bytes =>
    rw [perform, release]
    exact Std.min_le_right

end Budget

end GpuQuota.Accounting
