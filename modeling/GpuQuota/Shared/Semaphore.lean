import GpuQuota.OsError

/-!
# Counting semaphores

A counter in shared memory that any process may raise by one, and take one from once it is
positive. A wait on a semaphore at zero has no answer yet: it blocks until somebody posts.

* `count_post`, `count_tryWait`: what each operation does to the counter.
-/

namespace GpuQuota.Shared

/-- A semaphore. -/
structure Semaphore where
  count : Nat
  deriving DecidableEq, Repr, Inhabited

namespace Semaphore

/-- The largest count. -/
def largest : Nat := (1 <<< 31) - 1

/-- A semaphore at `count`. -/
def create (count : Nat) : Except OsError Semaphore :=
  if count ≤ largest then .ok ⟨count⟩ else .error .invalid

/-- Raises the counter. -/
def post (semaphore : Semaphore) : Except OsError Semaphore :=
  if semaphore.count < largest then .ok ⟨semaphore.count + 1⟩ else .error .overflow

/-- Takes one if there is one, and says whether. -/
def tryWait (semaphore : Semaphore) : Bool × Semaphore :=
  if semaphore.count = 0 then (false, semaphore) else (true, ⟨semaphore.count - 1⟩)

/-- Takes one; there is no semaphore afterwards where the wait blocks. -/
def wait? (semaphore : Semaphore) : Option Semaphore :=
  match semaphore.tryWait with
  | (true, after) => some after
  | (false, _) => none

theorem count_post {semaphore after : Semaphore} (h : semaphore.post = .ok after) :
    after.count = semaphore.count + 1 := by
  unfold post at h
  split at h
  · simp only [Except.ok.injEq] at h
    rw [← h]
  · simp at h

theorem count_tryWait (semaphore : Semaphore) :
    semaphore.tryWait.2.count = semaphore.count - 1 ∧
      (semaphore.tryWait.1 = true ↔ 0 < semaphore.count) := by
  unfold tryWait
  split
  · rename_i h
    simp [h]
  · rename_i h
    simp only [true_iff, true_and]
    omega

end Semaphore

end GpuQuota.Shared
