/-!
# The launch window

How much a process launches is averaged over its last ten refill cycles. A cycle without a launch
says nothing about the program's pace and is left out. One cycle more than the busy ones is
divided by, so the average of an idle window would be zero; it is given as one.

* `recent_foldl_record`: a window holds the last ten counts, whatever came before.
-/

namespace GpuQuota.Pacing

/-- The launches of the last cycles, the newest first. -/
structure LaunchWindow where
  recent : List UInt32
  deriving DecidableEq, Repr, Inhabited

namespace LaunchWindow

/-- The number of cycles in a window. -/
def length : Nat := 10

/-- The window before the first cycle. -/
def empty : LaunchWindow := ⟨[]⟩

/-- The rolling average. -/
def average (window : LaunchWindow) : UInt32 :=
  let busy := window.recent.filter (0 < ·)
  let total := busy.foldl (fun total launches => total + launches.toNat) 0
  max (UInt32.ofNat (total / (busy.length + 1))) 1

/-- Takes in the launches of one cycle. -/
def record (window : LaunchWindow) (launches : UInt32) : LaunchWindow :=
  ⟨(launches :: window.recent).take length⟩

theorem recent_foldl_record (counts : List UInt32) (window : LaunchWindow) :
    (counts.foldl record window).recent.take length =
      (counts.reverse ++ window.recent).take length := by
  induction counts generalizing window with
  | nil => rfl
  | cons n rest ih =>
    rw [List.foldl_cons, ih, List.reverse_cons, List.append_assoc, List.singleton_append]
    simp [record, List.take_append, List.take_take]

end LaunchWindow

end GpuQuota.Pacing
