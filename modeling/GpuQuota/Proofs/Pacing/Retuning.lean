import GpuQuota.Proofs.Number.SinglePrecision
import GpuQuota.Proofs.Pacing.Regulating
import GpuQuota.Proofs.Pacing.SignedWords

/-!
# The direction of a retuning

A rate is retuned in steps that are rounded to 32-bit floats and cut off to whole numbers. Whatever
is lost on the way, a group below its limit never gets a lower rate for it and a group above it
never a higher one: rounding is monotone, and the old rate is its own rounding.

Two things have to be kept apart. One is that the law has a result at all: a sum of words may wrap,
a quotient may be by zero, and a rounding may leave the range of the floats. The other is where the
result lies. The first is settled by following the size of each intermediate number between two
powers of two (`Spans`), the second by monotony alone, without any estimate of how much a rounding
loses.

* `nextRate?` is the law with every step that might fail: a sum or a product that does not fit its
  word, a divisor of zero, a result that is no float. For what a controller has to retune by
  (`Retunable`) it has an answer, which is that of `nextRate` (`Retunable.nextRate?_eq`);
* `Retunable.proposedRate_eq`: within these bounds the proposed rate is the sum itself, so it lies
  in the direction of the error (`Retunable.lt_proposedRate`, `Retunable.proposedRate_lt`);
* `Retunable.le_followingRate`, `Retunable.followingRate_le`: so does the rate that follows the
  launch average;
* `Damped` says when it is the launch average that sets the pace;
* `nextRate_toward_limit` is the direction of the new rate, and `Controller.feed_toward_limit` that
  of the rate a controller announces.
-/

namespace GpuQuota.Pacing

open GpuQuota.Number

/-! ## Every step with its result

The definitions of the law once more, as partial functions. Each has the steps of the one it is
named after in the same order, and no result as soon as one of its steps has none. What they add is
only this question; the numbers are the same. -/

/-- A whole number in 32 bits with a sign; none where it overflows. -/
def signed? (n : ℤ) : Option ℤ :=
  if Int32.minValue.toInt ≤ n ∧ n ≤ Int32.maxValue.toInt then some n else none

/-- One in 32 bits without a sign. -/
def unsigned? (n : ℕ) : Option ℕ := if n < UInt32.size then some n else none

/-- `utilPerLaunch`, as far as every step has a result. -/
def utilPerLaunch? (util newest : ℕ) : Option ℚ := do
  let util ← float? (max util 1 : ℕ)
  let launches ← float? (max newest 1 : ℕ)
  quotient? util launches

/-- `stepSize`, as far as every step has a result. -/
def stepSize? (error : ℤ) (util newest : ℕ) : Option ℤ := do
  let perLaunch ← utilPerLaunch? util newest
  let size ← float? error.natAbs
  let launches ← quotient? size perLaunch
  let quarter ← quotient? launches 4
  return max (clampTrunc Int32.minValue.toInt Int32.maxValue.toInt quarter) 1

/-- `averageChange`, as far as every step has a result. -/
def averageChange? (newest previous : ℕ) : Option ℚ := do
  let change ← float? ((newest : ℤ) - previous).natAbs
  let next ← unsigned? (previous + 1)
  let base ← float? next
  quotient? change base

/-- `rateChange`, as far as every step has a result. -/
def rateChange? (old new : ℤ) : Option ℚ := do
  let change ← float? (new - old).natAbs
  let base ← float? (max old 1 : ℤ)
  quotient? change base

/-- `followingRate`, as far as every step has a result. -/
def followingRate? (old error : ℤ) (newest previous : ℕ) : Option ℤ := do
  let rate ← float? old
  let launches ← float? previous
  let ratio ← averageChange? newest previous
  let drift ← float? (launches * ratio)
  let directed ← float? (drift * direction error)
  let followed ← float? (rate + directed)
  return clampTrunc Int32.minValue.toInt Int32.maxValue.toInt followed

/-- `nextRate`, as far as every step has a result. -/
def nextRate? (old error : ℤ) (util newest previous : ℕ) : Option ℤ := do
  let step ← stepSize? error util newest
  let change ← signed? (step * direction error)
  let proposed ← signed? (old + change)
  let averageRatio ← averageChange? newest previous
  let rateRatio ← rateChange? old proposed
  if newest ≠ previous ∧ averageRatio < rateRatio then
    let followed ← followingRate? old error newest previous
    return max followed 1
  else return max proposed 1

/-! ## The law within its range

A controller retunes from rates and launch averages of at most `2 ^ 24`, which a 32-bit float holds
exactly, and from shares in percent. Under these bounds no step of the law fails. -/

/-- What a controller may have to retune by. -/
structure Retunable (old error : ℤ) (util newest previous : ℕ) : Prop where
  one_le_old : 1 ≤ old
  /-- The rate is exact in single precision. -/
  old_le : old ≤ 2 ^ 24
  /-- The limit is not met. -/
  error_ne_zero : error ≠ 0
  /-- It is missed by a percentage. -/
  error_le : error.natAbs ≤ 100
  /-- The utilization is a percentage. -/
  util_le : util ≤ 100
  /-- The averages are exact in single precision. -/
  newest_le : newest ≤ 2 ^ 24
  previous_le : previous ≤ 2 ^ 24

variable {old error : ℤ} {util newest previous : ℕ}

/-- A group below its limit goes up. -/
theorem direction_of_pos (h : 0 < error) : direction error = 1 := if_pos h

/-- A group above its limit goes down. -/
theorem direction_of_neg (h : error < 0) : direction error = -1 := if_neg (by omega)

/-- There is no third direction: an error of zero never comes to be retuned. -/
theorem direction_eq (error : ℤ) : direction error = 1 ∨ direction error = -1 := by
  rw [direction]
  split <;> simp

/-- The four of the quarter, as a range of one number. -/
theorem spans_four : Spans 2 2 4 := ⟨by norm_num, by norm_num⟩

/-- A step is never cut off to nothing, however small the error is. -/
theorem one_le_stepSize (error : ℤ) (util newest : ℕ) : 1 ≤ stepSize error util newest :=
  Int.le_max_right _ _

/-- A number of 31 bits fits a word with a sign. -/
theorem signed?_eq {n : ℤ} (h : n.natAbs < 2 ^ 31) : signed? n = some n :=
  if_pos (by change -2 ^ 31 ≤ n ∧ n ≤ 2 ^ 31 - 1; omega)

/-- An average that has stayed has not changed relatively either. -/
theorem averageChange_self (newest : ℕ) : averageChange newest newest = 0 := by
  rw [averageChange, Int.sub_self, Int.natAbs_zero, Nat.cast_zero, single_zero, zero_div,
    single_zero]

/-- How far the launch average has moved, in launches of the previous one. -/
def drift (newest previous : ℕ) : ℚ := single (single previous * averageChange newest previous)

/-- The following rate as the old rate and a drift in the direction of the error. This is the form
in which its size and its place can be told. -/
theorem followingRate_eq (old error : ℤ) (newest previous : ℕ) :
    followingRate old error newest previous =
      clampTrunc Int32.minValue.toInt Int32.maxValue.toInt
        (single (single old + drift newest previous * direction error)) :=
  rfl

/-- A direction only turns a number around. -/
theorem abs_direction (error : ℤ) : |direction error| = 1 := by
  rcases direction_eq error with hd | hd <;> rw [hd] <;> rfl

/-- The launch average has changed, and relatively less than the proposed rate would. -/
def Damped (old error : ℤ) (util newest previous : ℕ) : Prop :=
  newest ≠ previous ∧
    averageChange newest previous < rateChange old (proposedRate old error util newest)

instance (old error : ℤ) (util newest previous : ℕ) :
    Decidable (Damped old error util newest previous) :=
  inferInstanceAs (Decidable (_ ∧ _))

/-- A damped rate is the one that follows the launch average. -/
theorem nextRate_of_damped (h : Damped old error util newest previous) :
    nextRate old error util newest previous = max (followingRate old error newest previous) 1 :=
  congrArg (max · 1) (if_pos h)

/-- Any other rate is the one that is proposed. -/
theorem nextRate_of_not_damped (h : ¬ Damped old error util newest previous) :
    nextRate old error util newest previous = max (proposedRate old error util newest) 1 :=
  congrArg (max · 1) (if_neg h)

namespace Retunable

variable (h : Retunable old error util newest previous)

include h

/-! ### The step

From the error to the step, each number lies between two powers of two: a percentage has seven bits,
an average twenty-four, and a quotient takes its range from both. A float keeps a range whose ends
are powers of two, so none of the roundings leads out of it. -/

/-- A share in percent, where one of zero counts as one. -/
theorem spans_util : Spans 0 7 (max util 1 : ℕ) :=
  have := h.util_le
  .natCast (k := 7) (by omega) (by omega)

/-- The newest average, where one of zero counts as one. -/
theorem spans_newest : Spans 0 24 (max newest 1 : ℕ) :=
  have := h.newest_le
  .natCast (k := 24) (by omega) (by omega)

/-- The size of the error, which is not zero. -/
theorem spans_error : Spans 0 7 (error.natAbs : ℕ) :=
  have := h.error_ne_zero
  have := h.error_le
  .natCast (k := 7) (by omega) (by omega)

/-- What one launch uses lies far inside the range of the floats, on both ends. -/
theorem spans_utilPerLaunch : Spans (-24) 7 (utilPerLaunch util newest) :=
  (h.spans_util.single.div h.spans_newest.single).single

/-- And so does the error in launches. -/
theorem spans_launches : Spans (-7) 31 (single (single error.natAbs / utilPerLaunch util newest)) :=
  (h.spans_error.single.div h.spans_utilPerLaunch).single

/-- And its quarter, which may be much smaller than one. -/
theorem spans_quarter :
    Spans (-9) 29 (single (single (single error.natAbs / utilPerLaunch util newest) / 4)) :=
  (h.spans_launches.div spans_four).single

/-- So nothing goes wrong in the first quotient. -/
theorem utilPerLaunch?_eq : utilPerLaunch? util newest = some (utilPerLaunch util newest) := by
  simp only [utilPerLaunch?, Option.bind_eq_bind, Option.bind_some,
    h.spans_util.float?_eq (by decide) (by decide),
    h.spans_newest.float?_eq (by decide) (by decide)]
  exact h.spans_util.single.quotient?_eq h.spans_newest.single (by decide) (by decide)

/-- Nor in the others, up to the step. -/
theorem stepSize?_eq : stepSize? error util newest = some (stepSize error util newest) := by
  simp only [stepSize?, Option.bind_eq_bind, Option.bind_some, h.utilPerLaunch?_eq,
    h.spans_error.float?_eq (by decide) (by decide),
    h.spans_error.single.quotient?_eq h.spans_utilPerLaunch (by decide) (by decide),
    h.spans_launches.quotient?_eq spans_four (by decide) (by decide)]
  rfl

/-- A step is too small to lead out of the words when it is added to a rate. -/
theorem stepSize_le : stepSize error util newest ≤ 2 ^ 29 :=
  max_le (clampTrunc_le (by decide) (by decide) (by exact_mod_cast h.spans_quarter.ge)) (by decide)

/-! ### The ratios

Whether a rate is damped is a comparison of two ratios. Both are quotients of whole numbers by
positive ones, so they have results; the first is zero where the average has not changed, which is
no float in the range that `Spans` describes and is dealt with apart. -/

/-- The divisor of the first ratio. It is not zero, since one is added. -/
theorem spans_next : Spans 0 25 (previous + 1 : ℕ) :=
  have := h.previous_le
  .natCast (k := 25) (by omega) (by omega)

/-- Two averages that differ do so by at least one. -/
theorem spans_newest_sub (hne : newest ≠ previous) :
    Spans 0 24 (((newest : ℤ) - previous).natAbs : ℕ) :=
  have := h.newest_le
  have := h.previous_le
  .natCast (k := 24) (by omega) (by omega)

/-- A change is nothing or at least a small power of two. -/
theorem spans_averageChange (hne : newest ≠ previous) :
    Spans (-25) 24 (averageChange newest previous) :=
  ((h.spans_newest_sub hne).single.div h.spans_next.single).single

/-- The first ratio has a result, also where the average has not changed. -/
theorem averageChange?_eq :
    averageChange? newest previous = some (averageChange newest previous) := by
  have hprevious := h.previous_le
  have hnext : unsigned? (previous + 1) = some (previous + 1) :=
    if_pos (by change previous + 1 < 2 ^ 32; omega)
  simp only [averageChange?, Option.bind_eq_bind, Option.bind_some, hnext,
    h.spans_next.float?_eq (by decide) (by decide)]
  rcases eq_or_ne newest previous with rfl | hne
  · simp only [averageChange_self, Int.sub_self, Int.natAbs_zero, Nat.cast_zero, float?_zero,
      Option.bind_some]
    exact quotient?_zero h.spans_next.single.pos.ne'
  · simp only [(h.spans_newest_sub hne).float?_eq (by decide) (by decide), Option.bind_some]
    exact (h.spans_newest_sub hne).single.quotient?_eq h.spans_next.single (by decide) (by decide)

/-- The divisor of the second ratio. -/
theorem spans_old : Spans 0 24 (max old 1 : ℤ) := by
  have hlow := h.one_le_old
  have hhigh := h.old_le
  have hspans : Spans 0 24 (old.toNat : ℕ) := .natCast (k := 24) (by omega) (by omega)
  rwa [← Int.cast_natCast, Int.toNat_of_nonneg (by omega), ← Int.max_eq_left hlow] at hspans

/-- The step in its direction is as large as the step. -/
theorem natAbs_change :
    1 ≤ (stepSize error util newest * direction error).natAbs ∧
      (stepSize error util newest * direction error).natAbs ≤ 2 ^ 29 := by
  have hone := one_le_stepSize error util newest
  have hstep := h.stepSize_le
  rcases direction_eq error with hd | hd <;> rw [hd] <;> omega

/-- The sum is far from the ends of its word, so it does not wrap. -/
theorem natAbs_add_change :
    (old + stepSize error util newest * direction error).natAbs < 2 ^ 30 := by
  have hlow := h.one_le_old
  have hhigh := h.old_le
  have hchange := h.natAbs_change.2
  omega

/-- So the proposed rate is the plain sum. -/
theorem proposedRate_eq :
    proposedRate old error util newest = old + stepSize error util newest * direction error := by
  have hsum := h.natAbs_add_change
  rw [proposedRate, Int32.toInt_ofInt, Int32.size, Int.bmod_def]
  omega

/-- A proposed rate is another one, in the direction of the error. -/
theorem lt_proposedRate (hpos : 0 < error) : old < proposedRate old error util newest := by
  have hstep := one_le_stepSize error util newest
  rw [h.proposedRate_eq, direction_of_pos hpos]
  omega

/-- And below it for a group above its limit. -/
theorem proposedRate_lt (hneg : error < 0) : proposedRate old error util newest < old := by
  have hstep := one_le_stepSize error util newest
  rw [h.proposedRate_eq, direction_of_neg hneg]
  omega

/-- The second ratio has a result as well. -/
theorem rateChange?_eq :
    rateChange? old (proposedRate old error util newest) =
      some (rateChange old (proposedRate old error util newest)) := by
  obtain ⟨hlow, hhigh⟩ := h.natAbs_change
  have hchange : Spans 0 29 ((proposedRate old error util newest - old).natAbs : ℕ) := by
    rw [h.proposedRate_eq, add_sub_cancel_left]
    exact .natCast (k := 29) hlow hhigh
  simp only [rateChange?, Option.bind_eq_bind, Option.bind_some,
    hchange.float?_eq (by decide) (by decide), h.spans_old.float?_eq (by decide) (by decide)]
  exact hchange.single.quotient?_eq h.spans_old.single (by decide) (by decide)

/-! ### The rate that follows

The old rate is its own rounding, and the drift is not negative. What is added to the old rate or
taken from it is therefore rounded to the same side, however it is rounded: this is where the
direction comes from. Until then only the existence of the results is at stake, for which the drift
is looked at as a multiple of a unit that is far above the smallest float. -/

/-- A rate of at most `2 ^ 24` is a float. -/
theorem single_old : single old = old := by
  have hlow := h.one_le_old
  have hhigh := h.old_le
  exact single_intCast (by omega)

/-- And is no special case of a rounding. -/
theorem float?_old : float? old = some (old : ℚ) := by
  have hspans := h.spans_old.float?_eq (by decide) (by decide)
  rwa [Int.max_eq_left h.one_le_old, h.single_old] at hspans

/-- The launch average moves by nothing or by much more than the last place. -/
theorem moved_cases :
    single previous * averageChange newest previous = 0 ∨
      Spans (-25) 48 (single previous * averageChange newest previous) := by
  rcases eq_or_ne newest previous with heq | hne
  · left
    rw [heq, averageChange_self, mul_zero]
  rcases Nat.eq_zero_or_pos previous with hzero | hpos
  · left
    rw [hzero, Nat.cast_zero, single_zero, zero_mul]
  · right
    have hprevious : Spans 0 24 (previous : ℚ) := .natCast (k := 24) hpos h.previous_le
    exact hprevious.single.mul (h.spans_averageChange hne)

/-- The launch average drifts by a size; the direction is that of the error. -/
theorem drift_nonneg : 0 ≤ drift newest previous := by
  apply single_nonneg
  rcases h.moved_cases with hzero | hspans
  · exact hzero.ge
  · exact hspans.pos.le

/-- It does not drift out of the range of the floats. -/
theorem drift_le : drift newest previous ≤ 2 ^ (48 : ℤ) := by
  rw [drift]
  rcases h.moved_cases with hzero | hspans
  · rw [hzero, single_zero]
    exact (two_zpow_pos _).le
  · exact hspans.single.ge

/-- It is a multiple of a unit that is far from the smallest. -/
theorem exists_drift_eq : ∃ n : ℤ, drift newest previous = n * 2 ^ (-48 : ℤ) := by
  -- what is at least `2 ^ (-25)` has its 24 places above the unit
  rcases h.moved_cases with hzero | hspans
  · exact ⟨0, by rw [drift, hzero, single_zero, Int.cast_zero, zero_mul]⟩
  · exact exists_single_eq (hspans.le.trans (le_abs_self _))

/-- The drift itself has a result. -/
theorem float?_moved :
    float? (previous * averageChange newest previous) = some (drift newest previous) := by
  rw [← single_natCast h.previous_le, drift]
  rcases h.moved_cases with hzero | hspans
  · rw [hzero, float?_zero, single_zero]
  · exact hspans.float?_eq (by decide) (by decide)

/-- Turning it around does not change its size. -/
theorem abs_directed : |drift newest previous * direction error| = drift newest previous := by
  rw [abs_mul, abs_of_nonneg h.drift_nonneg, ← Int.cast_abs, abs_direction, Int.cast_one, mul_one]

/-- The drift in its direction has a result, and needs no rounding any more. -/
theorem float?_directed :
    float? (drift newest previous * direction error) =
      some (drift newest previous * direction error) := by
  obtain ⟨n, hn⟩ := h.exists_drift_eq
  have hmultiple : drift newest previous * direction error =
      (n * direction error : ℤ) * 2 ^ (-48 : ℤ) := by
    rw [hn, Int.cast_mul, mul_right_comm]
  have hsize := h.abs_directed.trans_le h.drift_le
  rw [float?_eq_of_multiple hmultiple hsize (by decide) (by decide)]
  rcases direction_eq error with hd | hd <;> simp [hd, drift]

/-- And so has the sum with the old rate, whichever sign the drift has. -/
theorem float?_followed :
    float? (old + drift newest previous * direction error) =
      some (single (old + drift newest previous * direction error)) := by
  obtain ⟨n, hn⟩ := h.exists_drift_eq
  have hmultiple : old + drift newest previous * direction error =
      (old * 2 ^ 48 + n * direction error : ℤ) * 2 ^ (-48 : ℤ) := by
    rw [hn]
    push_cast
    ring
  have hsize : |old + drift newest previous * direction error| ≤ 2 ^ (49 : ℤ) := by
    have hold : |(old : ℚ)| ≤ 2 ^ (48 : ℤ) := by
      have hlow := h.one_le_old
      have hhigh := h.old_le
      rw [← Int.cast_abs, abs_of_pos (by omega)]
      exact_mod_cast hhigh.trans (by decide)
    have hdrift := h.abs_directed.trans_le h.drift_le
    have hsum := (abs_add_le _ _).trans (add_le_add hold hdrift)
    rwa [← two_mul, ← zpow_one_add₀ two_ne_zero] at hsum
  exact float?_eq_of_multiple hmultiple hsize (by decide) (by decide)

/-- Every step of the following rate has its result. -/
theorem followingRate?_eq :
    followingRate? old error newest previous = some (followingRate old error newest previous) := by
  simp only [followingRate?, Option.bind_eq_bind, Option.bind_some, h.float?_old,
    float?_natCast h.previous_le, h.averageChange?_eq, h.float?_moved, h.float?_directed,
    h.float?_followed]
  rw [followingRate_eq, h.single_old]
  rfl

/-- A group below its limit does not follow its average down. -/
theorem le_followingRate (hpos : 0 < error) : old ≤ followingRate old error newest previous := by
  have hone := h.one_le_old
  have hold := h.old_le
  rw [followingRate_eq, direction_of_pos hpos, Int.cast_one, mul_one, h.single_old]
  -- the old rate is its own rounding, so a sum that is no smaller is not rounded below it
  apply le_clampTrunc (by omega) (hold.trans (by decide))
  calc (old : ℚ) = single old := h.single_old.symm
    _ ≤ single (old + drift newest previous) :=
      single_le_single (le_add_of_nonneg_right h.drift_nonneg)

/-- And one above its limit does not follow it up. -/
theorem followingRate_le (hneg : error < 0) : followingRate old error newest previous ≤ old := by
  have hone := h.one_le_old
  rw [followingRate_eq, direction_of_neg hneg, h.single_old]
  apply clampTrunc_le (by omega) (le_trans (by decide) hone)
  calc single (old + drift newest previous * (-1 : ℤ)) ≤ single old := by
        apply single_le_single
        have := h.drift_nonneg
        push_cast
        linarith
    _ = old := h.single_old

/-! ### The new rate

Both rates lie in the direction of the error, so it does not matter here which of them it becomes.
Raising the result to at least one can only matter for a group above its limit, and there the old
rate was at least one. -/

/-- The new rate fits a word with a sign, so it can be stored. -/
theorem nextRate_lt : nextRate old error util newest previous < 2 ^ 31 := by
  have hsum := h.natAbs_add_change
  have hproposed := h.proposedRate_eq
  have hfollowing : followingRate old error newest previous < 2 ^ 31 :=
    max_lt (by decide) (min_lt_of_left_lt (by decide))
  by_cases hdamped : Damped old error util newest previous
  · rw [nextRate_of_damped hdamped]
    omega
  · rw [nextRate_of_not_damped hdamped]
    omega

/-- The law has a result, which is the new rate. -/
theorem nextRate?_eq :
    nextRate? old error util newest previous = some (nextRate old error util newest previous) := by
  have hchange := signed?_eq (h.natAbs_change.2.trans_lt (by decide))
  have hproposed := signed?_eq (h.natAbs_add_change.trans (by decide))
  simp only [nextRate?, Option.bind_eq_bind, Option.bind_some, h.stepSize?_eq, hchange, hproposed,
    h.averageChange?_eq]
  rw [← h.proposedRate_eq, h.rateChange?_eq, Option.bind_some]
  by_cases hdamped : Damped old error util newest previous
  · rw [nextRate_of_damped hdamped]
    refine (if_pos hdamped).trans ?_
    rw [h.followingRate?_eq]
    rfl
  · rw [nextRate_of_not_damped hdamped]
    exact if_neg hdamped

/-- A group below its limit gets a higher rate, unless it is damped. -/
theorem lt_nextRate (hdamped : ¬ Damped old error util newest previous) (hpos : 0 < error) :
    old < nextRate old error util newest previous := by
  rw [nextRate_of_not_damped hdamped]
  exact lt_max_of_lt_left (h.lt_proposedRate hpos)

/-- And never a lower one. -/
theorem le_nextRate (hpos : 0 < error) : old ≤ nextRate old error util newest previous := by
  by_cases hdamped : Damped old error util newest previous
  · rw [nextRate_of_damped hdamped]
    exact (h.le_followingRate hpos).trans (le_max_left _ _)
  · exact (h.lt_nextRate hdamped hpos).le

/-- A group above its limit never gets a higher one. -/
theorem nextRate_le (hneg : error < 0) : nextRate old error util newest previous ≤ old := by
  have hold := h.one_le_old
  by_cases hdamped : Damped old error util newest previous
  · rw [nextRate_of_damped hdamped]
    exact max_le (h.followingRate_le hneg) hold
  · have hproposed := h.proposedRate_lt hneg
    rw [nextRate_of_not_damped hdamped]
    exact max_le hproposed.le hold

/-- It gets a lower one, unless it is damped or cannot be lowered. -/
theorem nextRate_lt_old (hdamped : ¬ Damped old error util newest previous) (hneg : error < 0)
    (hne : old ≠ 1) : nextRate old error util newest previous < old := by
  have hold := h.one_le_old
  have hproposed := h.proposedRate_lt hneg
  rw [nextRate_of_not_damped hdamped]
  exact max_lt hproposed (by omega)

end Retunable

/-- **A rate never moves away from the limit.** Every step has a result; the new rate is at least
one, and it is not lower than the old one for a group below its limit and not higher for one above.
Unless the launch average damps it, it is another one, but for a rate of one that cannot be lowered.
-/
theorem nextRate_toward_limit (h : Retunable old error util newest previous) :
    nextRate? old error util newest previous = some (nextRate old error util newest previous) ∧
    1 ≤ nextRate old error util newest previous ∧
    (0 < error → old ≤ nextRate old error util newest previous) ∧
    (error < 0 → nextRate old error util newest previous ≤ old) ∧
    (¬ Damped old error util newest previous →
      (0 < error → old < nextRate old error util newest previous) ∧
      (error < 0 → old ≠ 1 → nextRate old error util newest previous < old)) := by
  refine ⟨h.nextRate?_eq, one_le_nextRate _ _ _ _ _, h.le_nextRate, h.nextRate_le, ?_⟩
  intro hdamped
  exact ⟨h.lt_nextRate hdamped, fun hneg hne => h.nextRate_lt_old hdamped hneg hne⟩

/-- Launches that went from 20 to 22 damp the rate of a group that is far below its limit. -/
theorem nextRate_toward_limit_of_damped :
    Retunable 10 40 10 22 20 ∧ Damped 10 40 10 22 20 ∧ nextRate 10 40 10 22 20 = 11 ∧
      nextRate? 10 40 10 22 20 = some 11 := by
  have h : Retunable 10 40 10 22 20 := by constructor <;> decide
  have hrate : nextRate 10 40 10 22 20 = 11 := by decide +kernel
  exact ⟨h, by decide +kernel, hrate, (nextRate_toward_limit h).1.trans (congrArg some hrate)⟩

/-! ## The controller

A controller hands the law what it has loaded: a rate that is at least one, and shares as words.
Where these are percentages the error is their difference, and it is the law's answer that is
announced. -/

namespace Controller

variable {controller : Controller} {region : TokenRegion} {util limit rate : UInt32}

/-- The error is a matter of shares, which are small. -/
theorem toInt_error (hutil : util.toNat ≤ 100) (hlimit : limit.toNat ≤ 100) :
    (limit.toInt32 - util.toInt32).toInt = limit.toNat - util.toNat := by
  rw [Int32.toInt_sub, toInt_toInt32 (by omega), toInt_toInt32 (by omega), Int.bmod_def]
  omega

/-- After the first window it is the new rate that is decided on. -/
theorem eq_nextRate_of_choose? {old ticks word : Int32} {newest previous : UInt32}
    (hticks : controller.window < ticks)
    (h : controller.choose? old ticks util limit newest previous = some word) :
    limit.toInt32 - util.toInt32 ≠ 0 ∧
      word = Int32.ofInt (nextRate old.toInt (limit.toInt32 - util.toInt32).toInt util.toNat
        newest.toNat previous.toNat) := by
  rw [choose?, if_neg (Int32.not_le.2 hticks)] at h
  split at h
  · cases h
  · dsimp only at h
    split at h
    · cases h
    · next herror => exact ⟨herror, (Option.some.inj h).symm⟩

/-- Where the shares are percentages and nothing is larger than `2 ^ 24`, the rate that is announced
is the new rate. -/
theorem toNat_of_feed (hfeed : (controller.feed region util limit).1 = some rate)
    (hticks : controller.window < region.tick.ticks) (hutil : util.toNat ≤ 100)
    (hlimit : limit.toNat ≤ 100) (hold : region.rate.toNat ≤ 2 ^ 24)
    (hnewest : region.averages.1.toNat ≤ 2 ^ 24) (hprevious : region.averages.2.toNat ≤ 2 ^ 24) :
    Retunable region.rate.toNat (limit.toNat - util.toNat) util.toNat region.averages.1.toNat
      region.averages.2.toNat ∧
    (rate.toNat : ℤ) = nextRate region.rate.toNat (limit.toNat - util.toNat) util.toNat
      region.averages.1.toNat region.averages.2.toNat := by
  -- a sample that finds something pending publishes nothing
  have hpending : region.isPending = false := by
    by_contra hne
    rw [feed_of_isPending (by simpa using hne)] at hfeed
    cases hfeed
  rw [feed_eq controller hpending] at hfeed
  split at hfeed
  · cases hfeed
  · next word hchoose =>
    obtain ⟨hne, hword⟩ := eq_nextRate_of_choose? hticks hchoose
    rw [← Int32.toInt_inj.ne, toInt_error hutil hlimit, Int32.toInt_zero] at hne
    rw [toInt_error hutil hlimit, toInt_toInt32 (by omega)] at hword
    have hretunable : Retunable region.rate.toNat (limit.toNat - util.toNat) util.toNat
        region.averages.1.toNat region.averages.2.toNat :=
      have := region.one_le_rate
      ⟨by omega, by omega, hne, by omega, hutil, hnewest, hprevious⟩
    have hlt := hretunable.nextRate_lt
    have hone := one_le_nextRate region.rate.toNat (limit.toNat - util.toNat) util.toNat
      region.averages.1.toNat region.averages.2.toNat
    refine ⟨hretunable, ?_⟩
    rw [← Option.some.inj hfeed, hword]
    change ((atLeast 1 (Int32.ofInt (nextRate _ _ _ region.averages.1.toNat
      region.averages.2.toNat))).toNat : ℤ) = _
    generalize nextRate region.rate.toNat (limit.toNat - util.toNat) util.toNat
      region.averages.1.toNat region.averages.2.toNat = new at hlt hone
    -- the new rate is positive and fits the word, so the reader sees it
    lift new to ℕ using (by omega)
    rw [(toNat_atLeast_ofInt_iff (by omega)).2 (by omega)]

/-- **A published rate never moves away from the limit.** -/
theorem feed_toward_limit (hfeed : (controller.feed region util limit).1 = some rate)
    (hticks : controller.window < region.tick.ticks) (hutil : util.toNat ≤ 100)
    (hlimit : limit.toNat ≤ 100) (hold : region.rate.toNat ≤ 2 ^ 24)
    (hnewest : region.averages.1.toNat ≤ 2 ^ 24) (hprevious : region.averages.2.toNat ≤ 2 ^ 24) :
    (util < limit → region.rate ≤ rate) ∧ (limit < util → rate ≤ region.rate) := by
  obtain ⟨hretunable, hrate⟩ :=
    toNat_of_feed hfeed hticks hutil hlimit hold hnewest hprevious
  simp only [UInt32.lt_iff_toNat_lt, UInt32.le_iff_toNat_le]
  constructor
  · intro hbelow
    have := hretunable.le_nextRate (by omega)
    omega
  · intro habove
    have := hretunable.nextRate_le (by omega)
    omega

end Controller

end GpuQuota.Pacing
