import GpuQuota.Number.Rounding
import GpuQuota.Pacing.TokenRegion
import GpuQuota.Settings.Config

/-!
# The feedback law

A controller sees how busy a control group keeps the device and moves the group's token rate
until that meets the limit. In the first sample window the rate climbs by one with every sample as
long as it is small. From then on it is retuned once in a window, by a quarter of the error, which
is first converted from percent of utilization to launches. Where the launch rate has changed
relatively less than the proposed rate would, it is the launch rate that sets the pace.

The law is computed in 32-bit floating point: `single` marks each of its roundings. What is cut off
to a whole number stops at the ends of a 32-bit word with a sign; a sum of two such words wraps.

What a controller decides (`Controller.choose?`) depends on what it has loaded from the region and
on the sample, and on nothing else. `Controller.feed` loads, decides and announces.

* `one_le_nextRate`: no retuning stops a group altogether.
* `feed_of_isPending`: nothing moves before the last rate has been consumed.
* `feed_eq`: without a pending publication it is the decision that is announced.
-/

namespace GpuQuota.Pacing

open GpuQuota.Number GpuQuota.Settings

/-- The direction of an error: up for a group that is below its limit. -/
def direction (error : Int) : Int := if 0 < error then 1 else -1

/-- The utilization that one launch accounts for. -/
def utilPerLaunch (util newest : Nat) : Rat :=
  single (single (max util 1 : Nat) / single (max newest 1 : Nat))

/-- A quarter of an error in launches, and at least one. -/
def stepSize (error : Int) (util newest : Nat) : Int :=
  max (clampTrunc Int32.minValue.toInt Int32.maxValue.toInt
    (single (single (single error.natAbs / utilPerLaunch util newest) / 4))) 1

/-- How much the launch average has changed, relative to the previous one. -/
def averageChange (newest previous : Nat) : Rat :=
  single (single ((newest : Int) - previous).natAbs / single (previous + 1 : Nat))

/-- How much a new rate differs, relative to the old one. -/
def rateChange (old new : Int) : Rat :=
  single (single (new - old).natAbs / single (max old 1 : Int))

/-- The rate that follows the launch average in the direction of the error. -/
def followingRate (old error : Int) (newest previous : Nat) : Int :=
  clampTrunc Int32.minValue.toInt Int32.maxValue.toInt
    (single (single old +
      single (single (previous : Nat) * averageChange newest previous) * direction error))

/-- The rate that is proposed: a step in the direction of the error. The sum is a word. -/
def proposedRate (old error : Int) (util newest : Nat) : Int :=
  (Int32.ofInt (old + stepSize error util newest * direction error)).toInt

/-- The rate after one retuning, from the utilization and the last two launch averages. -/
def nextRate (old error : Int) (util newest previous : Nat) : Int :=
  let proposed := proposedRate old error util newest
  let damped := newest ≠ previous ∧ averageChange newest previous < rateChange old proposed
  max (if damped then followingRate old error newest previous else proposed) 1

/-- No retuning stops a group altogether. -/
theorem one_le_nextRate (old error : Int) (util newest previous : Nat) :
    1 ≤ nextRate old error util newest previous :=
  Int.le_max_right _ _

/-- A controller's settings. -/
structure Controller where
  /-- the length of a sample window in ticks -/
  window : Int32
  /-- the largest rate that still climbs in the first window -/
  bootstrapMax : Int32
  deriving DecidableEq, Repr, Inhabited

namespace Controller

/-- A controller with a window of at least one tick. -/
def create (window bootstrapMax : Int32) : Controller := ⟨max window 1, bootstrapMax⟩

/-- The controller that a configuration asks for. -/
def ofConfig (config : MonitorConfig) : Controller :=
  create config.sampleTicks config.bootstrapMaxRate

/-- The rate that is decided on, if it is to be changed, from the rate and the ticks that were
loaded, a sample and the last two averages. -/
def choose? (controller : Controller) (old ticks : Int32) (util limit newest previous : UInt32) :
    Option Int32 :=
  if ticks ≤ controller.window then
    if controller.bootstrapMax < old then none else some (old + 1)
  else if ticks % controller.window ≠ 0 then none
  else
    let error := limit.toInt32 - util.toInt32
    if error = 0 then none
    else
      some (Int32.ofInt
        (nextRate old.toInt error.toInt util.toNat newest.toNat previous.toNat))

/-- Writes a rate, which is at least one, and announces it. -/
def announce (region : TokenRegion) (rate : Int32) : Option UInt32 × TokenRegion :=
  let rate := atLeast 1 rate
  (some rate, (region.setRate rate).publish)

/-- Takes in one sample of the utilization; the answer is the rate that was published for it, if
one was. -/
def feed (controller : Controller) (region : TokenRegion) (util limit : UInt32) :
    Option UInt32 × TokenRegion :=
  if region.isPending then (none, region)
  else
    let old := region.rate.toInt32
    let region := region.tick
    let (newest, previous) := region.averages
    match controller.choose? old region.ticks util limit newest previous with
    | none => (none, region)
    | some word => announce region word

/-- As long as the last rate has not been consumed the sample is passed over: not even the tick
counts. -/
theorem feed_of_isPending {controller : Controller} {region : TokenRegion} {util limit : UInt32}
    (h : region.isPending = true) : controller.feed region util limit = (none, region) := by
  simp [feed, h]

/-- A controller counts the tick and announces the rate that it decides on. -/
theorem feed_eq (controller : Controller) {region : TokenRegion} (h : region.isPending = false)
    (util limit : UInt32) :
    controller.feed region util limit =
      match controller.choose? region.rate.toInt32 region.tick.ticks util limit
        region.tick.averages.1 region.tick.averages.2 with
      | none => (none, region.tick)
      | some word => announce region.tick word := by
  simp only [feed, h, Bool.false_eq_true, if_false]

end Controller

end GpuQuota.Pacing
