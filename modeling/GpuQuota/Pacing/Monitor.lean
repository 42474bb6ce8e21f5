import GpuQuota.Device.Sample
import GpuQuota.Notice
import GpuQuota.Pacing.Feedback

/-!
# Monitors

A monitor looks after the compute quota of one control group on one device. It takes the token
region over, and from then on feeds the controller with the utilization of the group's process.
Samples that are older than the poll asks for, or of another group's processes, do not count.

* `poll_eq_feed`: a poll with a sample of the group is one step of the controller.
* `targetSample_filter`: samples that do not count make no difference.
-/

namespace GpuQuota.Pacing

open GpuQuota.Device GpuQuota.Settings

/-- One monitor. -/
structure Monitor where
  /-- the limit that the group is held to, on one device -/
  quota : ComputeQuota
  /-- the group whose samples count -/
  group : String
  /-- how the rate is decided -/
  controller : Controller
  deriving Repr, Inhabited

namespace Monitor

/-- Takes a region over: writes its first parameters, or else waits for them and adopts the
quota's limit; then it announces them in either case. There is no answer while it waits. -/
def takeOver? (region : TokenRegion) (config : ThrottleConfig) (quota : ComputeQuota) :
    Option (Except RegionFault TokenRegion) :=
  match region.setUp quota.percent config.waitIntervalNs with
  | (.error error, _) => some (.error (.semaphore error))
  | (.ok true, ready) => some (.ok ready.publish)
  | (.ok false, other) =>
    other.waitReady?.map fun
      | .error error => .error (.semaphore error)
      | .ok ready => .ok (ready.retarget quota.percent).2.publish

/-- The monitor of a group. -/
def create (config : Config) (quota : ComputeQuota) (group : String) : Monitor :=
  ⟨quota, group, .ofConfig config.monitor⟩

/-- Whether a sample counts: it is recent and its process belongs to the group. -/
def counts (monitor : Monitor) (groupOf : UInt32 → Option String) (sinceUs : UInt64)
    (sample : Sample) : Bool :=
  sample.isFresh sinceUs && groupOf sample.pid == some monitor.group

/-- The first sample that counts. -/
def targetSample (monitor : Monitor) (groupOf : UInt32 → Option String) (sinceUs : UInt64)
    (samples : List Sample) : Option Sample :=
  samples.find? (monitor.counts groupOf sinceUs)

/-- Feeds the controller with what the device library answered. The result is the rate that was
published, if one was; that there were no samples is nothing to tell of. -/
def poll (monitor : Monitor) (groupOf : UInt32 → Option String) (sinceUs : UInt64)
    (answer : Except DeviceFault (List Sample)) (region : TokenRegion) :
    Option UInt32 × TokenRegion × List Notice :=
  match answer with
  | .error .noSamples => (none, region, [])
  | .error fault => (none, region, [.samplesUnreadable fault])
  | .ok samples =>
    match monitor.targetSample groupOf sinceUs samples with
    | none => (none, region, [])
    | some sample =>
      let (rate, region) :=
        monitor.controller.feed region sample.compute monitor.quota.percent
      (rate, region, [])

theorem targetSample_filter (monitor : Monitor) (groupOf : UInt32 → Option String)
    (sinceUs : UInt64) (samples : List Sample) :
    monitor.targetSample groupOf sinceUs (samples.filter (monitor.counts groupOf sinceUs)) =
      monitor.targetSample groupOf sinceUs samples := by
  unfold targetSample
  rw [List.find?_filter]
  simp

theorem poll_eq_feed {monitor : Monitor} {groupOf : UInt32 → Option String} {sinceUs : UInt64}
    {samples : List Sample} {sample : Sample} {region : TokenRegion}
    (h : monitor.targetSample groupOf sinceUs samples = some sample) :
    (monitor.poll groupOf sinceUs (.ok samples) region).1 =
      (monitor.controller.feed region sample.compute monitor.quota.percent).1 := by
  simp [poll, h]

end Monitor

end GpuQuota.Pacing
