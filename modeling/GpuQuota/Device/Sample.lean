/-!
# Utilization samples

The device library reports how busy each process has kept a device, one sample for each process
and sampling period.
-/

namespace GpuQuota.Device

/-- One process's use of a device in one sampling period. -/
structure Sample where
  pid : UInt32
  /-- when the period ended, in microseconds of the library's clock -/
  timestampUs : UInt64
  /-- the share of time the compute units were busy, in percent -/
  compute : UInt32
  /-- the share of time memory was accessed, in percent -/
  memory : UInt32 := 0
  deriving DecidableEq, Repr, Inhabited

/-- Whether a sample was taken at or after a time. -/
def Sample.isFresh (sample : Sample) (sinceUs : UInt64) : Bool := sinceUs ≤ sample.timestampUs

/-- A sample as it is logged. -/
def Sample.text (sample : Sample) : String :=
  "PID " ++ toString sample.pid ++ ": sm " ++ toString sample.compute ++ "% mem " ++
    toString sample.memory ++ "% @" ++ toString sample.timestampUs

end GpuQuota.Device
