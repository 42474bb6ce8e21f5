import GpuQuota.Fault

/-!
# Notices

What an operation tells the operator besides its answer. Operations return their notices in
order; writing them out is the caller's concern.
-/

namespace GpuQuota

/-- How urgent a notice is. -/
inductive Severity where
  | warn
  | error
  deriving DecidableEq, Repr

/-- One notice. -/
inductive Notice where
  /-- A limit in the environment was refused and does not take effect. -/
  | limitRefused (fault : SettingsFault)
  /-- A settings file was not used. -/
  | fileIgnored (path : String) (fault : SettingsFault)
  /-- A control group id on the command line was cut to the length that processes use. -/
  | groupTruncated (value : String) (length : Nat)
  /-- The region of a device was laid out with another ceiling, which stays in force. -/
  | ceilingKept (minor : UInt32) (kept ignored : UInt64)
  /-- An allocation did not fit. -/
  | allocationRejected (bytes free : UInt64)
  /-- Utilization samples could not be read. -/
  | samplesUnreadable (fault : DeviceFault)
  deriving DecidableEq, Repr

/-- Samples that cannot be read are an error; anything else is a warning. -/
def Notice.severity : Notice → Severity
  | .samplesUnreadable _ => .error
  | _ => .warn

/-- The notice in words. -/
def Notice.text : Notice → String
  | .limitRefused fault => fault.message
  | .fileIgnored path fault => "Ignoring " ++ path ++ ": " ++ fault.message
  | .groupTruncated value length =>
    "cgroup id " ++ value ++ " truncated to " ++ toString length ++ " characters"
  | .ceilingKept minor kept ignored =>
    "Memory region for minor " ++ toString minor ++ " already limits to " ++ toString kept ++
      " bytes, ignoring " ++ toString ignored
  | .allocationRejected bytes free =>
    "Rejecting allocation of " ++ toString bytes ++ " bytes, " ++ toString free ++ " free"
  | .samplesUnreadable fault => "Cannot read utilization samples: " ++ fault.message

/-- The line of a notice: its severity, a colon and its text. -/
def Notice.line (notice : Notice) : String :=
  (match notice.severity with | .warn => "WARN: " | .error => "ERROR: ") ++ notice.text

end GpuQuota
