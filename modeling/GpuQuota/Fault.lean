import GpuQuota.OsError

/-!
# What can go wrong

One inductive type of causes for each part of the library, and `Fault`, which holds any of them.
A cause carries what its message needs; the wording is in the `message` functions alone, so two
faults are compared as values and never as text.
-/

namespace GpuQuota

/-- Faults of the device library that reports utilization. -/
inductive DeviceFault where
  | libraryNotFound
  | entryPointMissing (name : String)
  | setUpFailed (reason : String)
  | callFailed (function : String) (code : UInt32)
  | deviceNotFound (minor : UInt32)
  | noSamples
  | unsupported (what : String)
  | other (text : String)
  /-- Setting up failed because the library has no entry point of that name. -/
  | setUpIncomplete (name : String)
  /-- A query failed because the library has no entry point of that name. -/
  | queryIncomplete (name : String)
  deriving DecidableEq, Repr

/-- Faults of a settings file or a limit. -/
inductive SettingsFault where
  | fileNotFound (path : String)
  | invalidLimit (key message : String)
  | invalidValue (key message : String)
  /-- The file is no document of its format, or a value has the wrong type. -/
  | malformedFile
  deriving DecidableEq, Repr

/-- Faults of shared memory. -/
inductive RegionFault where
  | openFailed (name : String) (error : OsError)
  | resizeFailed (name : String) (error : OsError)
  | mapFailed (name : String) (error : OsError)
  | notReady (name : String)
  | semaphore (error : OsError)
  | invalidName (name : String)
  deriving DecidableEq, Repr

/-- Any fault. -/
inductive Fault where
  | device (fault : DeviceFault)
  | settings (fault : SettingsFault)
  | region (fault : RegionFault)
  /-- A thread died while it held the lock of the token bucket. -/
  | bucketPoisoned
  /-- No loaded module defines a symbol that interposing needs. -/
  | symbolNotFound (name : String)
  | groupNotFound (pid : UInt32)
  | spawnFailed (error : OsError)
  | io (error : OsError)
  deriving DecidableEq, Repr

/-- The fault in words, as operators read it. -/
def DeviceFault.message : DeviceFault → String
  | .libraryNotFound => "NVML library not found. Is the NVIDIA driver installed?"
  | .entryPointMissing name => "NVML entry point not available: " ++ name
  | .setUpFailed reason => "Failed to initialize NVML: " ++ reason
  | .callFailed function code =>
    function ++ " failed with NVML error code " ++ toString code
  | .deviceNotFound minor => "GPU device not found for minor " ++ toString minor
  | .noSamples => "No utilization samples since last poll"
  | .unsupported what => "Operation not supported: " ++ what
  | .other text => "NVML error: " ++ text
  | .setUpIncomplete name =>
    "Failed to initialize NVML: a function symbol failed to load: " ++ name
  | .queryIncomplete name => "NVML error: a function symbol failed to load: " ++ name

/-- The fault in words. -/
def SettingsFault.message : SettingsFault → String
  | .fileNotFound path => "Configuration file not found: " ++ path
  | .invalidLimit key message => "Invalid limit in " ++ key ++ ": " ++ message
  | .invalidValue key message =>
    "Invalid configuration value for '" ++ key ++ "': " ++ message
  | .malformedFile => "TOML parse error"

/-- The fault in words, with the name of the region. -/
def RegionFault.message : RegionFault → String
  | .openFailed name error =>
    "Failed to open shared memory " ++ name ++ ": " ++ error.describe
  | .resizeFailed name error =>
    "Failed to size shared memory " ++ name ++ ": " ++ error.describe
  | .mapFailed name error =>
    "Failed to map shared memory " ++ name ++ ": " ++ error.describe
  | .notReady name => "Shared memory " ++ name ++ " was not initialized in time"
  | .semaphore error => "Semaphore operation failed: " ++ error.describe
  | .invalidName name => "Invalid shared memory name: " ++ name

/-- The fault in words, whatever it is about. -/
def Fault.message : Fault → String
  | .device fault => "NVML error: " ++ fault.message
  | .settings fault => "Configuration error: " ++ fault.message
  | .region fault => "Shared memory error: " ++ fault.message
  | .bucketPoisoned => "Throttle error: Token semaphore is poisoned"
  | .symbolNotFound name => "Bootstrap error: Loader symbol not found: " ++ name
  | .groupNotFound pid => "Cannot determine cgroup id of pid " ++ toString pid
  | .spawnFailed error => "Failed to spawn refill thread: " ++ error.report
  | .io error => "IO error: " ++ error.report

end GpuQuota
