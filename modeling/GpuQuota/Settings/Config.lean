import GpuQuota.Notice
import GpuQuota.Settings.Environment
import GpuQuota.Text.Blank

/-!
# Configuration

The tunables of a governed process and of a monitor, their defaults, and what follows from them.
A configuration is built in layers: the defaults, a file, the environment, the command line; a
later layer overrides an earlier one field by field.

Durations are configured in milliseconds and used in nanoseconds.
-/

namespace GpuQuota.Settings

open GpuQuota.Text

/-- How a governed process waits. -/
structure ThrottleConfig where
  /-- the length of a refill cycle where the region gives none -/
  waitIntervalMs : UInt64 := 100
  /-- whether a process may write the first parameters itself -/
  standalone : Bool := false
  /-- how long a process waits for a region to be laid out -/
  readyTimeoutMs : UInt64 := 5000
  deriving DecidableEq, Repr, Inhabited

/-- Where shared regions are. -/
structure RegionConfig where
  namePrefix : String := "/cuda_hook"
  deriving DecidableEq, Repr, Inhabited

/-- How a monitor samples. -/
structure MonitorConfig where
  /-- the time between two samples -/
  intervalMs : UInt64 := 100
  /-- the length of a sample window -/
  sampleWindowSecs : UInt64 := 5
  /-- the largest rate that still climbs in the first window -/
  bootstrapMaxRate : Int32 := 3
  /-- the room for samples -/
  maxSamples : UInt32 := 200
  deriving DecidableEq, Repr, Inhabited

/-- All tunables. -/
structure Config where
  throttle : ThrottleConfig := {}
  region : RegionConfig := {}
  monitor : MonitorConfig := {}
  deriving DecidableEq, Repr, Inhabited

/-- The interval between two refills in milliseconds, at least one. -/
def ThrottleConfig.waitInterval (config : ThrottleConfig) : UInt64 :=
  max config.waitIntervalMs 1

/-- The same in nanoseconds. -/
def ThrottleConfig.waitIntervalNs (config : ThrottleConfig) : Nat :=
  config.waitInterval.toNat * 1000000

/-- The interval between two polls in milliseconds, at least one. -/
def MonitorConfig.interval (config : MonitorConfig) : UInt64 :=
  max config.intervalMs 1

/-- How many polls one sample window holds, at least one. An interval over a second counts as a
second; the window is taken as a 32-bit word. -/
def MonitorConfig.sampleTicks (config : MonitorConfig) : Int32 :=
  let perSecond := 1000 / max 1 (min config.intervalMs 1000)
  max (perSecond.toUInt32.toInt32 * config.sampleWindowSecs.toUInt32.toInt32) 1

/-- The lower-case hexadecimal digits of a number. -/
def hexText (n : UInt32) : String :=
  String.ofList (Nat.toDigits 16 n.toNat)

/-- The name of the compute region of a control group on a device. -/
def RegionConfig.tokenName (config : RegionConfig) (minor : UInt32) (group : String) : String :=
  config.namePrefix ++ "." ++ hexText minor ++ "." ++ group

/-- The name of the memory region of a device. -/
def RegionConfig.memoryName (config : RegionConfig) (minor : UInt32) : String :=
  config.namePrefix ++ ".fb." ++ hexText minor

/-- The variable that names the settings file. -/
def fileVariable : String := "CUDAGOV_CONFIG"

/-- The variable that lets a process do without a monitor. -/
def standaloneVariable : String := "CUDAGOV_STANDALONE"

/-- The words that switch a setting on; every other word switches it off. -/
def isAffirmative (text : List Char) : Bool :=
  ["1", "true", "yes"].any fun word => word.toList = trim text

namespace Config

/-- A file that was read replaces everything; one that was not is told of and changes nothing. -/
def withFile (config : Config) (path : String) :
    Except SettingsFault Config → Config × List Notice
  | .ok loaded => (loaded, [])
  | .error fault => (config, [.fileIgnored path fault])

/-- Replaces the setting, where there is one. -/
def withStandalone (config : Config) : Option Bool → Config
  | some value => { config with throttle.standalone := value }
  | none => config

/-- The layer of the environment: whether to do without a monitor. -/
def withEnvironment (config : Config) (env : Environment) : Config :=
  config.withStandalone ((env standaloneVariable).map fun text => isAffirmative text.toList)

/-- Replaces the time between two polls, where there is one. -/
def withMonitorInterval (config : Config) : Option UInt64 → Config
  | some ms => { config with monitor.intervalMs := ms }
  | none => config

/-- Replaces the time between two refills, where there is one. -/
def withWaitInterval (config : Config) : Option UInt64 → Config
  | some ms => { config with throttle.waitIntervalMs := ms }
  | none => config

/-- Replaces the prefix of region names, where there is one. -/
def withNamePrefix (config : Config) : Option String → Config
  | some text => { config with region.namePrefix := text }
  | none => config

end Config

end GpuQuota.Settings
