import GpuQuota.Device.ReturnCode
import GpuQuota.Device.Sample
import GpuQuota.Fault

/-!
# The device library

The devices of a machine are reached through a library that comes with their driver. Which entry
points it has depends on its age: some have a successor under another name, and either will do.

Devices are numbered in two ways. The library counts them by an index, while applications and
settings know them by the minor number of their device file. `indexOf?` goes through the indices
for a minor number; where nothing is found, the minor number is taken for the index itself.

* `minorAt?_of_indexOf?`: the index found for a minor number reports that number.
* `indexOf?_least`: no lower index does.
* `Session.tearDowns_le_setUps`: only what has been set up is torn down.
-/

namespace GpuQuota.Device

/-- What the library answers about one device. -/
structure Gpu where
  /-- the minor number of its device file -/
  minor : Answer UInt32
  /-- the clock of its compute units, in MHz -/
  current : Answer UInt32
  /-- the highest that users may set -/
  highest : Answer UInt32
  /-- the samples that fit into so much room, taken since a time in microseconds, and a count of
  samples, which may be more -/
  samples : UInt32 → UInt64 → Answer (List Sample × UInt32)
  /-- the bytes of its memory, all and free -/
  memory : Answer (UInt64 × UInt64)
  name : Answer String
  uuid : Answer String
  /-- the clock as the summary of a device gives it -/
  clock : Answer UInt32
  /-- the highest, likewise -/
  boost : Answer UInt32

/-- A library that has been found. -/
structure Library where
  /-- whether it has an entry point of a name -/
  provides : String → Bool
  setUp : Answer Unit
  /-- how many devices there are -/
  count : Answer UInt32
  /-- the device of an index -/
  gpu : UInt32 → Answer Gpu
  /-- the same, asked by the newer entry point -/
  newerGpu : UInt32 → Answer Gpu := gpu

/-- The libraries of a machine by their file names. -/
abbrev Installed := String → Option Library

/-! ## Sessions

Whoever uses the library sets it up first and tears it down in the end, on every way out. A set-up
that fails leaves nothing to tear down. -/

/-- What comes of using a library, and how often it was set up and torn down for it. -/
structure Session (α : Type) where
  setUps : Nat
  tearDowns : Nat
  result : Except DeviceFault α

namespace Session

variable {α : Type}

/-- A session that ended before the library was set up. -/
def refused (fault : DeviceFault) : Session α := ⟨0, 0, .error fault⟩

/-- A session from setting the library up to tearing it down, unless setting up fails. -/
def run (setUp : Answer Unit) (failure : ReturnCode → DeviceFault)
    (work : Except DeviceFault α) : Session α :=
  match setUp with
  | .ok _ => ⟨1, 1, work⟩
  | .error code => ⟨1, 0, .error (failure code)⟩

theorem tearDowns_le_setUps (setUp : Answer Unit) (failure : ReturnCode → DeviceFault)
    (work : Except DeviceFault α) :
    (run setUp failure work).tearDowns ≤ (run setUp failure work).setUps := by
  cases setUp <;> simp [run]

theorem work_of_result {setUp : Answer Unit} {failure : ReturnCode → DeviceFault}
    {work : Except DeviceFault α} {given : α} (h : (run setUp failure work).result = .ok given) :
    work = .ok given := by
  cases setUp with
  | error code => cases h
  | ok _ => exact h

end Session

/-! ## Entry points

The names as the library exports them. A successor has a mark of its version at the end. -/

namespace Library

/-- How many devices there are. -/
def countEntry : String := "nvmlDeviceGetCount"

/-- The successor of `countEntry`. -/
def countEntry2 : String := "nvmlDeviceGetCount_v2"

/-- The minor number of a device. -/
def minorEntry : String := "nvmlDeviceGetMinorNumber"

/-- The device of an index. -/
def handleEntry : String := "nvmlDeviceGetHandleByIndex"

/-- The successor of `handleEntry`. -/
def handleEntry2 : String := "nvmlDeviceGetHandleByIndex_v2"

/-- Sets the library up. -/
def setUpEntry : String := "nvmlInit"

/-- The successor of `setUpEntry`. -/
def setUpEntry2 : String := "nvmlInit_v2"

/-- A clock of a device. -/
def clockEntry : String := "nvmlDeviceGetClock"

/-- The samples of a device. -/
def samplesEntry : String := "nvmlDeviceGetProcessUtilization"

/-- The file names that a library may have, the first one first. -/
def fileNames : List String := ["libnvidia-ml.so.1", "libnvidia-ml.so"]

/-- The entry points that sampling needs, in the order they are looked for, each with its
alternatives. -/
def required : List (List String) :=
  [[setUpEntry, setUpEntry2], ["nvmlShutdown"], [handleEntry, handleEntry2], [samplesEntry],
    [clockEntry]]

/-- The name of the first entry point that is needed and missing. Of alternatives it is the
last. -/
def missing? (library : Library) : Option String :=
  (required.find? fun names => !names.any library.provides).bind List.getLast?

/-- Opens the library for sampling. -/
def load (installed : Installed) : Session Library :=
  match fileNames.findSome? installed with
  | none => .refused .libraryNotFound
  | some library =>
    match library.missing? with
    | some name => .refused (.entryPointMissing name)
    | none =>
      .run library.setUp
        (fun code => .setUpFailed (setUpEntry ++ " returned " ++ toString code)) (.ok library)

/-! ## Devices by minor number

The search asks the devices one by one, from index zero. A device that cannot be had, or does not
report its number, is passed over. -/

/-- The minor number that the device of an index reports, if it does. -/
def minorAt? (library : Library) (index : UInt32) : Option UInt32 :=
  match library.gpu index with
  | .ok gpu => if library.provides minorEntry then gpu.minor.toOption else none
  | .error _ => none

/-- The first of so many indices from `index` on whose device reports a minor number. -/
def searchFrom? (library : Library) (minor index : UInt32) : Nat → Option UInt32
  | 0 => none
  | left + 1 =>
    if library.minorAt? index = some minor then some index
    else library.searchFrom? minor (index + 1) left

/-- The lowest index below a count whose device reports a minor number. -/
def indexOf? (library : Library) (count minor : UInt32) : Option UInt32 :=
  library.searchFrom? minor 0 count.toNat

/-- Whether devices can be told by their minor numbers. -/
def reportsMinors (library : Library) : Bool :=
  (library.provides countEntry || library.provides countEntry2) && library.provides minorEntry

/-- The index at which a device is looked for. -/
def indexFor (library : Library) (minor : UInt32) : Answer UInt32 :=
  if library.reportsMinors then
    library.count.map fun count => (library.indexOf? count minor).getD minor
  else .ok minor

/-- The device of a minor number. -/
def gpuOfMinor (library : Library) (minor : UInt32) : Except DeviceFault Gpu :=
  match library.indexFor minor with
  | .error code => .error (.callFailed countEntry code)
  | .ok index => (library.gpu index).mapError fun _ => .deviceNotFound minor

/-- What is found reports the number. -/
theorem minorAt?_of_searchFrom? {library : Library} {minor start index : UInt32} {left : Nat}
    (h : library.searchFrom? minor start left = some index) :
    library.minorAt? index = some minor := by
  induction left generalizing start with
  | zero => simp [searchFrom?] at h
  | succ left ih =>
    rw [searchFrom?] at h
    split at h
    · next hminor => exact Option.some.inj h ▸ hminor
    · exact ih h

/-- No index that was passed over reports it. -/
theorem searchFrom?_least {library : Library} {minor start index : UInt32} {left : Nat}
    (hleft : start.toNat + left ≤ UInt32.size)
    (h : library.searchFrom? minor start left = some index) {lower : UInt32}
    (hstart : start.toNat ≤ lower.toNat) (hlower : lower.toNat < index.toNat) :
    library.minorAt? lower ≠ some minor := by
  induction left generalizing start with
  | zero => simp [searchFrom?] at h
  | succ left ih =>
    rw [searchFrom?] at h
    split at h
    · obtain rfl := Option.some.inj h
      omega
    · next hminor =>
      rcases Nat.eq_or_lt_of_le hstart with heq | hlt
      · exact UInt32.toNat_inj.1 heq ▸ hminor
      · have hsize : UInt32.size = 2 ^ 32 := rfl
        have hindex := lower.toNat_lt
        have hnext : (start + 1).toNat = start.toNat + 1 := by
          rw [UInt32.toNat_add, UInt32.toNat_one, Nat.mod_eq_of_lt (by omega)]
        exact ih (by omega) h (by omega)

/-- The index found for a minor number reports that number. -/
theorem minorAt?_of_indexOf? {library : Library} {count minor index : UInt32}
    (h : library.indexOf? count minor = some index) : library.minorAt? index = some minor :=
  minorAt?_of_searchFrom? h

/-- No lower index reports it. -/
theorem indexOf?_least {library : Library} {count minor index : UInt32}
    (h : library.indexOf? count minor = some index) {lower : UInt32} (hlower : lower < index) :
    library.minorAt? lower ≠ some minor :=
  searchFrom?_least (by have := count.toNat_lt; simp [UInt32.size]; omega) h (Nat.zero_le _)
    (UInt32.lt_iff_toNat_lt.1 hlower)

end Library

/-! ## One device

A call that fails is reported with the name of its entry point. -/

namespace Gpu

/-- The answer of an entry point, or which one has failed and how. -/
def call {α : Type} (entry : String) (answer : Answer α) : Except DeviceFault α :=
  answer.mapError (.callFailed entry)

/-- The clock and the highest that users may set. -/
def clocks (gpu : Gpu) : Except DeviceFault (UInt32 × UInt32) := do
  let highest ← call Library.clockEntry gpu.highest
  let current ← call Library.clockEntry gpu.current
  return (current, highest)

/-- How many samples a poll has room for. -/
def room (capacity : UInt32) : UInt32 := max capacity 1

/-- The samples of a poll. Of the samples that the library counts, those are read that there is
room for; where it has left some of them out they are blank. -/
def poll (gpu : Gpu) (capacity : UInt32) (sinceUs : UInt64) : Except DeviceFault (List Sample) :=
  match gpu.samples (room capacity) sinceUs with
  | .error code =>
    .error (if code = ReturnCode.notFound then .noSamples
      else .callFailed Library.samplesEntry code)
  | .ok (samples, count) =>
    let count := (min count (room capacity)).toNat
    let samples := samples.take count
    .ok (samples ++ List.replicate (count - samples.length) ⟨0, 0, 0, 0⟩)

/-- A poll gives no more samples than it has room for. -/
theorem length_poll {gpu : Gpu} {capacity : UInt32} {sinceUs : UInt64} {samples : List Sample}
    (h : gpu.poll capacity sinceUs = .ok samples) : samples.length ≤ (room capacity).toNat := by
  unfold poll at h
  split at h
  · cases h
  · next answered count _ =>
    obtain rfl := Except.ok.inj h
    have hmin : (min count (room capacity)).toNat ≤ (room capacity).toNat :=
      UInt32.le_iff_toNat_le.1 (Std.min_le_right)
    simp only [List.length_append, List.length_take, List.length_replicate]
    omega

end Gpu

end GpuQuota.Device
