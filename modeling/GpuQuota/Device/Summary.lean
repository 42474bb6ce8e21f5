import GpuQuota.Device.Library

/-!
# Summaries of devices

What an operator is told about a device when a monitor starts. Asking for it is a session of its
own with the library, which needs the newer entry points.

* `index_ofMinor`: a summary is about a device that reports the minor number, or the device whose
  index is that number.
-/

namespace GpuQuota.Device

/-- The facts about one device. -/
structure Summary where
  index : UInt32
  minor : UInt32
  name : String
  uuid : String
  /-- the bytes of its memory -/
  memoryTotal : UInt64
  memoryFree : UInt64
  /-- the clock of its compute units, in MHz, if that is known -/
  clock : Option UInt32
  /-- the highest that users may set -/
  boost : Option UInt32
  deriving DecidableEq, Repr, Inhabited

namespace Summary

/-- A clock, where the device tells it. -/
def clockText : Option UInt32 → String
  | some mhz => toString mhz ++ " MHz"
  | none => "n/a"

/-- Bytes in whole mebibytes. -/
def mebibytes (bytes : UInt64) : String := toString (bytes.toNat >>> 20) ++ " MiB"

/-- The summary on one line. -/
def text (summary : Summary) : String :=
  "GPU " ++ toString summary.index ++ " (" ++ summary.uuid ++ ") minor " ++
    toString summary.minor ++ ": " ++ summary.name ++ ", " ++ mebibytes summary.memoryTotal ++
    " total, " ++ mebibytes summary.memoryFree ++ " free, clock " ++ clockText summary.clock ++
    " / " ++ clockText summary.boost

/-- The fault of a question about a device. -/
def questionFault (code : ReturnCode) : DeviceFault :=
  if code = ReturnCode.notSupported then .unsupported "Operation not supported by this GPU"
  else .other code.text

/-- A text as the library keeps it: it ends before the first null character. -/
def terminated (text : String) : String := String.ofList (text.toList.takeWhile (· ≠ '\x00'))

/-- The facts about the device of an index. -/
def ofGpu (gpu : Gpu) (index minor : UInt32) : Except DeviceFault Summary :=
  Except.mapError questionFault do
    let (total, free) ← gpu.memory
    let name ← gpu.name
    let uuid ← gpu.uuid
    return ⟨index, minor, terminated name, terminated uuid, total, free, gpu.clock.toOption,
      gpu.boost.toOption⟩

/-- The fault of a library that could not be set up. A missing driver is the usual case, and
named. -/
def setUpFault (code : ReturnCode) : DeviceFault :=
  .setUpFailed (if code = ReturnCode.driverNotLoaded then "NVIDIA driver not loaded" else code.text)

/-- The fault of a device that is not there, by minor number. -/
def absenceFault (minor : UInt32) (code : ReturnCode) : DeviceFault :=
  if code = ReturnCode.notFound ∨ code = ReturnCode.invalidArgument then .deviceNotFound minor
  else .other code.text

/-- The minor number that a device reports, if it does. -/
def minorOf? (library : Library) (gpu : Gpu) : Option UInt32 :=
  if library.provides Library.minorEntry then gpu.minor.toOption else none

/-- The first of so many devices from an index on that reports a minor number, with its index. Where
there is no device, and where it does not report any, the search goes on. -/
def searchFrom? (library : Library) (minor index : UInt32) : Nat → Option (UInt32 × Gpu)
  | 0 => none
  | left + 1 =>
    match library.newerGpu index with
    | .error _ => searchFrom? library minor (index + 1) left
    | .ok gpu =>
      if minorOf? library gpu = some minor then some (index, gpu)
      else searchFrom? library minor (index + 1) left

/-- The facts about the device of a minor number, in a library that has been set up. -/
def ofMinor (library : Library) (minor : UInt32) : Except DeviceFault Summary :=
  if !library.provides Library.countEntry2 then .error (.queryIncomplete Library.countEntry2)
  else
    match library.count with
    | .error code => .error (.other code.text)
    | .ok count =>
      if !library.provides Library.handleEntry2 then
        .error (.queryIncomplete Library.handleEntry2)
      else
        match searchFrom? library minor 0 count.toNat with
        | some (index, gpu) => ofGpu gpu index minor
        | none =>
          match library.newerGpu minor with
          | .error code => .error (absenceFault minor code)
          | .ok gpu => ofGpu gpu minor minor

/-- Asks a library of the first file name for the device of a minor number. -/
def query (installed : Installed) (minor : UInt32) : Session Summary :=
  match Library.fileNames.head?.bind installed with
  | none => .refused .libraryNotFound
  | some library =>
    if library.provides Library.setUpEntry2 then
      .run library.setUp setUpFault (ofMinor library minor)
    else .refused (.setUpIncomplete Library.setUpEntry2)

theorem index_ofGpu {gpu : Gpu} {index minor : UInt32} {summary : Summary}
    (h : ofGpu gpu index minor = .ok summary) : summary.index = index := by
  unfold ofGpu at h
  revert h
  rcases gpu.memory with _ | ⟨total, free⟩ <;> rcases gpu.name with _ | name <;>
    rcases gpu.uuid with _ | uuid <;> intro h <;> cases h
  rfl

theorem minorOf?_of_searchFrom? {library : Library} {minor start index : UInt32} {left : Nat}
    {gpu : Gpu} (h : searchFrom? library minor start left = some (index, gpu)) :
    library.newerGpu index = .ok gpu ∧ minorOf? library gpu = some minor := by
  induction left generalizing start with
  | zero => cases h
  | succ left ih =>
    rw [searchFrom?] at h
    split at h
    · exact ih h
    · next gpu hgpu =>
      split at h
      · next hminor =>
        cases h
        exact ⟨hgpu, hminor⟩
      · exact ih h

/-- A summary comes from a count of the devices: the search among them has found its device, or it
has found none, and the number was taken for the index. -/
theorem ofMinor_eq_ok {library : Library} {minor : UInt32} {summary : Summary}
    (h : ofMinor library minor = .ok summary) :
    library.provides Library.countEntry2 = true ∧ ∃ count, library.count = .ok count ∧
      ((∃ gpu, searchFrom? library minor 0 count.toNat = some (summary.index, gpu)) ∨
        searchFrom? library minor 0 count.toNat = none ∧ summary.index = minor) := by
  unfold ofMinor at h
  split at h
  · cases h
  · next hcount =>
    refine ⟨by simpa using hcount, ?_⟩
    split at h
    · cases h
    · next count hanswer =>
      refine ⟨count, hanswer, ?_⟩
      split at h
      · cases h
      · split at h
        · next index gpu hfound =>
          rw [index_ofGpu h]
          exact .inl ⟨gpu, hfound⟩
        · next hnone =>
          split at h
          · cases h
          · exact .inr ⟨hnone, index_ofGpu h⟩

theorem index_ofMinor {library : Library} {minor : UInt32} {summary : Summary}
    (h : ofMinor library minor = .ok summary) :
    (∃ gpu, library.newerGpu summary.index = .ok gpu ∧ minorOf? library gpu = some minor) ∨
      summary.index = minor := by
  obtain ⟨-, count, -, ⟨gpu, hfound⟩ | ⟨-, hindex⟩⟩ := ofMinor_eq_ok h
  · exact .inl ⟨gpu, minorOf?_of_searchFrom? hfound⟩
  · exact .inr hindex

end Summary

end GpuQuota.Device
