import GpuQuota.Settings.Config
import GpuQuota.Toml.Document

/-!
# Settings files

A settings file is a document with a table for each part of the configuration. What a table does
not name keeps its default, and names that mean nothing here are skipped; a value of the wrong
type or out of range makes the whole file unusable. The settings of a part may also be listed by
position.

* `bounded?_eq_some_iff`: which items are numbers of a bounded type.
-/

namespace GpuQuota.Settings

open GpuQuota.Toml

/-! ## Items of a type

An item of another type is no value, and a number out of range is none either. -/

/-- An integer from `low` to `high`. -/
def bounded? (low high : Int) : Item → Option Int
  | .integer value => if low ≤ value ∧ value ≤ high then some value else none
  | _ => none

/-- A word of 64 bits without a sign. -/
def word64? (item : Item) : Option UInt64 :=
  (bounded? 0 (UInt64.size - 1) item).map fun value => UInt64.ofNat value.toNat

/-- A word of 32 bits without a sign. -/
def wordOf32? (item : Item) : Option UInt32 :=
  (bounded? 0 (UInt32.size - 1) item).map fun value => UInt32.ofNat value.toNat

/-- A word of 32 bits with a sign. -/
def signed32? (item : Item) : Option Int32 :=
  (bounded? Int32.minValue.toInt Int32.maxValue.toInt item).map Int32.ofInt

/-- One of the two truth values. -/
def boolean? : Item → Option Bool
  | .boolean value => some value
  | _ => none

/-- A string. -/
def text? : Item → Option String
  | .text value => some (String.ofList value)
  | _ => none

/-! ## Parts of a configuration

A setting that a part does not have is left at its default, and one that it has must be good. -/

/-- What the settings of one part are read from. -/
inductive Part where
  | named (entries : Entries)
  | listed (items : List Item)

/-- The part that an item holds. A date names no settings. -/
def Part.ofItem? : Item → Option Part
  | .table _ entries => some (.named entries)
  | .array items => some (.listed items)
  | .tables newestFirst => some (.listed (newestFirst.reverse.map (.table .opened)))
  | .moment => some (.named [])
  | _ => none

/-- The item of a setting. -/
def Part.find? (part : Part) (position : Nat) (name : String) : Option Item :=
  match part with
  | .named entries => entries.find? name.toList
  | .listed items => items[position]?

/-- A setting of a type, or its default where the part has none. -/
def Part.read? {α : Type} (part : Part) (position : Nat) (name : String)
    (ofItem? : Item → Option α) (default : α) : Option α :=
  match part.find? position name with
  | some item => ofItem? item
  | none => some default

/-- The settings of the refill. -/
def ThrottleConfig.ofItem? (item : Item) : Option ThrottleConfig := do
  let part ← Part.ofItem? item
  let unset : ThrottleConfig := {}
  some {
    waitIntervalMs := ← part.read? 0 "wait_interval_ms" word64? unset.waitIntervalMs
    standalone := ← part.read? 1 "standalone" boolean? unset.standalone
    readyTimeoutMs := ← part.read? 2 "ready_timeout_ms" word64? unset.readyTimeoutMs }

/-- The settings of the regions. -/
def RegionConfig.ofItem? (item : Item) : Option RegionConfig := do
  let part ← Part.ofItem? item
  let unset : RegionConfig := {}
  some { namePrefix := ← part.read? 0 "prefix" text? unset.namePrefix }

/-- The settings of the monitor. -/
def MonitorConfig.ofItem? (item : Item) : Option MonitorConfig := do
  let part ← Part.ofItem? item
  let unset : MonitorConfig := {}
  some {
    intervalMs := ← part.read? 0 "interval_ms" word64? unset.intervalMs
    sampleWindowSecs := ← part.read? 1 "sample_window_secs" word64? unset.sampleWindowSecs
    bootstrapMaxRate := ← part.read? 2 "bootstrap_max_rate" signed32? unset.bootstrapMaxRate
    maxSamples := ← part.read? 3 "max_samples" wordOf32? unset.maxSamples }

/-- The configuration in a document. -/
def Config.ofDocument? (document : Entries) : Option Config := do
  let part := Part.named document
  some {
    throttle := ← part.read? 0 "throttle" ThrottleConfig.ofItem? {}
    region := ← part.read? 1 "shm" RegionConfig.ofItem? {}
    monitor := ← part.read? 2 "monitor" MonitorConfig.ofItem? {} }

/-! ## Files

A file that is named and cannot be read is told of. That of the whole system may be missing. -/

/-- The contents of the files that can be read. -/
abbrev Files := String → Option ByteArray

/-- The file of the whole system, for processes that name none. -/
def systemPath : String := "/etc/cudagov/config.toml"

/-- The configuration in a file, which must be text. -/
def Config.load (files : Files) (path : String) : Except SettingsFault Config :=
  match (files path).bind String.fromUTF8? with
  | none => .error (.fileNotFound path)
  | some content =>
    match (Toml.read? content.toList).bind Config.ofDocument? with
    | none => .error .malformedFile
    | some config => .ok config

/-- The layer of a settings file: the one that is named, else the system's if there is one. -/
def Config.withSettings (config : Config) (files : Files) (named : Option String) :
    Config × List Notice :=
  match named with
  | some path => config.withFile path (Config.load files path)
  | none =>
    if (files systemPath).isSome then config.withFile systemPath (Config.load files systemPath)
    else (config, [])

theorem bounded?_eq_some_iff {low high value : Int} {item : Item} :
    bounded? low high item = some value ↔ item = .integer value ∧ low ≤ value ∧ value ≤ high := by
  cases item <;> simp [bounded?]
  grind

end GpuQuota.Settings
