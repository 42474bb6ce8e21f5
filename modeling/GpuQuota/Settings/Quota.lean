import GpuQuota.Fault
import GpuQuota.Settings.Size

/-!
# Quotas

What one process group may use of one device: so many bytes of memory, or so much of its compute
time. A quota is written `minor=amount`, with the minor number of the device in front.

* `cutSpec_eq_ok_iff`: which texts have the form `minor=amount`.
-/

namespace GpuQuota.Settings

open GpuQuota.Text GpuQuota.Number

/-- A ceiling on device memory. -/
structure MemoryQuota where
  /-- the device -/
  minor : UInt32
  /-- the ceiling -/
  bytes : UInt64
  deriving DecidableEq, Repr, Inhabited

/-- A share of compute time, nominally in percent; a setting may ask for any number. -/
structure ComputeQuota where
  /-- the device -/
  minor : UInt32
  percent : UInt32
  deriving DecidableEq, Repr, Inhabited

/-- The quota in whole mebibytes: `0=1024 MiB`. -/
def MemoryQuota.text (quota : MemoryQuota) : String :=
  toString quota.minor ++ "=" ++ toString (quota.bytes >>> 20) ++ " MiB"

/-- The quota as it is written: `0=30`. -/
def ComputeQuota.text (quota : ComputeQuota) : String :=
  toString quota.minor ++ "=" ++ toString quota.percent

/-- Why a text is no quota. -/
inductive QuotaProblem where
  | noEquals
  | badMinor (text : List Char)
  | emptyAmount
  | badSize (text : List Char)
  | badShare (text : List Char)
  deriving DecidableEq, Repr

/-- The problem in words, with the text that it is about. -/
def QuotaProblem.message : QuotaProblem → String
  | .noEquals => "missing '='"
  | .badMinor text => "invalid minor '" ++ String.ofList text ++ "'"
  | .emptyAmount => "empty value"
  | .badSize text => "invalid size '" ++ String.ofList text ++ "'"
  | .badShare text => "invalid core limit '" ++ String.ofList text ++ "'"

/-- A 32-bit number as settings write it. -/
def word32? (text : List Char) : Option UInt32 :=
  match readUnsigned (UInt32.size - 1) text with
  | .ok n => some (UInt32.ofNat n)
  | .error _ => none

/-- The minor number and the amount, which is not empty and has no blanks around it. The fault
of a bad minor number quotes it as it stood before the `=`. -/
def cutSpec (spec : List Char) : Except QuotaProblem (UInt32 × List Char) :=
  match cutFirst '=' (trim spec) with
  | none => .error .noEquals
  | some (minor, amount) =>
    match word32? (trim minor) with
    | none => .error (.badMinor minor)
    | some n => if trim amount = [] then .error .emptyAmount else .ok (n, trim amount)

/-- A quota on memory, whose amount is a size. -/
def MemoryQuota.parse (spec : List Char) : Except QuotaProblem MemoryQuota := do
  let (minor, amount) ← cutSpec spec
  match Size.read? amount with
  | some bytes => .ok ⟨minor, bytes⟩
  | none => .error (.badSize amount)

/-- A quota on compute time, whose amount is a share in percent. -/
def ComputeQuota.parse (spec : List Char) : Except QuotaProblem ComputeQuota := do
  let (minor, amount) ← cutSpec spec
  match word32? amount with
  | some percent => .ok ⟨minor, percent⟩
  | none => .error (.badShare amount)

/-- A problem with the quota that the setting `key` holds. -/
def QuotaProblem.inSetting (key : String) (problem : QuotaProblem) : SettingsFault :=
  .invalidLimit key problem.message

theorem cutSpec_eq_ok_iff {spec amount : List Char} {minor : UInt32} :
    cutSpec spec = .ok (minor, amount) ↔
      ∃ before after, cutFirst '=' (trim spec) = some (before, after) ∧
        word32? (trim before) = some minor ∧ amount = trim after ∧ amount ≠ [] := by
  unfold cutSpec
  split
  · simp_all
  · rename_i before after hcut
    split
    · simp_all
    · rename_i n hn
      split
      · rename_i he
        simp_all
      · rename_i he
        simp only [Except.ok.injEq, Prod.mk.injEq, hcut, Option.some.injEq]
        constructor
        · rintro ⟨rfl, rfl⟩
          exact ⟨before, after, ⟨rfl, rfl⟩, hn, rfl, he⟩
        · rintro ⟨b, a, ⟨rfl, rfl⟩, hm, rfl, _⟩
          exact ⟨by simpa [hn] using hm, rfl⟩

end GpuQuota.Settings
