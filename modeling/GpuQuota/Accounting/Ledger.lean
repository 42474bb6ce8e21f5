import GpuQuota.Keyed
import GpuQuota.Number.Word

/-!
# The ledger of a process

What one process has been charged, and what is known of its objects. Both are kept under the pair
of a client (the root of a tree of objects) and a handle in it. The sum of all charges is carried
along, so that asking for it costs nothing.

Records of memory and attributions of objects are independent of each other.
-/

namespace GpuQuota.Accounting

open GpuQuota.Number

/-- A handle within a client's tree of objects. -/
structure ObjectKey where
  /-- the client that owns the tree -/
  root : UInt32
  /-- unique within the tree while the object lives -/
  handle : UInt32
  deriving DecidableEq, Repr, Inhabited

/-- The charges and attributions of one process. -/
structure Ledger where
  /-- the bytes charged for each live allocation -/
  records : Keyed ObjectKey UInt64
  /-- the device that each known object belongs to -/
  devices : Keyed ObjectKey UInt32
  /-- the sum of all charges -/
  charged : UInt64
  deriving Repr, Inhabited

namespace Ledger

/-- A ledger without entries. -/
def empty : Ledger := ⟨.empty, .empty, 0⟩

/-- Charges `bytes` under a key; the answer is the charge that stood there before. -/
def charge (ledger : Ledger) (key : ObjectKey) (bytes : UInt64) : Option UInt64 × Ledger :=
  let stale := ledger.records.get? key
  let rest := match stale with
    | some old => saturatingSub ledger.charged old
    | none => ledger.charged
  (stale, { ledger with records := ledger.records.insert key bytes, charged := rest + bytes })

/-- Strikes the charge under a key; the answer is that charge. -/
def strike (ledger : Ledger) (key : ObjectKey) : Option UInt64 × Ledger :=
  match ledger.records.get? key with
  | none => (none, ledger)
  | some bytes =>
    (some bytes, { ledger with
      records := ledger.records.erase key, charged := saturatingSub ledger.charged bytes })

/-- The device that an object is known to belong to. -/
def deviceOf (ledger : Ledger) (key : ObjectKey) : Option UInt32 :=
  ledger.devices.get? key

/-- Notes the device of an object. -/
def noteDevice (ledger : Ledger) (key : ObjectKey) (device : UInt32) : Ledger :=
  { ledger with devices := ledger.devices.insert key device }

/-- Forgets the device of an object; the answer is what was known. -/
def forget (ledger : Ledger) (key : ObjectKey) : Option UInt32 × Ledger :=
  (ledger.devices.get? key, { ledger with devices := ledger.devices.erase key })

/-- The number of live allocations. -/
def count (ledger : Ledger) : Nat := ledger.records.size

theorem records_get?_charge (ledger : Ledger) (key other : ObjectKey) (bytes : UInt64) :
    (ledger.charge key bytes).2.records.get? other =
      if other = key then some bytes else ledger.records.get? other :=
  Keyed.get?_insert _ _ _ _

theorem records_get?_strike (ledger : Ledger) (key other : ObjectKey) :
    (ledger.strike key).2.records.get? other =
      if other = key then none else ledger.records.get? other := by
  unfold strike
  split
  · rename_i h
    by_cases ho : other = key
    · simp [ho, h]
    · simp [ho]
  · exact Keyed.get?_erase _ _ _

end Ledger

end GpuQuota.Accounting
