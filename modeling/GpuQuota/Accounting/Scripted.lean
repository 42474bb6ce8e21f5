import GpuQuota.Accounting.Interception

/-!
# A scripted driver

A driver whose one answer is written down beforehand: the return code and, where that is success,
what it leaves in the parameter block. It may leave anything there, also words that a driver
should keep.
-/

namespace GpuQuota.Accounting

open GpuQuota.Driver

/-- The parameter block that a script writes to. -/
inductive BlockKind where
  | heap
  | free
  | control
  | allocShort
  | allocLong
  deriving DecidableEq, Repr

/-- The size of a block. -/
def BlockKind.size : BlockKind → Nat
  | .heap => HeapBlock.layout.size
  | .free => FreeBlock.layout.size
  | .control => ControlBlock.layout.size
  | .allocShort => AllocBlock.shortLayout.size
  | .allocLong => AllocBlock.longLayout.size

/-- Where the status of a block stands. -/
def BlockKind.statusOffset : BlockKind → UInt64
  | .heap => HeapBlock.statusOffset
  | .free => FreeBlock.statusOffset
  | .control => ControlBlock.statusOffset
  | .allocShort => AllocBlock.shortStatusOffset
  | .allocLong => AllocBlock.longStatusOffset

/-- One answer. The words after the status are written to heap blocks only. -/
structure Script where
  /-- the block that the answer goes to, if it is of a known kind -/
  kind : Option BlockKind
  ret : Int32 := 0
  status : UInt32 := statusOk
  total : UInt64
  free : UInt64
  function : Option UInt32 := none
  root : Option UInt32 := none
  memory : Option UInt32 := none
  deriving Repr

namespace Script

/-- Writes a word where there is one. -/
def put (space : Space) (address : UInt64) : Option UInt32 → Space
  | some value => space.setWord32 address value
  | none => space

/-- What the answer leaves in memory. -/
def leave (script : Script) (args : UInt64) (space : Space) : Space :=
  match script.kind with
  | none => space
  | some kind =>
    let space := space.setWord32 (args + kind.statusOffset) script.status
    match kind with
    | .heap =>
      let space := put space (args + HeapBlock.functionOffset) script.function
      let space := put space (args + HeapBlock.rootOffset) script.root
      let space := put space (args + HeapBlock.memoryOffset) script.memory
      HeapBlock.setTotals space args script.total script.free
    | _ => space

/-- The script as a driver. -/
def driver (script : Script) : DriverCall := fun _ args space =>
  (script.ret, if script.ret ≠ 0 ∨ args = 0 then space else script.leave args space)

end Script

end GpuQuota.Accounting
