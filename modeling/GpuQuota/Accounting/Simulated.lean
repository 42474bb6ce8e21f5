import GpuQuota.Accounting.Interception

/-!
# A simulated driver

A driver with fixed figures and the calls of a client that talks to it through the interception,
for trying out governed sessions without a device. The driver accepts everything, except that its
next status can be set; it counts the calls that reach it.

The client lays its blocks at fixed, aligned addresses: the argument, its parameters and a list
that the parameters point to.
-/

namespace GpuQuota.Accounting

open GpuQuota.Driver GpuQuota.Settings

/-- The simulated driver's state. -/
structure Simulated where
  device : DeviceNumber := (deviceMajor, controlMinor)
  forwarded : Nat := 0
  /-- the status of the next answer, if it is not success -/
  failNext : Option UInt32 := none
  deriving Repr, Inhabited

namespace Simulated

/-- The memory of the driver's device, in kibibytes. -/
def deviceTotalKib : UInt32 := (16 : UInt32) <<< 20

/-- What of it is free. -/
def deviceFreeKib : UInt32 := (12 : UInt32) <<< 20

/-- A figure that no quota changes. -/
def unrelatedIndex : UInt32 := 0x01

/-- The value that the driver gives for it. -/
def unrelatedValue : UInt32 := 0xabcd

/-- The parent of allocations that name none. -/
def defaultParent : UInt32 := 0x20

/-- Where the block of a request stands. -/
def argsAddress : UInt64 := 0x1000

/-- Where the parameters of a control request stand. -/
def paramsAddress : UInt64 := 0x2000

/-- Where a list stands that is passed by pointer. -/
def listAddress : UInt64 := 0x3000

/-- The driver's figure of an index. -/
def figure (index : UInt32) : UInt32 :=
  if index = totalRamIndex ∨ index = heapSizeIndex then deviceTotalKib
  else if index = heapFreeIndex then deviceFreeKib
  else unrelatedValue

/-- Fills in the data words of `count` entries. -/
def fill (space : Space) (list : UInt64) (count : Nat) : Space :=
  (List.range count).foldl (fun space i =>
    let entry := list + UInt64.ofNat (8 * i)
    space.setWord32 (entry + 4) (figure (space.word32 entry))) space

/-- The length of a list inside parameters, where no more than four entries have room. -/
def inlineRoom : Nat := 4

/-- The memory that the driver leaves, and whether it took the status that was set for it. -/
def answer (status : UInt32) (raw args : UInt64) (space : Space) : Space × Bool :=
  let request := Request.decode raw
  if args = 0 ∨ request.kind ≠ requestKind then (space, false)
  else if request.number = heapNumber then
    if HeapBlock.layout.fits args request.size then
      (HeapBlock.setTotals (HeapBlock.setStatus space args status) args
        (deviceTotalKib.toUInt64 <<< 10) (deviceFreeKib.toUInt64 <<< 10), true)
    else (space, false)
  else if request.number = controlNumber then
    match ControlBlock.decode? space args request.size with
    | none => (space, false)
    | some block =>
      let space := space.setWord32 (args + ControlBlock.statusOffset) status
      if block.command = infoByPointer then
        let head := InfoHead.read space block.params
        (fill space head.list head.count.toNat, true)
      else if block.command = infoInline then
        let count := min (space.word32 block.params).toNat inlineRoom
        (fill space (block.params + 4) count, true)
      else (space, true)
  else if request.number = freeNumber then
    if FreeBlock.layout.fits args request.size then
      (space.setWord32 (args + FreeBlock.statusOffset) status, true)
    else (space, false)
  else if request.number = allocNumber then
    if (AllocBlock.decode? space args request.size).isSome then
      let offset :=
        if AllocBlock.isLong request.size then AllocBlock.longStatusOffset
        else AllocBlock.shortStatusOffset
      (space.setWord32 (args + offset) status, true)
    else (space, false)
  else (space, false)

/-- The status of the next answer. -/
def status (sim : Simulated) : UInt32 := sim.failNext.getD statusOk

/-- The simulated driver as a driver. -/
def driver (sim : Simulated) : DriverCall := fun raw args space =>
  (0, (answer sim.status raw args space).1)

/-- The driver's state after a call has reached it. -/
def after (sim : Simulated) (passage : Passage) : Simulated where
  device := sim.device
  forwarded := sim.forwarded + 1
  failNext :=
    if (answer sim.status passage.request passage.args passage.space).2 then none
    else sim.failNext

/-- A holding over a budget of its own. -/
def holding (bytes : UInt64) (owner : Int32) : Holding :=
  ⟨.full bytes owner, ⟨⟨0, bytes⟩, .empty⟩⟩

/-- A simulated driver and the holding of its client. -/
structure Session where
  driver : Simulated := {}
  held : Holding

/-- The outcome of a call for the client: the memory afterwards, the notices, the new state. -/
structure Reply where
  space : Space
  notices : List Notice
  session : Session

/-- The client's call with a block of `size` bytes at the argument address. The owner of the
budget lives. -/
def Session.call (session : Session) (number : UInt8) (size : UInt64) (space : Space) : Reply :=
  let outcome := intercept (some session.held) (fun _ => true) session.driver.driver
    (some session.driver.device) (Request.readWrite number size).raw argsAddress space
  { space := outcome.space
    notices := outcome.notices
    session :=
      { driver := outcome.forwarded.foldl after session.driver
        held := outcome.held.getD session.held } }

/-- Allocates on an object; the reply holds the status and the free bytes. -/
def Session.allocate (session : Session) (root parent handle : UInt32) (size alignment : UInt64) :
    (UInt32 × UInt64) × Reply :=
  let block : HeapBlock := { (default : HeapBlock) with
    root, parent, function := heapAllocSize
    alloc := { (default : AllocationFields) with memory := handle, size, alignment } }
  let reply := session.call heapNumber 152 (block.write .blank argsAddress)
  let left := HeapBlock.read reply.space argsAddress
  ((left.status, left.free), reply)

/-- Asks for the totals of the heap; the reply holds the total and the free bytes. -/
def Session.heapTotals (session : Session) (root : UInt32) : (UInt64 × UInt64) × Reply :=
  let block : HeapBlock := { (default : HeapBlock) with
    root, parent := defaultParent, function := heapInfo }
  let reply := session.call heapNumber 152 (block.write .blank argsAddress)
  let left := HeapBlock.read reply.space argsAddress
  ((left.total, left.free), reply)

/-- Frees an object; the reply holds the status. -/
def Session.free (session : Session) (root handle : UInt32) : UInt32 × Reply :=
  let block : FreeBlock := ⟨root, root, handle, 0⟩
  let reply := session.call freeNumber 16 (block.write .blank argsAddress)
  ((FreeBlock.read reply.space argsAddress).status, reply)

/-- Creates a device object; the reply holds the status. -/
def Session.newDevice (session : Session) (root handle device : UInt32) : UInt32 × Reply :=
  let block : AllocBlock := ⟨root, root, handle, deviceClass, paramsAddress, 16, 0⟩
  let space := (block.writeLong .blank argsAddress).setWord32 paramsAddress device
  let reply := session.call allocNumber 48 space
  ((AllocBlock.readLong reply.space argsAddress).status, reply)

/-- Creates an object below another one; the reply holds the status. -/
def Session.newChild (session : Session) (root parent handle : UInt32) : UInt32 × Reply :=
  let block : AllocBlock := ⟨root, parent, handle, subdeviceClass, 0, 0, 0⟩
  let reply := session.call allocNumber 32 (block.writeShort .blank argsAddress)
  ((AllocBlock.readShort reply.space argsAddress).status, reply)

/-- The figures that the client asks for, without values. -/
def asked : List InfoEntry :=
  [totalRamIndex, heapSizeIndex, heapFreeIndex, unrelatedIndex].map fun index => ⟨index, 0⟩

/-- Asks for framebuffer figures, inline or by pointer. -/
def Session.figures (session : Session) (root object : UInt32) (isInline : Bool) :
    List InfoEntry × Reply :=
  let (command, paramsSize, list) :=
    if isInline then (infoInline, (36 : UInt32), paramsAddress + 4)
    else (infoByPointer, (16 : UInt32), listAddress)
  let block : ControlBlock := ⟨root, object, command, 0, paramsAddress, paramsSize, 0⟩
  let head : InfoHead := ⟨UInt32.ofNat asked.length, listAddress⟩
  let space := head.write (block.write .blank argsAddress) paramsAddress
  let reply := session.call controlNumber 32 (InfoList.write space list asked)
  (InfoList.entries ⟨list, asked.length⟩ reply.space, reply)

end Simulated

end GpuQuota.Accounting
