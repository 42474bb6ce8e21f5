import GpuQuota.Driver.Space

/-!
# Parameter blocks

The structures that requests pass through an address. Each has a fixed layout: little-endian
words at fixed offsets, with padding where a 64-bit word would not be aligned. A block is looked
into only through an address that is not null, is aligned for the block, and comes with a size
that covers it; the size is the caller's claim and may be larger than the block.

`read` takes a block apart and `write` lays one down, both at the same offsets.
-/

namespace GpuQuota.Driver

/-- The size and the alignment of a block. -/
structure Layout where
  size : Nat
  align : Nat
  deriving DecidableEq, Repr

/-- Whether a block of this layout may be looked into at `address`, given `size` bytes there. -/
def Layout.fits (layout : Layout) (address : UInt64) (size : Nat) : Bool :=
  address != 0 && layout.size ≤ size && address.toNat % layout.align == 0

theorem Layout.fits_iff {layout : Layout} {address : UInt64} {size : Nat} :
    layout.fits address size ↔
      address ≠ 0 ∧ address.toNat % layout.align = 0 ∧ layout.size ≤ size := by
  simp only [fits, Bool.and_eq_true, bne_iff_ne, decide_eq_true_eq, beq_iff_eq, and_assoc,
    and_comm (a := layout.size ≤ size)]

/-! ## Status words and commands

The numbers by which blocks tell what is asked for and what came of it. -/

/-- The driver has done what was asked. -/
def statusOk : UInt32 := 0

/-- There is not as much memory left. -/
def statusNoMemory : UInt32 := 0x51

/-- The function that allocates a size. -/
def heapAllocSize : UInt32 := 2

/-- The function that asks for the totals. -/
def heapInfo : UInt32 := 5

/-- The class of a device object. -/
def deviceClass : UInt32 := 0x80

/-- The class of the objects below one that commands go to. -/
def subdeviceClass : UInt32 := 0x2080

/-- The command for framebuffer figures whose list stands behind a pointer. -/
def infoByPointer : UInt32 := 0x20801301

/-- The command for them whose list is part of the parameters. -/
def infoInline : UInt32 := 0x20801303

/-- All memory of a device. This figure and the next two are changed by a quota. -/
def totalRamIndex : UInt32 := 0x08

/-- The size of the heap. -/
def heapSizeIndex : UInt32 := 0x09

/-- What is free of the heap. -/
def heapFreeIndex : UInt32 := 0x1a

/-! ## Heap requests

A heap request has the fields of an allocation inside it, whatever its function is. Of its words
only the status and the two figures are ever changed. -/

/-- What an allocation asks for, inside a heap block. -/
structure AllocationFields where
  owner : UInt32
  memory : UInt32
  kind : UInt32
  flags : UInt32
  attr : UInt32
  format : UInt32
  comprCovg : UInt32
  zcullCovg : UInt32
  partitionStride : UInt32
  width : UInt32
  height : UInt32
  size : UInt64
  alignment : UInt64
  offset : UInt64
  limit : UInt64
  address : UInt64
  rangeBegin : UInt64
  rangeEnd : UInt64
  attr2 : UInt32
  ctagOffset : UInt32
  deriving DecidableEq, Repr, Inhabited

/-- A heap request: allocate, or ask for the totals. -/
structure HeapBlock where
  /-- the client -/
  root : UInt32
  /-- the object whose heap it is -/
  parent : UInt32
  /-- which of the two is asked for -/
  function : UInt32
  vaSpace : UInt32
  heapNumber : Int16
  /-- how it went -/
  status : UInt32
  /-- the size of the heap, where it was asked for -/
  total : UInt64
  /-- what is free of it -/
  free : UInt64
  /-- the fields of an allocation -/
  alloc : AllocationFields
  deriving DecidableEq, Repr, Inhabited

namespace HeapBlock

/-- The block has 152 bytes. -/
def layout : Layout := ⟨152, 8⟩

/-- Where the client stands. -/
def rootOffset : UInt64 := 0

/-- Where the function stands. -/
def functionOffset : UInt64 := 8

/-- Where the driver leaves its status. -/
def statusOffset : UInt64 := 20

/-- Where the totals stand. -/
def totalOffset : UInt64 := 24

/-- Where the free bytes stand. -/
def freeOffset : UInt64 := 32

/-- Where the handle of the memory stands, which is part of the allocation. -/
def memoryOffset : UInt64 := 44

/-- The block at an address. -/
def read (space : Space) (base : UInt64) : HeapBlock where
  root := space.word32 (base + rootOffset)
  parent := space.word32 (base + 4)
  function := space.word32 (base + functionOffset)
  vaSpace := space.word32 (base + 12)
  heapNumber := (space.word16 (base + 16)).toInt16
  status := space.word32 (base + statusOffset)
  total := space.word64 (base + totalOffset)
  free := space.word64 (base + freeOffset)
  alloc := {
    owner := space.word32 (base + 40)
    memory := space.word32 (base + memoryOffset)
    kind := space.word32 (base + 48)
    flags := space.word32 (base + 52)
    attr := space.word32 (base + 56)
    format := space.word32 (base + 60)
    comprCovg := space.word32 (base + 64)
    zcullCovg := space.word32 (base + 68)
    partitionStride := space.word32 (base + 72)
    width := space.word32 (base + 76)
    height := space.word32 (base + 80)
    size := space.word64 (base + 88)
    alignment := space.word64 (base + 96)
    offset := space.word64 (base + 104)
    limit := space.word64 (base + 112)
    address := space.word64 (base + 120)
    rangeBegin := space.word64 (base + 128)
    rangeEnd := space.word64 (base + 136)
    attr2 := space.word32 (base + 144)
    ctagOffset := space.word32 (base + 148) }

/-- Lays an allocation's fields down in a heap block. -/
def writeAllocation (space : Space) (base : UInt64) (alloc : AllocationFields) : Space :=
  (((((((((((((((((((space.setWord32 (base + 40) alloc.owner).setWord32
    (base + memoryOffset) alloc.memory).setWord32 (base + 48) alloc.kind).setWord32
    (base + 52) alloc.flags).setWord32 (base + 56) alloc.attr).setWord32
    (base + 60) alloc.format).setWord32 (base + 64) alloc.comprCovg).setWord32
    (base + 68) alloc.zcullCovg).setWord32 (base + 72) alloc.partitionStride).setWord32
    (base + 76) alloc.width).setWord32 (base + 80) alloc.height).setWord64
    (base + 88) alloc.size).setWord64 (base + 96) alloc.alignment).setWord64
    (base + 104) alloc.offset).setWord64 (base + 112) alloc.limit).setWord64
    (base + 120) alloc.address).setWord64 (base + 128) alloc.rangeBegin).setWord64
    (base + 136) alloc.rangeEnd).setWord32 (base + 144) alloc.attr2).setWord32
    (base + 148) alloc.ctagOffset

/-- Lays a block down. -/
def write (space : Space) (base : UInt64) (block : HeapBlock) : Space :=
  let head := ((((space.setWord32 (base + rootOffset) block.root).setWord32
    (base + 4) block.parent).setWord32 (base + functionOffset) block.function).setWord32
    (base + 12) block.vaSpace).write (base + 16) 2 block.heapNumber.toUInt16.toNat
  let head := ((head.setWord32 (base + statusOffset) block.status).setWord64
    (base + totalOffset) block.total).setWord64 (base + freeOffset) block.free
  writeAllocation head base block.alloc

/-- The block at an address, if it may be looked into. -/
def decode? (space : Space) (base : UInt64) (size : Nat) : Option HeapBlock :=
  if layout.fits base size then some (read space base) else none

/-- Lays down the two figures of a reply. -/
def setTotals (space : Space) (base : UInt64) (total free : UInt64) : Space :=
  (space.setWord64 (base + totalOffset) total).setWord64 (base + freeOffset) free

/-- Lays down the status of a reply. -/
def setStatus (space : Space) (base : UInt64) (status : UInt32) : Space :=
  space.setWord32 (base + statusOffset) status

end HeapBlock

/-! ## Free requests

A free names its client and the object, which may be the client itself. -/

/-- A request to free an object. -/
structure FreeBlock where
  /-- the client -/
  root : UInt32
  /-- the object above the one to free -/
  parent : UInt32
  /-- the object to free -/
  old : UInt32
  /-- how it went -/
  status : UInt32
  deriving DecidableEq, Repr, Inhabited

namespace FreeBlock

/-- The block has 16 bytes. -/
def layout : Layout := ⟨16, 4⟩

/-- Where the driver leaves its status. -/
def statusOffset : UInt64 := 12

/-- The block at an address. -/
def read (space : Space) (base : UInt64) : FreeBlock where
  root := space.word32 base
  parent := space.word32 (base + 4)
  old := space.word32 (base + 8)
  status := space.word32 (base + statusOffset)

/-- Lays a block down. -/
def write (space : Space) (base : UInt64) (block : FreeBlock) : Space :=
  (((space.setWord32 base block.root).setWord32 (base + 4) block.parent).setWord32
    (base + 8) block.old).setWord32 (base + statusOffset) block.status

/-- The block at an address, if it may be looked into. -/
def decode? (space : Space) (base : UInt64) (size : Nat) : Option FreeBlock :=
  if layout.fits base size then some (read space base) else none

end FreeBlock

/-! ## Control requests

A command to an object of a client. Its parameters stand elsewhere, at an address and of a size that
the block gives. -/

/-- A command to an object, with parameters elsewhere. -/
structure ControlBlock where
  /-- the client -/
  client : UInt32
  /-- the object that the command is for -/
  object : UInt32
  command : UInt32
  flags : UInt32
  /-- the address of the parameters -/
  params : UInt64
  /-- how many bytes they have -/
  paramsSize : UInt32
  /-- how it went -/
  status : UInt32
  deriving DecidableEq, Repr, Inhabited

namespace ControlBlock

/-- The block has 32 bytes. -/
def layout : Layout := ⟨32, 8⟩

/-- Where the driver leaves its status. -/
def statusOffset : UInt64 := 28

/-- The block at an address. -/
def read (space : Space) (base : UInt64) : ControlBlock where
  client := space.word32 base
  object := space.word32 (base + 4)
  command := space.word32 (base + 8)
  flags := space.word32 (base + 12)
  params := space.word64 (base + 16)
  paramsSize := space.word32 (base + 24)
  status := space.word32 (base + statusOffset)

/-- Lays a block down. -/
def write (space : Space) (base : UInt64) (block : ControlBlock) : Space :=
  ((((((space.setWord32 base block.client).setWord32 (base + 4) block.object).setWord32
    (base + 8) block.command).setWord32 (base + 12) block.flags).setWord64
    (base + 16) block.params).setWord32 (base + 24) block.paramsSize).setWord32
    (base + statusOffset) block.status

/-- The block at an address, if it may be looked into. -/
def decode? (space : Space) (base : UInt64) (size : Nat) : Option ControlBlock :=
  if layout.fits base size then some (read space base) else none

end ControlBlock

/-! ## Allocation of objects

Two layouts are in use. The longer one has a word for requested rights and a word of flags among
the others, so `paramsSize` and `status` stand further back; the size of the request tells which
one is meant. -/

/-- A request to create an object, in either layout. -/
structure AllocBlock where
  /-- the client -/
  root : UInt32
  /-- the object above the new one -/
  parent : UInt32
  /-- the handle of the new object -/
  new : UInt32
  /-- the class of the new object -/
  cls : UInt32
  /-- the address of the parameters, which depend on the class -/
  params : UInt64
  /-- how many bytes they have, or zero where the caller does not say -/
  paramsSize : UInt32
  /-- how it went -/
  status : UInt32
  deriving DecidableEq, Repr, Inhabited

namespace AllocBlock

/-- The shorter layout. -/
def shortLayout : Layout := ⟨32, 8⟩

/-- The longer layout. -/
def longLayout : Layout := ⟨48, 8⟩

/-- Where the driver leaves its status in the shorter layout. -/
def shortStatusOffset : UInt64 := 28

/-- Where it does in the longer one. -/
def longStatusOffset : UInt64 := 40

/-- The block at an address, in the shorter layout. -/
def readShort (space : Space) (base : UInt64) : AllocBlock where
  root := space.word32 base
  parent := space.word32 (base + 4)
  new := space.word32 (base + 8)
  cls := space.word32 (base + 12)
  params := space.word64 (base + 16)
  paramsSize := space.word32 (base + 24)
  status := space.word32 (base + shortStatusOffset)

/-- The block at an address, in the longer layout. -/
def readLong (space : Space) (base : UInt64) : AllocBlock where
  root := space.word32 base
  parent := space.word32 (base + 4)
  new := space.word32 (base + 8)
  cls := space.word32 (base + 12)
  params := space.word64 (base + 16)
  paramsSize := space.word32 (base + 32)
  status := space.word32 (base + longStatusOffset)

/-- Lays down the words that stand at the same offsets in both layouts. -/
def writeCommon (space : Space) (base : UInt64) (block : AllocBlock) : Space :=
  ((((space.setWord32 base block.root).setWord32 (base + 4) block.parent).setWord32
    (base + 8) block.new).setWord32 (base + 12) block.cls).setWord64 (base + 16) block.params

/-- Lays a block down in the shorter layout. -/
def writeShort (space : Space) (base : UInt64) (block : AllocBlock) : Space :=
  ((writeCommon space base block).setWord32 (base + 24) block.paramsSize).setWord32
    (base + shortStatusOffset) block.status

/-- Lays a block down in the longer layout, whose two other words it leaves alone. -/
def writeLong (space : Space) (base : UInt64) (block : AllocBlock) : Space :=
  ((writeCommon space base block).setWord32 (base + 32) block.paramsSize).setWord32
    (base + longStatusOffset) block.status

/-- The words of the longer layout that the shorter one lacks. -/
def rightsRequested (space : Space) (base : UInt64) : UInt64 := space.word64 (base + 24)

/-- The flags of a block in the longer layout. -/
def flags (space : Space) (base : UInt64) : UInt32 := space.word32 (base + 36)

/-- Which layout a request of `size` bytes has. -/
def isLong (size : Nat) : Bool := longLayout.size ≤ size

/-- The block at an address in the layout that the size tells, if it may be looked into. -/
def decode? (space : Space) (base : UInt64) (size : Nat) : Option AllocBlock :=
  if isLong size then
    if longLayout.fits base size then some (readLong space base) else none
  else if shortLayout.fits base size then some (readShort space base) else none

end AllocBlock

/-! ## Lists of framebuffer figures

A list of figures stands behind an address that the parameters hold, or right among them. A figure
is a pair of words, and only its second word is written. -/

/-- One figure: which one it is, and its value. -/
structure InfoEntry where
  /-- which figure is asked for -/
  index : UInt32
  /-- the answer -/
  data : UInt32
  deriving DecidableEq, Repr, Inhabited

namespace InfoEntry

/-- An entry has 8 bytes. -/
def layout : Layout := ⟨8, 4⟩

/-- The entry at an address. -/
def read (space : Space) (base : UInt64) : InfoEntry where
  index := space.word32 base
  data := space.word32 (base + 4)

/-- The bytes that `read` reads. -/
def bytes (entry : InfoEntry) : List UInt8 :=
  Space.bytesOf 4 entry.index.toNat ++ Space.bytesOf 4 entry.data.toNat

/-- The entry at an address, if it may be looked into. -/
def decode? (space : Space) (base : UInt64) (size : Nat) : Option InfoEntry :=
  if layout.fits base size then some (read space base) else none

end InfoEntry

/-- The head of a list that stands elsewhere: its length and its address. -/
structure InfoHead where
  count : UInt32
  list : UInt64
  deriving DecidableEq, Repr, Inhabited

namespace InfoHead

/-- The head has 16 bytes, with four of padding. -/
def layout : Layout := ⟨16, 8⟩

/-- The head at an address. -/
def read (space : Space) (base : UInt64) : InfoHead where
  count := space.word32 base
  list := space.word64 (base + 8)

/-- Lays a head down. -/
def write (space : Space) (base : UInt64) (head : InfoHead) : Space :=
  (space.setWord32 base head.count).setWord64 (base + 8) head.list

/-- The head at an address, if it may be looked into. -/
def decode? (space : Space) (base : UInt64) (size : Nat) : Option InfoHead :=
  if layout.fits base size then some (read space base) else none

end InfoHead

end GpuQuota.Driver
