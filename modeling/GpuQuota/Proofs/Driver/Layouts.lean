import GpuQuota.Proofs.Driver.Figures

/-!
# Blocks from their bytes

A structure lies in memory as a compiler lays it out: each member at the next multiple of its own
width, padding in front of it where that leaves a gap, and padding behind the last one up to a
multiple of the largest width. What the padding holds is nobody's business, and neither is what
follows the structure.

* `standFrom_place`: laid out in this way, every member is read back where it was put.
* `blocks_read_back`: each block is recovered from its bytes by the offsets and sizes that the
  requests are taken apart with, in either layout where there are two.
-/

namespace GpuQuota.Driver

/-! ## Members

A member is a word of a known width. Its width is at once the number of its bytes and what its place
is a multiple of, so one function tells both. -/

/-- The least multiple of `width` from `offset` on. -/
def roundUp (offset width : Nat) : Nat := offset + (width - offset % width) % width

/-- Rounding up never goes back. -/
theorem le_roundUp (offset width : Nat) : offset ≤ roundUp offset width := Nat.le_add_right _ _

/-- A member of a structure: a word of two, four or eight bytes. -/
inductive Member where
  | word16 (value : UInt16)
  | word32 (value : UInt32)
  | word64 (value : UInt64)

namespace Member

/-- How many bytes a member has, and what its address is a multiple of. -/
@[simp]
def width : Member → Nat
  | word16 _ => 2
  | word32 _ => 4
  | word64 _ => 8

/-- The number that a member holds, whatever its width. -/
def value : Member → Nat
  | word16 value => value.toNat
  | word32 value => value.toNat
  | word64 value => value.toNat

/-- The bytes of a member, the least significant first. -/
def bytes (member : Member) : List UInt8 := Space.bytesOf member.width member.value

/-- It has no more bytes than the width says. -/
theorem value_lt (member : Member) : member.value < Space.weight member.width := by
  cases member with
  | word16 value => exact value.toNat_lt
  | word32 value => exact value.toNat_lt
  | word64 value => exact value.toNat_lt

/-- The word at `address` is that of the member. -/
@[simp]
def Stands (space : Space) (address : UInt64) : Member → Prop
  | word16 value => space.word16 address = value
  | word32 value => space.word32 address = value
  | word64 value => space.word64 address = value

/-- So nothing is cut off when the bytes are written. -/
theorem length_bytes (member : Member) : member.bytes.length = member.width := by
  rw [bytes, Space.bytesOf, List.length_map, List.length_range]

end Member

/-! ## Structures

A structure is the list of its members. Laying it out and reading it back go through that list with
the offset as their state, and both round the offset up to the width of the next member. That they
agree is one induction on the list (`standFrom_place`); no member is ever looked at by its number.
-/

/-- The padding between two offsets. -/
def gap (padding : Nat → UInt8) (low high : Nat) : List UInt8 :=
  (List.range' low (high - low)).map padding

/-- A gap ends where the next member begins. -/
theorem length_gap (padding : Nat → UInt8) {low high : Nat} (h : low ≤ high) :
    low + (gap padding low high).length = high := by
  rw [gap, List.length_map, List.length_range']
  omega

/-- The bytes of a structure from `offset` on, where `members` are the ones still to come. -/
def layOut (padding : Nat → UInt8) (align : Nat) : Nat → List Member → List UInt8
  | offset, [] => gap padding offset (roundUp offset align)
  | offset, member :: members =>
    let start := roundUp offset member.width
    gap padding offset start ++
      (member.bytes ++ layOut padding align (start + member.width) members)

/-- The offset at which the last member ends. -/
@[simp]
def reach : Nat → List Member → Nat
  | offset, [] => offset
  | offset, member :: members => reach (roundUp offset member.width + member.width) members

/-- The members that are still to come lie behind. -/
theorem le_reach (offset : Nat) (members : List Member) : offset ≤ reach offset members := by
  induction members generalizing offset with
  | nil => exact Nat.le_refl offset
  | cons member members ih =>
    calc
      offset ≤ roundUp offset member.width := le_roundUp offset member.width
      _ ≤ roundUp offset member.width + member.width := Nat.le_add_right _ _
      _ ≤ _ := ih _

/-- What the address of a structure is a multiple of: the largest width of a member. -/
def alignment (members : List Member) : Nat := (members.map Member.width).foldr max 1

/-- The bytes of a structure. -/
def encode (padding : Nat → UInt8) (members : List Member) : List UInt8 :=
  layOut padding (alignment members) 0 members

/-- What is laid out from an offset on ends at a multiple of the alignment. -/
theorem length_layOut (padding : Nat → UInt8) (align offset : Nat) (members : List Member) :
    offset + (layOut padding align offset members).length =
      roundUp (reach offset members) align := by
  induction members generalizing offset with
  | nil => exact length_gap padding (le_roundUp offset align)
  | cons member members ih =>
    have hgap := length_gap padding (le_roundUp offset member.width)
    have hrest := ih (roundUp offset member.width + member.width)
    rw [layOut, List.length_append, List.length_append, member.length_bytes, reach]
    omega

/-- The size of a structure is that of its last member's end, rounded up. -/
theorem length_encode (padding : Nat → UInt8) (members : List Member) :
    (encode padding members).length = roundUp (reach 0 members) (alignment members) := by
  rw [← length_layOut padding, Nat.zero_add, encode]

/-- Each of the members still to come stands where it belongs, counted from `base`. -/
@[simp]
def StandFrom (space : Space) (base : UInt64) : Nat → List Member → Prop
  | _, [] => True
  | offset, member :: members =>
    let start := roundUp offset member.width
    member.Stands space (base + UInt64.ofNat start) ∧
      StandFrom space base (start + member.width) members

/-! ## Reading back

The bytes of a structure may stand at any address, between other bytes. What is read at the address
of a member are the bytes of that member: those in front of it have the length of its offset, and
those behind do not count. -/

namespace Space

/-- A byte that lies in what was placed is read from there, any other one from the memory behind. -/
theorem byte_place (space : Space) (base spot : UInt64) (bytes : Array UInt8) :
    (space.place base bytes).byte spot = bytes[(spot - base).toNat]?.getD (space.byte spot) := rfl

/-- A number among bytes that are laid down is read back. -/
theorem read_place (space : Space) (base : UInt64) (before after : List UInt8) (width value : Nat)
    (hsize : before.length + width ≤ UInt64.size) :
    (space.place base (before ++ (bytesOf width value ++ after)).toArray).read
      (base + UInt64.ofNat before.length) width = value % weight width := by
  rw [← space.read_write (base + UInt64.ofNat before.length) (by omega) value]
  refine read_congr fun k hk => ?_
  have hplace : (base + UInt64.ofNat before.length + UInt64.ofNat k - base).toNat =
      before.length + k := by
    rw [UInt64.add_assoc, ← UInt64.ofNat_add, toNat_add_ofNat_sub base (by omega)]
  have hbyte : (before ++ (bytesOf width value ++ after))[before.length + k]? =
      some (UInt8.ofNat (value / weight k)) := by
    rw [List.getElem?_append_right (by omega), Nat.add_sub_cancel_left,
      List.getElem?_append_left (by simpa [bytesOf] using hk), bytesOf, List.getElem?_map,
      List.getElem?_range hk, Option.map_some]
  rw [byte_write, toNat_add_ofNat_sub _ (by omega), if_pos hk, byte_place, hplace,
    List.getElem?_toArray, hbyte, Option.getD_some]

end Space

/-- A member among bytes that are laid down stands where its bytes do. -/
theorem Member.stands_place (member : Member) (space : Space) (base : UInt64)
    (before after : List UInt8) (hsize : before.length + member.width ≤ UInt64.size) :
    member.Stands (space.place base (before ++ (member.bytes ++ after)).toArray)
      (base + UInt64.ofNat before.length) := by
  have hread := space.read_place base before after member.width member.value hsize
  rw [Nat.mod_eq_of_lt member.value_lt] at hread
  cases member with
  | word16 value => exact (congrArg UInt16.ofNat hread).trans UInt16.ofNat_toNat
  | word32 value => exact (congrArg UInt32.ofNat hread).trans UInt32.ofNat_toNat
  | word64 value => exact (congrArg UInt64.ofNat hread).trans UInt64.ofNat_toNat

/-- **Members that are laid out stand where they belong**, whatever is laid down in front of them
and behind them, and whatever the padding holds. -/
theorem standFrom_place (space : Space) (base : UInt64) (padding : Nat → UInt8) (align : Nat)
    (tail before : List UInt8) {offset : Nat} (members : List Member)
    (hbefore : before.length = offset) (hsize : reach offset members ≤ UInt64.size) :
    StandFrom (space.place base (before ++ (layOut padding align offset members ++ tail)).toArray)
      base offset members := by
  induction members generalizing before offset with
  | nil => trivial
  | cons member members ih =>
    have hstart := length_gap padding (le_roundUp offset member.width)
    have hend := le_reach (roundUp offset member.width + member.width) members
    rw [reach] at hsize
    -- the member stands behind what is there and its own padding
    have hmember := member.stands_place space base
      (before ++ gap padding offset (roundUp offset member.width))
      (layOut padding align (roundUp offset member.width + member.width) members ++ tail)
      (by rw [List.length_append]; omega)
    -- and the others behind that
    have hrest := ih (before ++ gap padding offset (roundUp offset member.width) ++ member.bytes)
      (by rw [List.length_append, List.length_append, member.length_bytes]; omega)
      hsize
    rw [List.length_append, hbefore, hstart] at hmember
    rw [layOut, StandFrom]
    simp only [List.append_assoc] at hmember hrest ⊢
    exact ⟨hmember, hrest⟩

/-- The same for a whole structure with anything behind it, such as the end of a larger buffer. -/
theorem standFrom_encode (space : Space) (base : UInt64) (padding : Nat → UInt8)
    (members : List Member) (tail : List UInt8) (hsize : reach 0 members ≤ UInt64.size) :
    StandFrom (space.place base (encode padding members ++ tail).toArray) base 0 members :=
  standFrom_place space base padding (alignment members) tail [] members rfl hsize

/-! ## Blocks

Each block of the driver is such a structure: its members are listed once, in the order of the
declaration, and the offsets that requests are taken apart with come out of the list. A block that
is read back where its members stand (`read_of_standFrom`) is read back from its bytes at every
address that it may lie at, with every size that covers it (`ReadsBack`). -/

/-- Blocks with these members are taken apart as they are laid out: `decode?` gives back each block
from its bytes and from nothing but them, and it refuses what `layout` does not allow to look
into. -/
structure ReadsBack {Block : Type} (layout : Layout) (members : Block → List Member)
    (decode? : Space → UInt64 → Nat → Option Block) : Prop where
  /-- The widest member has the alignment of the layout. -/
  align (block : Block) : alignment (members block) = layout.align
  /-- A block fills as many bytes as the layout has. -/
  length (padding : Nat → UInt8) (block : Block) :
    (encode padding (members block)).length = layout.size
  /-- A block that is somewhere in memory, whatever is between its members and behind it, is read as
  it is. -/
  decode (space : Space) (base : UInt64) (padding : Nat → UInt8) (block : Block)
    (tail : List UInt8) (size : Nat) : base ≠ 0 → base.toNat % layout.align = 0 →
      layout.size ≤ size →
      decode? (space.place base (encode padding (members block) ++ tail).toArray) base size =
        some block
  /-- Nothing is read at zero, between two places of the alignment, or from less than the size. -/
  refuse (space : Space) (base : UInt64) (size : Nat) :
    base = 0 ∨ base.toNat % layout.align ≠ 0 ∨ size < layout.size → decode? space base size = none

/-- A decoder that checks a layout and then reads takes blocks apart as they are laid out, provided
that reading does where the members stand. -/
theorem readsBack_of_read {Block : Type} {layout : Layout} {members : Block → List Member}
    {read : Space → UInt64 → Block} (hwide : layout.size ≤ UInt64.size)
    (halign : ∀ block, alignment (members block) = layout.align)
    (hsize : ∀ block, roundUp (reach 0 (members block)) layout.align = layout.size)
    (hread : ∀ {space base block}, StandFrom space base 0 (members block) →
      read space base = block) :
    ReadsBack layout members fun space base size =>
      if layout.fits base size then some (read space base) else none where
  align := halign
  length padding block := by rw [length_encode, halign, hsize]
  decode space base padding block tail size hbase haligned hcovered := by
    have hreach : reach 0 (members block) ≤ UInt64.size :=
      calc
        reach 0 (members block) ≤ roundUp _ layout.align := le_roundUp _ _
        _ = layout.size := hsize block
        _ ≤ UInt64.size := hwide
    rw [if_pos (Layout.fits_iff.2 ⟨hbase, haligned, hcovered⟩),
      hread (standFrom_encode space base padding (members block) tail hreach)]
  refuse space base size hrefuse := by
    refine if_neg fun hfits => ?_
    obtain ⟨hbase, haligned, hcovered⟩ := Layout.fits_iff.1 hfits
    rcases hrefuse with hnull | hmisaligned | hshort
    · exact hbase hnull
    · exact hmisaligned haligned
    · exact Nat.not_lt.2 hcovered hshort

namespace HeapBlock

/-- The members of a heap block. The allocation is a structure of its own; it begins and ends at
multiples of eight, so its members lie where members of the block would. -/
def members (block : HeapBlock) : List Member :=
  [.word32 block.root, .word32 block.parent, .word32 block.function, .word32 block.vaSpace,
    .word16 block.heapNumber.toUInt16, .word32 block.status, .word64 block.total,
    .word64 block.free, .word32 block.alloc.owner, .word32 block.alloc.memory,
    .word32 block.alloc.kind, .word32 block.alloc.flags, .word32 block.alloc.attr,
    .word32 block.alloc.format, .word32 block.alloc.comprCovg, .word32 block.alloc.zcullCovg,
    .word32 block.alloc.partitionStride, .word32 block.alloc.width, .word32 block.alloc.height,
    .word64 block.alloc.size, .word64 block.alloc.alignment, .word64 block.alloc.offset,
    .word64 block.alloc.limit, .word64 block.alloc.address, .word64 block.alloc.rangeBegin,
    .word64 block.alloc.rangeEnd, .word32 block.alloc.attr2, .word32 block.alloc.ctagOffset]

/-- The offsets of a heap request are those of its members. -/
theorem read_of_standFrom {space : Space} {base : UInt64} {block : HeapBlock}
    (h : StandFrom space base 0 (members block)) : read space base = block := by
  -- the offsets that come of laying the members out are those that are read at
  simp only [members, StandFrom, Member.Stands, roundUp, Member.width, Nat.zero_mod, Nat.sub_zero,
    Nat.mod_self, Nat.add_zero, UInt64.reduceOfNat, UInt64.add_zero, Nat.zero_add, Nat.reduceAdd,
    Nat.reduceMod, Nat.reduceSub, and_true] at h
  simp only [read, rootOffset, UInt64.add_zero, h, functionOffset, Int16.toInt16_toUInt16,
    statusOffset, totalOffset, freeOffset, memoryOffset]

/-- A heap request is read back from its bytes. -/
theorem readsBack : ReadsBack layout members decode? :=
  readsBack_of_read (by decide) (fun _ => by simp [members, layout, alignment])
    (fun _ => by simp [members, layout, roundUp]) read_of_standFrom

end HeapBlock

namespace FreeBlock

/-- The members of a request to free an object. -/
def members (block : FreeBlock) : List Member :=
  [.word32 block.root, .word32 block.parent, .word32 block.old, .word32 block.status]

/-- The offsets of a free request are those of its members. -/
theorem read_of_standFrom {space : Space} {base : UInt64} {block : FreeBlock}
    (h : StandFrom space base 0 (members block)) : read space base = block := by
  obtain ⟨⟩ := block
  simpa [members, roundUp, read, statusOffset] using h

/-- A free request is read back from its bytes. -/
theorem readsBack : ReadsBack layout members decode? :=
  readsBack_of_read (by decide) (fun _ => by simp [members, layout, alignment])
    (fun _ => by simp [members, layout, roundUp]) read_of_standFrom

end FreeBlock

namespace ControlBlock

/-- The members of a control request. The pointer to the parameters is aligned to its own width. -/
def members (block : ControlBlock) : List Member :=
  [.word32 block.client, .word32 block.object, .word32 block.command, .word32 block.flags,
    .word64 block.params, .word32 block.paramsSize, .word32 block.status]

/-- The offsets of a control request are those of its members. -/
theorem read_of_standFrom {space : Space} {base : UInt64} {block : ControlBlock}
    (h : StandFrom space base 0 (members block)) : read space base = block := by
  obtain ⟨⟩ := block
  simpa [members, roundUp, read, statusOffset] using h

/-- A control request is read back from its bytes. -/
theorem readsBack : ReadsBack layout members decode? :=
  readsBack_of_read (by decide) (fun _ => by simp [members, layout, alignment])
    (fun _ => by simp [members, layout, roundUp]) read_of_standFrom

end ControlBlock

namespace InfoHead

/-- The members in front of a list of figures that is elsewhere, with a gap between the two. -/
def members (head : InfoHead) : List Member := [.word32 head.count, .word64 head.list]

/-- The offsets of such a head are those of its members. -/
theorem read_of_standFrom {space : Space} {base : UInt64} {head : InfoHead}
    (h : StandFrom space base 0 (members head)) : read space base = head := by
  obtain ⟨⟩ := head
  simpa [members, roundUp, read] using h

/-- A head is read back from its bytes. -/
theorem readsBack : ReadsBack layout members decode? :=
  readsBack_of_read (by decide) (fun _ => by simp [members, layout, alignment])
    (fun _ => by simp [members, layout, roundUp]) read_of_standFrom

end InfoHead

namespace InfoEntry

/-- The members of an entry in a list of figures. -/
def members (entry : InfoEntry) : List Member := [.word32 entry.index, .word32 entry.data]

/-- The offsets of an entry are those of its members. -/
theorem read_of_standFrom {space : Space} {base : UInt64} {entry : InfoEntry}
    (h : StandFrom space base 0 (members entry)) : read space base = entry := by
  obtain ⟨⟩ := entry
  simpa [members, roundUp, read] using h

/-- An entry is read back from its bytes. -/
theorem readsBack : ReadsBack layout members decode? :=
  readsBack_of_read (by decide) (fun _ => by simp [members, layout, alignment])
    (fun _ => by simp [members, layout, roundUp]) read_of_standFrom

end InfoEntry

namespace AllocBlock

/-- The members of a request for an object in the layout that ends with the status. -/
def shortMembers (block : AllocBlock) : List Member :=
  [.word32 block.root, .word32 block.parent, .word32 block.new, .word32 block.cls,
    .word64 block.params, .word32 block.paramsSize, .word32 block.status]

/-- The longer layout also has the rights that are requested, and flags. -/
def longMembers (rights : UInt64) (flags : UInt32) (block : AllocBlock) : List Member :=
  [.word32 block.root, .word32 block.parent, .word32 block.new, .word32 block.cls,
    .word64 block.params, .word64 rights, .word32 block.paramsSize, .word32 flags,
    .word32 block.status]

/-- The offsets of the short layout are those of its members. -/
theorem readShort_of_standFrom {space : Space} {base : UInt64} {block : AllocBlock}
    (h : StandFrom space base 0 (shortMembers block)) : readShort space base = block := by
  obtain ⟨⟩ := block
  simpa [shortMembers, roundUp, readShort, shortStatusOffset] using h

/-- And so are those of the long one, whatever the caller's rights and flags are, which nobody
reads. -/
theorem readLong_of_standFrom {space : Space} {base : UInt64} {rights : UInt64} {flags : UInt32}
    {block : AllocBlock} (h : StandFrom space base 0 (longMembers rights flags block)) :
    readLong space base = block := by
  obtain ⟨⟩ := block
  simp only [longMembers, StandFrom, Member.Stands, roundUp, Member.width, Nat.zero_mod,
    Nat.sub_zero, Nat.mod_self, Nat.add_zero, UInt64.reduceOfNat, UInt64.add_zero, Nat.zero_add,
    Nat.reduceAdd, Nat.reduceMod, and_true] at h
  obtain ⟨hroot, hparent, hnew, hcls, hparams, -, hsize, -, hstatus⟩ := h
  rw [readLong, longStatusOffset, hroot, hparent, hnew, hcls, hparams, hsize, hstatus]

/-- The short layout is read back from its bytes. -/
theorem readsBack_short : ReadsBack shortLayout shortMembers fun space base size =>
    if shortLayout.fits base size then some (readShort space base) else none :=
  readsBack_of_read (by decide) (fun _ => by simp [shortMembers, shortLayout, alignment])
    (fun _ => by simp [shortMembers, shortLayout, roundUp]) readShort_of_standFrom

/-- The long layout is read back from its bytes. -/
theorem readsBack_long (rights : UInt64) (flags : UInt32) :
    ReadsBack longLayout (longMembers rights flags) fun space base size =>
      if longLayout.fits base size then some (readLong space base) else none :=
  readsBack_of_read (by decide) (fun _ => by simp [longMembers, longLayout, alignment])
    (fun _ => by simp [longMembers, longLayout, roundUp]) readLong_of_standFrom

/-- It is the size that tells the two layouts apart. -/
theorem isLong_iff {size : Nat} : isLong size ↔ 48 ≤ size := decide_eq_true_iff

/-- The size tells which layout is meant. -/
theorem decode?_of_lt {space : Space} {base : UInt64} {size : Nat} (h : size < 48) :
    decode? space base size =
      if shortLayout.fits base size then some (readShort space base) else none :=
  if_neg (mt isLong_iff.1 (Nat.not_le.2 h))

/-- A size that covers the long layout is taken for it. -/
theorem decode?_of_le {space : Space} {base : UInt64} {size : Nat} (h : 48 ≤ size) :
    decode? space base size =
      if longLayout.fits base size then some (readLong space base) else none :=
  if_pos (isLong_iff.2 h)

section Either

variable {space : Space} {base : UInt64} {size : Nat}

/-- A request in the short layout, with a size that does not cover the long one, is recovered. -/
theorem decode?_short (padding : Nat → UInt8) (block : AllocBlock) (tail : List UInt8)
    (hbase : base ≠ 0) (haligned : base.toNat % 8 = 0) (hcovered : 32 ≤ size) (hlt : size < 48) :
    decode? (space.place base (encode padding (shortMembers block) ++ tail).toArray) base size =
      some block := by
  rw [decode?_of_lt hlt]
  exact readsBack_short.decode space base padding block tail size hbase haligned hcovered

/-- A request in the long layout is recovered with every size that covers it. -/
theorem decode?_long (padding : Nat → UInt8) (rights : UInt64) (flags : UInt32)
    (block : AllocBlock) (tail : List UInt8) (hbase : base ≠ 0) (haligned : base.toNat % 8 = 0)
    (hcovered : 48 ≤ size) :
    decode? (space.place base (encode padding (longMembers rights flags block) ++ tail).toArray)
      base size = some block := by
  rw [decode?_of_le hcovered]
  exact (readsBack_long rights flags).decode space base padding block tail size hbase haligned
    hcovered

/-- An address that is null or not aligned, or a size that covers neither, gives no block. -/
theorem decode?_refuse (h : base = 0 ∨ base.toNat % 8 ≠ 0 ∨ size < 32) :
    decode? space base size = none := by
  rcases Nat.lt_or_ge size 48 with hlt | hge
  · rw [decode?_of_lt hlt]
    exact readsBack_short.refuse space base size h
  · rw [decode?_of_le hge]
    -- fewer bytes than the shorter layout has are fewer than the longer one has
    have hlong : base = 0 ∨ base.toNat % 8 ≠ 0 ∨ size < 48 :=
      h.imp_right (Or.imp_right fun hshort => Nat.lt_trans hshort (by decide))
    exact (readsBack_long 0 0).refuse space base size hlong

end Either

/-- Allocations of objects are taken apart in the layout that the size tells, and what the longer
one has besides makes no difference: a block is the same from either. -/
structure ReadsEither : Prop where
  /-- Both layouts are aligned to the eight bytes that are looked for. -/
  align (rights : UInt64) (flags : UInt32) (block : AllocBlock) :
    alignment (shortMembers block) = 8 ∧ alignment (longMembers rights flags block) = 8
  /-- They fill as many bytes as the two sizes that are told apart. -/
  length (padding : Nat → UInt8) (rights : UInt64) (flags : UInt32) (block : AllocBlock) :
    (encode padding (shortMembers block)).length = 32 ∧
      (encode padding (longMembers rights flags block)).length = 48
  /-- What was laid out short is read from any size that is less than the long one. -/
  short (space : Space) (base : UInt64) (padding : Nat → UInt8) (block : AllocBlock)
    (tail : List UInt8) (size : Nat) : base ≠ 0 → base.toNat % 8 = 0 → 32 ≤ size → size < 48 →
      decode? (space.place base (encode padding (shortMembers block) ++ tail).toArray) base size =
        some block
  /-- What was laid out long is read from any size that covers it. -/
  long (space : Space) (base : UInt64) (padding : Nat → UInt8) (rights : UInt64) (flags : UInt32)
    (block : AllocBlock) (tail : List UInt8) (size : Nat) : base ≠ 0 → base.toNat % 8 = 0 →
      48 ≤ size →
      decode? (space.place base (encode padding (longMembers rights flags block) ++ tail).toArray)
        base size = some block
  /-- The same block is read from either, wherever the two stand and whatever surrounds them. -/
  alike (space other : Space) (base place : UInt64) (padding filling : Nat → UInt8)
    (rights : UInt64) (flags : UInt32) (block : AllocBlock) (tail rest : List UInt8)
    (size room : Nat) : base ≠ 0 → base.toNat % 8 = 0 → 32 ≤ size → size < 48 →
      place ≠ 0 → place.toNat % 8 = 0 → 48 ≤ room →
      decode? (space.place base (encode padding (shortMembers block) ++ tail).toArray) base size =
        decode? (other.place place
          (encode filling (longMembers rights flags block) ++ rest).toArray) place room
  /-- Nothing is read at zero, off alignment, or from less than the short size. -/
  refuse (space : Space) (base : UInt64) (size : Nat) :
    base = 0 ∨ base.toNat % 8 ≠ 0 ∨ size < 32 → decode? space base size = none

/-- So the two layouts, with their sizes, are told apart and read back. -/
theorem readsEither : ReadsEither where
  align rights flags block :=
    ⟨readsBack_short.align block, (readsBack_long rights flags).align block⟩
  length padding rights flags block :=
    ⟨readsBack_short.length padding block, (readsBack_long rights flags).length padding block⟩
  short _ _ padding block tail _ := decode?_short padding block tail
  long _ _ padding rights flags block tail _ := decode?_long padding rights flags block tail
  alike _ _ _ _ padding filling rights flags block tail rest _ _ hbase haligned hcovered hlt hplace
      hmultiple hroom := by
    rw [decode?_short padding block tail hbase haligned hcovered hlt,
      decode?_long filling rights flags block rest hplace hmultiple hroom]
  refuse _ _ _ := decode?_refuse

end AllocBlock

/-- **Every parameter block is recovered from its bytes**, whatever the padding holds and whatever
follows: with any size that covers it, its fields are read back as they were laid out. Nothing is
read through a null or misaligned address or out of fewer bytes than the block has. An allocation of
an object is recovered from either layout, so from both alike. -/
theorem blocks_read_back :
    ReadsBack HeapBlock.layout HeapBlock.members HeapBlock.decode? ∧
    ReadsBack FreeBlock.layout FreeBlock.members FreeBlock.decode? ∧
    ReadsBack ControlBlock.layout ControlBlock.members ControlBlock.decode? ∧
    ReadsBack InfoHead.layout InfoHead.members InfoHead.decode? ∧
    ReadsBack InfoEntry.layout InfoEntry.members InfoEntry.decode? ∧
    AllocBlock.ReadsEither :=
  ⟨HeapBlock.readsBack, FreeBlock.readsBack, ControlBlock.readsBack, InfoHead.readsBack,
    InfoEntry.readsBack, AllocBlock.readsEither⟩

/-- One allocation of a device in both layouts, with padding, rights, flags and bytes behind it that
are not its own. -/
theorem blocks_read_back_either :
    let block : AllocBlock := ⟨1, 1, 2, deviceClass, 4096, 16, statusOk⟩
    AllocBlock.decode? (Space.blank.place 8192
      (encode (fun _ => 0xaa) (AllocBlock.shortMembers block) ++ [1, 2, 3]).toArray) 8192 40 =
        some block ∧
    AllocBlock.decode? (Space.blank.place 8192
      (encode (fun _ => 0x55) (AllocBlock.longMembers 7 9 block) ++ [4]).toArray) 8192 64 =
        some block :=
  let either := blocks_read_back.2.2.2.2.2
  ⟨either.short _ _ _ _ _ _ (by decide) (by decide) (by decide) (by decide),
    either.long _ _ _ _ _ _ _ _ (by decide) (by decide) (by decide)⟩

end GpuQuota.Driver
