import GpuQuota.Driver.Block
import GpuQuota.Driver.InfoList

/-!
# What a write leaves alone

Words of a block stand at small offsets from its base, and a base may be any address, so also one
from which the block wraps around. Two words are apart where no byte of the one is within the other,
counted from their offsets.

* `Space.read_write_of_apart`: a write does not change what is read apart from it.
* `HeapBlock.read_setStatus`, `HeapBlock.read_setTotals`: what a reply changes in a heap block.
* `HeapBlock.inTotals_of_ne`, `InfoList.inFigure_of_ne`: the bytes that a reply can change at all.
-/

namespace GpuQuota.Driver

namespace Space

/-- A write at offset `place` does not change a number at `offset` whose bytes are all behind it or
in front of it. -/
theorem read_write_of_apart (space : Space) (base : UInt64) {place offset : UInt64}
    {width count : Nat} (value : Nat)
    (h : ∀ k < count, width ≤ (offset + UInt64.ofNat k - place).toNat) :
    (space.write (base + place) width value).read (base + offset) count =
      space.read (base + offset) count := by
  induction count generalizing offset with
  | zero => rfl
  | succ count ih =>
    have hshift : base + offset - (base + place) = offset - place := by
      rw [UInt64.sub_eq_iff_eq_add, UInt64.add_comm base place, ← UInt64.add_assoc,
        UInt64.sub_add_cancel, UInt64.add_comm]
    have hhead : width ≤ (base + offset - (base + place)).toNat := by
      have hzero := h 0 (Nat.succ_pos count)
      rwa [show UInt64.ofNat 0 = 0 from rfl, UInt64.add_zero, ← hshift] at hzero
    have htail : ∀ k < count, width ≤ (offset + 1 + UInt64.ofNat k - place).toNat := by
      intro k hk
      have hnext := h (k + 1) (Nat.succ_lt_succ hk)
      rwa [Nat.add_comm k 1, UInt64.ofNat_add, ← UInt64.add_assoc] at hnext
    rw [read, read, byte_write_of_outside hhead, UInt64.add_assoc, ih htail]

variable (space : Space) (base : UInt64) {place offset : UInt64} {width : Nat} (value : Nat)

theorem word16_write_of_apart (h : ∀ k < 2, width ≤ (offset + UInt64.ofNat k - place).toNat) :
    (space.write (base + place) width value).word16 (base + offset) =
      space.word16 (base + offset) :=
  congrArg UInt16.ofNat (space.read_write_of_apart base value h)

theorem word32_write_of_apart (h : ∀ k < 4, width ≤ (offset + UInt64.ofNat k - place).toNat) :
    (space.write (base + place) width value).word32 (base + offset) =
      space.word32 (base + offset) :=
  congrArg UInt32.ofNat (space.read_write_of_apart base value h)

/-- A word of 64 bits apart from a write stays. -/
theorem word64_write_of_apart (h : ∀ k < 8, width ≤ (offset + UInt64.ofNat k - place).toNat) :
    (space.write (base + place) width value).word64 (base + offset) =
      space.word64 (base + offset) :=
  congrArg UInt64.ofNat (space.read_write_of_apart base value h)

/-- The byte at `spot` is one of the `width` bytes from `address` on. -/
def Within (address : UInt64) (width : Nat) (spot : UInt64) : Prop := (spot - address).toNat < width

/-- A write changes only the bytes that it lays down. -/
theorem within_of_write_ne {space : Space} {address spot : UInt64} {width value : Nat}
    (h : (space.write address width value).byte spot ≠ space.byte spot) :
    Within address width spot := by
  rcases Nat.lt_or_ge (spot - address).toNat width with hwithin | houtside
  · exact hwithin
  · exact absurd (byte_write_of_outside houtside) h

end Space

namespace HeapBlock

open Space

/-- A status changes the status of a block, and no other field. -/
theorem read_setStatus (space : Space) (base : UInt64) (status : UInt32) :
    read (setStatus space base status) base = { read space base with status } := by
  have hstatus : (space.write (base + statusOffset) 4 status.toNat).word32 (base + statusOffset) =
      status := space.word32_setWord32 _ _
  simp (disch := decide) only [read, setStatus, setWord32, word16_write_of_apart,
    word32_write_of_apart, word64_write_of_apart]
  rw [hstatus]

/-- Two figures change the figures of a block, and no other field. -/
theorem read_setTotals (space : Space) (base total free : UInt64) :
    read (setTotals space base total free) base = { read space base with total, free } := by
  have htotal : (space.write (base + totalOffset) 8 total.toNat).word64 (base + totalOffset) =
      total := space.word64_setWord64 _ _
  have hfree : ((space.write (base + totalOffset) 8 total.toNat).write (base + freeOffset) 8
      free.toNat).word64 (base + freeOffset) = free := word64_setWord64 _ _ _
  simp (disch := decide) only [read, setTotals, setWord64, word16_write_of_apart,
    word32_write_of_apart, word64_write_of_apart]
  rw [htotal, hfree]

/-- The byte at `spot` belongs to one of the two figures of the heap block at `base`. -/
def InTotals (base spot : UInt64) : Prop :=
  Within (base + totalOffset) 8 spot ∨ Within (base + freeOffset) 8 spot

/-- Only the bytes of the two figures can change with them. -/
theorem inTotals_of_ne {space : Space} {base total free spot : UInt64}
    (h : (setTotals space base total free).byte spot ≠ space.byte spot) : InTotals base spot := by
  rcases Nat.lt_or_ge (spot - (base + freeOffset)).toNat 8 with hfree | houtside
  · exact .inr hfree
  · rw [setTotals, setWord64, byte_write_of_outside houtside] at h
    exact .inl (within_of_write_ne h)

theorem within_of_setStatus_ne {space : Space} {base spot : UInt64} {status : UInt32}
    (h : (setStatus space base status).byte spot ≠ space.byte spot) :
    Within (base + statusOffset) 4 spot :=
  within_of_write_ne h

end HeapBlock

namespace InfoList

/-- The byte at `spot` belongs to the data word of an entry whose figure a quota gives. -/
def InFigure (list : InfoList) (space : Space) (spot : UInt64) : Prop :=
  ∃ i < list.count, (InfoEntry.read space (list.entryAddress i)).index ∈
    [totalRamIndex, heapSizeIndex, heapFreeIndex] ∧ Space.Within (list.entryAddress i + 4) 4 spot

/-- A quota gives the figures of three indices. -/
theorem mem_of_figure? {total free : UInt64} {index value : UInt32}
    (h : figure? total free index = some value) :
    index ∈ [totalRamIndex, heapSizeIndex, heapFreeIndex] := by
  rw [figure?] at h
  split at h
  · next hindex =>
    rcases hindex with rfl | rfl
    · exact List.mem_cons_self
    · exact List.mem_cons_of_mem _ List.mem_cons_self
  · split at h
    · next hindex =>
      rw [hindex]
      decide
    · cases h

/-- The value of an entry stands four bytes into it. -/
theorem data_address (list : InfoList) (i : Nat) :
    list.entryAddress i + 4 = list.address + UInt64.ofNat (8 * i + 4) := by
  rw [entryAddress, UInt64.add_assoc, UInt64.ofNat_add]
  rfl

/-- A byte in the second half of the entry that it belongs to is one of the entry's data word. -/
theorem within_data (list : InfoList) {spot : UInt64}
    (hhalf : 4 ≤ (spot - list.address).toNat % 8) :
    Space.Within (list.entryAddress ((spot - list.address).toNat / 8) + 4) 4 spot := by
  have hlt := (spot - list.address).toNat_lt
  have hsize : UInt64.size = 2 ^ 64 := rfl
  rw [Space.Within, data_address, Space.toNat_sub_add_ofNat _ _ (by omega), hsize]
  omega

/-- Only the bytes of values can change with a list. -/
theorem inFigure_of_ne {list : InfoList} {space : Space} {total free spot : UInt64}
    (h : (list.rewrite space total free).byte spot ≠ space.byte spot) :
    list.InFigure space spot := by
  rw [rewrite] at h
  dsimp only at h
  split at h
  · next hplace =>
    obtain ⟨hcount, hhalf⟩ := hplace
    split at h
    · next value hvalue =>
      exact ⟨_, Nat.div_lt_of_lt_mul hcount, mem_of_figure? hvalue, list.within_data hhalf⟩
    · exact absurd rfl h
  · exact absurd rfl h

end InfoList

end GpuQuota.Driver
