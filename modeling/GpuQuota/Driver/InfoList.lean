import GpuQuota.Driver.Block

/-!
# Lists of framebuffer figures in place

A control request for framebuffer figures hands over a list of entries, each an index and a data
word that the driver fills in. The list either stands where the parameters point to, or follows
its length inside the parameters. Under a quota the figures for the whole memory and for the free
memory are rewritten in place.

* `byte_rewrite_of_outside`: no byte outside the list changes.
-/

namespace GpuQuota.Driver

/-- Where a list stands and how many entries it has. -/
structure InfoList where
  address : UInt64
  count : Nat
  deriving DecidableEq, Repr

namespace InfoList

/-- The list that a head at `params` points to. A null or misaligned address is no list. -/
def pointed? (space : Space) (params : UInt64) (paramsSize : Nat) : Option InfoList := do
  let head ← InfoHead.decode? space params paramsSize
  if head.list ≠ 0 ∧ head.list.toNat % InfoEntry.layout.align = 0 then
    some ⟨head.list, head.count.toNat⟩
  else none

/-- The layout of the length in front of an inline list. -/
def countLayout : Layout := ⟨4, 4⟩

/-- The list inside parameters of `paramsSize` bytes: as many entries as its length says, but no
more than fit whole behind it. -/
def inline? (space : Space) (params : UInt64) (paramsSize : Nat) : Option InfoList :=
  if countLayout.fits params paramsSize then
    let capacity := (paramsSize - countLayout.size) / InfoEntry.layout.size
    some ⟨params + 4, min (space.word32 params).toNat capacity⟩
  else none

/-- The address of the `i`-th entry. -/
def entryAddress (list : InfoList) (i : Nat) : UInt64 :=
  list.address + UInt64.ofNat (8 * i)

/-- The entries as they stand. -/
def entries (list : InfoList) (space : Space) : List InfoEntry :=
  (List.range list.count).map fun i => InfoEntry.read space (list.entryAddress i)

/-- Lays entries down one behind the other. -/
def write (space : Space) (address : UInt64) (entries : List InfoEntry) : Space :=
  space.place address (entries.flatMap InfoEntry.bytes).toArray

/-- Bytes in kibibytes, or the largest 32-bit word. -/
def toKib (bytes : UInt64) : UInt32 :=
  UInt32.ofNat (min (bytes >>> 10).toNat (UInt32.size - 1))

/-- The value that a quota gives to the figure of this index; other figures are the driver's. -/
def figure? (total free : UInt64) (index : UInt32) : Option UInt32 :=
  if index = totalRamIndex ∨ index = heapSizeIndex then some (toKib total)
  else if index = heapFreeIndex then some (toKib free)
  else none

/-- Replaces the data word of every entry whose figure a quota gives. All entries are rewritten
at once: an index word is never written, so no entry bears on another. -/
def rewrite (list : InfoList) (space : Space) (total free : UInt64) : Space where
  byte spot :=
    let place := (spot - list.address).toNat
    if place < 8 * list.count ∧ 4 ≤ place % 8 then
      match figure? total free (space.word32 (list.entryAddress (place / 8))) with
      | some value => UInt8.ofNat (value.toNat / Space.weight (place % 8 - 4))
      | none => space.byte spot
    else space.byte spot

theorem byte_rewrite_of_outside {list : InfoList} {space : Space} {total free spot : UInt64}
    (h : 8 * list.count ≤ (spot - list.address).toNat) :
    (list.rewrite space total free).byte spot = space.byte spot := by
  have : ¬ (spot - list.address).toNat < 8 * list.count := by omega
  simp [rewrite, this]

end InfoList

end GpuQuota.Driver
