import GpuQuota.Proofs.Driver.Frame

/-!
# Lists of figures as lists

Figures are rewritten byte by byte and read back word by word. Read back, a rewritten list is the
list that stood there with each entry shown as a quota has it (`InfoEntry.shown`): no entry is left
out, none bears on another, and the order and the repetitions do not matter.

* `InfoList.entries_rewrite`: the rewrite as a map over the entries.
* `InfoList.rewrite_eq_foldl`: the rewrite as one step for each entry.
* `kib_le_kib`: rounding to kibibytes keeps the order.
-/

namespace GpuQuota.Driver

namespace Space

theorem ext_byte {space other : Space} (h : ∀ spot, space.byte spot = other.byte spot) :
    space = other :=
  congrArg mk (funext h)

/-- What is read depends on the bytes that are read alone. -/
theorem read_congr {space other : Space} {address : UInt64} {width : Nat}
    (h : ∀ k < width,
      space.byte (address + UInt64.ofNat k) = other.byte (address + UInt64.ofNat k)) :
    space.read address width = other.read address width := by
  induction width generalizing address with
  | zero => rfl
  | succ width ih =>
    have hhead := h 0 (Nat.succ_pos width)
    rw [show UInt64.ofNat 0 = 0 from rfl, UInt64.add_zero] at hhead
    have htail : ∀ k < width, space.byte (address + 1 + UInt64.ofNat k) =
        other.byte (address + 1 + UInt64.ofNat k) := by
      intro k hk
      have hnext := h (k + 1) (Nat.succ_lt_succ hk)
      rwa [Nat.add_comm k 1, UInt64.ofNat_add, ← UInt64.add_assoc] at hnext
    rw [read, read, hhead, ih htail]

/-- A word depends on its four bytes only. -/
theorem word32_congr {space other : Space} {address : UInt64}
    (h : ∀ k < 4, space.byte (address + UInt64.ofNat k) = other.byte (address + UInt64.ofNat k)) :
    space.word32 address = other.word32 address :=
  congrArg UInt32.ofNat (read_congr h)

end Space

/-! ## Kibibytes

Figures are given in kibibytes and rounded down, and what is too large for their word is cut to the
largest one. -/

/-- Bytes in whole kibibytes, or the largest number that a 32-bit word holds. -/
def kib (bytes : UInt64) : Nat := min (bytes.toNat / 1024) (UInt32.size - 1)

/-- Rounding to kibibytes keeps the order. -/
theorem kib_le_kib {few many : UInt64} (h : few ≤ many) : kib few ≤ kib many := by
  have hle := UInt64.le_iff_toNat_le.1 h
  rw [kib, kib]
  omega

/-- The code's rounding is that of the law. -/
theorem toNat_toKib (bytes : UInt64) : (InfoList.toKib bytes).toNat = kib bytes := by
  have hshift : (bytes >>> 10).toNat = bytes.toNat / 1024 := by
    rw [UInt64.toNat_shiftRight, Nat.shiftRight_eq_div_pow]
    rfl
  have hsize : UInt32.size = 2 ^ 32 := rfl
  rw [InfoList.toKib, kib, hshift, UInt32.toNat_ofNat']
  omega

theorem toKib_eq (bytes : UInt64) : InfoList.toKib bytes = UInt32.ofNat (kib bytes) := by
  rw [← toNat_toKib, UInt32.ofNat_toNat]

/-! ## Entries

A rewritten entry is the entry with another value or with its own; its index stays, so a second
rewrite would find the same entries to change. -/

/-- An entry as a quota has it, of which `free` of `total` bytes are reported free. -/
def InfoEntry.shown (total free : UInt64) (entry : InfoEntry) : InfoEntry :=
  if entry.index = totalRamIndex ∨ entry.index = heapSizeIndex then
    { entry with data := UInt32.ofNat (kib total) }
  else if entry.index = heapFreeIndex then { entry with data := UInt32.ofNat (kib free) }
  else entry

/-- An entry is shown with the figure of its index, if it has one. -/
theorem InfoEntry.shown_eq (total free : UInt64) (entry : InfoEntry) :
    entry.shown total free =
      { entry with data := (InfoList.figure? total free entry.index).getD entry.data } := by
  rw [shown, InfoList.figure?, toKib_eq, toKib_eq]
  split
  · rfl
  · split
    · rfl
    · rfl

theorem InfoEntry.index_shown (total free : UInt64) (entry : InfoEntry) :
    (entry.shown total free).index = entry.index := by
  rw [shown_eq]

namespace InfoList

variable {list : InfoList} {space : Space} {total free : UInt64} {i k : Nat}

/-- The byte at each address after a rewrite. -/
theorem byte_rewrite (list : InfoList) (space : Space) (total free spot : UInt64) :
    (list.rewrite space total free).byte spot =
      if (spot - list.address).toNat < 8 * list.count ∧ 4 ≤ (spot - list.address).toNat % 8 then
        ((figure? total free
          (space.word32 (list.entryAddress ((spot - list.address).toNat / 8)))).map fun value =>
            UInt8.ofNat (value.toNat / Space.weight ((spot - list.address).toNat % 8 - 4))).getD
              (space.byte spot)
      else space.byte spot := by
  rw [rewrite]
  dsimp only
  split
  · rcases figure? total free _ with _ | value
    · rfl
    · rfl
  · rfl

/-- The bytes of an entry after a rewrite. -/
theorem byte_rewrite_entry (space : Space) (total free : UInt64)
    (hcount : 8 * list.count ≤ UInt64.size) (hi : i < list.count) (hk : k < 8) :
    (list.rewrite space total free).byte (list.entryAddress i + UInt64.ofNat k) =
      if 4 ≤ k then
        ((figure? total free (space.word32 (list.entryAddress i))).map fun value =>
          UInt8.ofNat (value.toNat / Space.weight (k - 4))).getD
            (space.byte (list.entryAddress i + UInt64.ofNat k))
      else space.byte (list.entryAddress i + UInt64.ofNat k) := by
  have hplace : (list.entryAddress i + UInt64.ofNat k - list.address).toNat = 8 * i + k := by
    rw [entryAddress, UInt64.add_assoc, ← UInt64.ofNat_add]
    exact Space.toNat_add_ofNat_sub _ (Nat.lt_of_lt_of_le (by omega) hcount)
  have hdiv : (8 * i + k) / 8 = i := by omega
  have hmod : (8 * i + k) % 8 = k := by omega
  have hwithin : 8 * i + k < 8 * list.count := by omega
  simp only [byte_rewrite, hplace, hdiv, hmod, hwithin, true_and]

/-- An index word stays as it is. -/
theorem index_rewrite (hcount : 8 * list.count ≤ UInt64.size) (hi : i < list.count) :
    (list.rewrite space total free).word32 (list.entryAddress i) =
      space.word32 (list.entryAddress i) := by
  refine Space.word32_congr fun k hk => ?_
  rw [byte_rewrite_entry space total free hcount hi (by omega), if_neg (by omega)]

/-- A data word becomes the figure that a quota gives, if it gives one. -/
theorem data_rewrite (hcount : 8 * list.count ≤ UInt64.size) (hi : i < list.count) :
    (list.rewrite space total free).word32 (list.entryAddress i + 4) =
      (figure? total free (space.word32 (list.entryAddress i))).getD
        (space.word32 (list.entryAddress i + 4)) := by
  have hbyte : ∀ k < 4, (list.rewrite space total free).byte
      (list.entryAddress i + 4 + UInt64.ofNat k) =
        ((figure? total free (space.word32 (list.entryAddress i))).map fun value =>
          UInt8.ofNat (value.toNat / Space.weight k)).getD
            (space.byte (list.entryAddress i + 4 + UInt64.ofNat k)) := by
    intro k hk
    have hentry := byte_rewrite_entry space total free hcount hi (show 4 + k < 8 by omega)
    rwa [UInt64.ofNat_add, ← UInt64.add_assoc, if_pos (by omega), Nat.add_sub_cancel_left]
      at hentry
  rcases hfigure : figure? total free (space.word32 (list.entryAddress i)) with _ | value
  · rw [hfigure] at hbyte
    exact Space.word32_congr hbyte
  · -- the bytes are those of the value, written there
    rw [hfigure] at hbyte
    rw [Option.getD_some, ← space.word32_setWord32 (list.entryAddress i + 4) value]
    refine Space.word32_congr fun k hk => ?_
    have hwithin := Space.toNat_add_ofNat_sub (list.entryAddress i + 4)
      (Nat.lt_trans hk (show 4 < UInt64.size by decide))
    rw [hbyte k hk, Space.setWord32, Space.byte_write, hwithin, if_pos hk]
    rfl

/-- An entry of a rewritten list is as a quota has it. -/
theorem read_rewrite (hcount : 8 * list.count ≤ UInt64.size) (hi : i < list.count) :
    InfoEntry.read (list.rewrite space total free) (list.entryAddress i) =
      (InfoEntry.read space (list.entryAddress i)).shown total free := by
  rw [InfoEntry.shown_eq, InfoEntry.read, InfoEntry.read, index_rewrite hcount hi,
    data_rewrite hcount hi]

/-- What stands where an entry behind the list would is left alone. -/
theorem read_rewrite_of_le (list : InfoList) (hi : list.count ≤ i)
    (hplace : 8 * (i + 1) ≤ UInt64.size) :
    InfoEntry.read (list.rewrite space total free) (list.entryAddress i) =
      InfoEntry.read space (list.entryAddress i) := by
  have hbyte : ∀ k < 8, (list.rewrite space total free).byte
      (list.entryAddress i + UInt64.ofNat k) =
        space.byte (list.entryAddress i + UInt64.ofNat k) := by
    intro k hk
    refine byte_rewrite_of_outside ?_
    rw [entryAddress, UInt64.add_assoc, ← UInt64.ofNat_add,
      Space.toNat_add_ofNat_sub _ (by omega)]
    omega
  have hindex := Space.word32_congr fun k hk => hbyte k (by omega)
  have hdata : (list.rewrite space total free).word32 (list.entryAddress i + 4) =
      space.word32 (list.entryAddress i + 4) := by
    refine Space.word32_congr fun k hk => ?_
    have hhalf := hbyte (4 + k) (by omega)
    rwa [UInt64.ofNat_add, ← UInt64.add_assoc] at hhalf
  rw [InfoEntry.read, InfoEntry.read, hindex, hdata]

/-- **A rewritten list is the list with each entry as a quota has it.** -/
theorem entries_rewrite (hcount : 8 * list.count ≤ UInt64.size) :
    list.entries (list.rewrite space total free) =
      (list.entries space).map (InfoEntry.shown total free) := by
  rw [entries, entries, List.map_map]
  exact List.map_congr_left fun i hi => read_rewrite hcount (List.mem_range.1 hi)

/-! ## One entry after the other

Byte by byte, the entries do not meet: what one of them changes none of the others reads. -/

/-- Replaces the data word of one entry, if a quota gives its figure. -/
def rewriteEntry (total free : UInt64) (space : Space) (address : UInt64) : Space :=
  ((figure? total free (space.word32 address)).map (space.setWord32 (address + 4))).getD space

/-- A rewrite changes the four bytes of a value, where the index has a figure. -/
theorem byte_rewriteEntry (space : Space) (address spot : UInt64) :
    (rewriteEntry total free space address).byte spot =
      if (spot - (address + 4)).toNat < 4 then
        ((figure? total free (space.word32 address)).map fun value =>
          UInt8.ofNat (value.toNat / Space.weight (spot - (address + 4)).toNat)).getD
            (space.byte spot)
      else space.byte spot := by
  rw [rewriteEntry]
  rcases figure? total free (space.word32 address) with _ | value
  · exact (ite_self _).symm
  · rfl

/-- A list with one more entry is rewritten by rewriting that entry last: it is still what it was,
and the entries in front of it are not touched any more. -/
theorem rewrite_succ (address : UInt64) {count : Nat} (hcount : 8 * (count + 1) ≤ UInt64.size) :
    rewrite ⟨address, count + 1⟩ space total free =
      rewriteEntry total free (rewrite ⟨address, count⟩ space total free)
        (address + UInt64.ofNat (8 * count)) := by
  have hsize : UInt64.size = 2 ^ 64 := rfl
  have hindex : (rewrite ⟨address, count⟩ space total free).word32
      (address + UInt64.ofNat (8 * count)) = space.word32 (address + UInt64.ofNat (8 * count)) :=
    congrArg InfoEntry.index (read_rewrite_of_le ⟨address, count⟩ (Nat.le_refl count) hcount)
  refine Space.ext_byte fun spot => ?_
  have hlt := (spot - address).toNat_lt
  have hdata : (spot - (address + UInt64.ofNat (8 * count) + 4)).toNat =
      (2 ^ 64 - (8 * count + 4) + (spot - address).toNat) % 2 ^ 64 := by
    rw [← hsize, ← Space.toNat_sub_add_ofNat address spot (by omega), UInt64.add_assoc,
      UInt64.ofNat_add]
    rfl
  rw [byte_rewriteEntry, hindex, hdata]
  by_cases hfront : (spot - address).toNat < 8 * count
  · -- in an entry in front of the last one
    have hwithin : (spot - address).toNat < 8 * (count + 1) := by omega
    rw [if_neg (by omega)]
    simp only [byte_rewrite, entryAddress, hfront, hwithin]
  have hbehind : (rewrite ⟨address, count⟩ space total free).byte spot = space.byte spot :=
    byte_rewrite_of_outside (Nat.not_lt.1 hfront)
  rw [hbehind, byte_rewrite]
  dsimp only
  by_cases hlast : (spot - address).toNat < 8 * (count + 1) ∧ 4 ≤ (spot - address).toNat % 8
  · -- in the data word of the last one
    have hentry : (spot - address).toNat / 8 = count := by omega
    have hplace : (2 ^ 64 - (8 * count + 4) + (spot - address).toNat) % 2 ^ 64 =
        (spot - address).toNat % 8 - 4 := by omega
    rw [if_pos hlast, if_pos (by omega), hplace, hentry, entryAddress]
  · rw [if_neg hlast, if_neg (by omega)]

/-- **Entries that are rewritten one after the other are rewritten as all at once.** -/
theorem rewrite_eq_foldl (list : InfoList) (hcount : 8 * list.count ≤ UInt64.size) :
    list.rewrite space total free =
      ((List.range list.count).map list.entryAddress).foldl (rewriteEntry total free) space := by
  obtain ⟨address, count⟩ := list
  induction count with
  | zero => exact Space.ext_byte fun spot => byte_rewrite_of_outside (Nat.zero_le _)
  | succ count ih =>
    dsimp only at hcount ih ⊢
    rw [rewrite_succ address hcount, ih (by omega), List.range_succ, List.map_append,
      List.foldl_append]
    rfl

end InfoList

end GpuQuota.Driver
