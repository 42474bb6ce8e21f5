import GpuQuota.Proofs.Accounting.Reports

/-!
# Lists inside the parameters

A list of figures that stands inside the parameters has a length in front of it that anybody may
have written. It counts for no more than the entries that fit whole into the parameters, so a reply
never reaches past their end, whatever the length and whatever size the caller claims.

* `InfoList.inline?_eq`: where such a list stands and how many entries it has.
* `InfoList.Confined`: what a rewrite of such a list may do to the memory.
* `Holding.Answers.inline_confined`: the result.
-/

namespace GpuQuota.Driver.InfoList

/-- Parameters of `size` bytes can hold the length of a list, at an address where it may stand. -/
def Holds (params : UInt64) (size : Nat) : Prop :=
  params ≠ 0 ∧ params.toNat % 4 = 0 ∧ 4 ≤ size

instance (params : UInt64) (size : Nat) : Decidable (Holds params size) :=
  inferInstanceAs (Decidable (params ≠ 0 ∧ params.toNat % 4 = 0 ∧ 4 ≤ size))

/-- The entries behind the length at `params` that it counts and that fit whole into `size` bytes.
-/
def enclosed (space : Space) (params : UInt64) (size : Nat) : InfoList :=
  ⟨params + 4, min (space.word32 params).toNat ((size - 4) / 8)⟩

theorem inline?_eq (space : Space) (params : UInt64) (size : Nat) :
    inline? space params size =
      if Holds params size then some (enclosed space params size) else none := by
  rw [inline?, enclosed]
  simp only [Layout.fits_iff]
  rfl

/-- Parameters in which a list is found hold its length and the rest, which is what bounds it. -/
theorem room_of_inline? {space : Space} {params : UInt64} {size : Nat} {list : InfoList}
    (h : inline? space params size = some list) :
    ∃ room, size = 4 + room ∧ list.count = min (space.word32 params).toNat (room / 8) := by
  rw [inline?_eq] at h
  obtain ⟨⟨-, -, hcovered⟩, hlist⟩ := Option.ite_none_right_eq_some.1 h
  obtain rfl := Option.some.inj hlist
  exact ⟨size - 4, by omega, rfl⟩

section Enclosed

variable (space : Space) (params : UInt64) {size : Nat} (total free : UInt64)

/-- The entries that are enclosed end where the parameters do, or before. -/
theorem enclosed_le (hcovered : 4 ≤ size) : 4 + 8 * (enclosed space params size).count ≤ size := by
  rw [enclosed]
  dsimp only
  omega

/-- No length counts so many entries that they would come round to it. -/
theorem enclosed_lt (size : Nat) :
    4 + 8 * (enclosed space params size).count < UInt64.size := by
  have hwide : UInt64.size = 2 ^ 64 := rfl
  have hlength := (space.word32 params).toNat_lt
  rw [enclosed]
  dsimp only
  omega

/-- No byte behind the parameters changes. -/
theorem byte_rewrite_behind (hcovered : 4 ≤ size) {spot : UInt64}
    (hspot : size ≤ (spot - params).toNat) :
    ((enclosed space params size).rewrite space total free).byte spot = space.byte spot := by
  have hwide : UInt64.size = 2 ^ 64 := rfl
  have hlt := (spot - params).toNat_lt
  have hend := enclosed_le space params hcovered
  have hplace := Space.toNat_sub_add_ofNat params spot (show 4 < UInt64.size by decide)
  rw [hwide] at hplace
  refine byte_rewrite_of_outside ?_
  change _ ≤ (spot - (params + UInt64.ofNat 4)).toNat
  omega

/-- The length in front of the list stays as it is. -/
theorem length_rewrite (size : Nat) :
    ((enclosed space params size).rewrite space total free).word32 params =
      space.word32 params := by
  have hwide : UInt64.size = 2 ^ 64 := rfl
  have hcount := enclosed_lt space params size
  refine Space.word32_congr fun k hk => byte_rewrite_of_outside ?_
  have hplace := Space.toNat_sub_add_ofNat params (params + UInt64.ofNat k)
    (show 4 < UInt64.size by decide)
  rw [Space.toNat_add_ofNat_sub params (by omega), hwide] at hplace
  change _ ≤ (params + UInt64.ofNat k - (params + UInt64.ofNat 4)).toNat
  omega

/-- An entry is shown as a quota has it where it is enclosed, and left alone elsewhere. -/
theorem read_rewrite_enclosed (size : Nat) {i : Nat} (hi : i < UInt32.size) :
    let list := enclosed space params size
    InfoEntry.read (list.rewrite space total free) (list.entryAddress i) =
      if i < list.count then (InfoEntry.read space (list.entryAddress i)).shown total free
      else .read space (list.entryAddress i) := by
  intro list
  have hcount : 4 + 8 * list.count < UInt64.size := enclosed_lt space params size
  have hplace : 8 * (i + 1) ≤ UInt64.size :=
    Nat.le_trans (Nat.mul_le_mul_left 8 hi) (by decide)
  split
  · next hlt => exact read_rewrite (by omega) hlt
  · next hge => exact read_rewrite_of_le list (Nat.not_lt.1 hge) hplace

end Enclosed

/-- What a rewrite of the list inside the parameters may make of the memory `before`. -/
structure Confined (params : UInt64) (size : Nat) (total free : UInt64) (before after : Space) :
    Prop where
  /-- Nothing at or behind the end of the parameters changes. -/
  behind (spot : UInt64) : size ≤ (spot - params).toNat → after.byte spot = before.byte spot
  /-- The number of entries is left as it is. -/
  length : after.word32 params = before.word32 params
  /-- So is the index of every entry. -/
  index (i : Nat) : i < UInt32.size →
    after.word32 ((enclosed before params size).entryAddress i) =
      before.word32 ((enclosed before params size).entryAddress i)
  /-- An entry that is not whole inside the parameters is left alone. -/
  partly (i : Nat) : i < UInt32.size → size < 4 + 8 * (i + 1) →
    InfoEntry.read after ((enclosed before params size).entryAddress i) =
      .read before ((enclosed before params size).entryAddress i)
  /-- The entries that count and fit are shown as a quota has them, and no others. -/
  entries (i : Nat) : Holds params size → i < UInt32.size →
    InfoEntry.read after ((enclosed before params size).entryAddress i) =
      if i < (enclosed before params size).count then
        (InfoEntry.read before ((enclosed before params size).entryAddress i)).shown total free
      else .read before ((enclosed before params size).entryAddress i)
  /-- No byte changes but in the data word of such an entry, if its figure is one that a quota
  gives. -/
  figure (spot : UInt64) : after.byte spot ≠ before.byte spot →
    Holds params size ∧ (enclosed before params size).InFigure before spot
  /-- The entries are rewritten in turn. -/
  turns : Holds params size → after =
    ((List.range (enclosed before params size).count).map
      (enclosed before params size).entryAddress).foldl (rewriteEntry total free) before
  /-- Nothing changes where there can be no length. -/
  refused : ¬ Holds params size → after = before

theorem confined_rewrite (before : Space) {params : UInt64} {size : Nat} (total free : UInt64)
    (h : Holds params size) :
    Confined params size total free before
      ((enclosed before params size).rewrite before total free) where
  behind _ := byte_rewrite_behind before params total free h.2.2
  length := length_rewrite before params total free size
  index i hi := by
    have hentry := congrArg InfoEntry.index (read_rewrite_enclosed before params total free size hi)
    split at hentry
    · exact hentry.trans (InfoEntry.index_shown total free _)
    · exact hentry
  partly i hi hpart := by
    have hend : ¬ i < (enclosed before params size).count := by
      rw [enclosed]
      dsimp only
      omega
    rw [read_rewrite_enclosed before params total free size hi, if_neg hend]
  entries _ _ := read_rewrite_enclosed before params total free size
  figure spot hne := ⟨h, inFigure_of_ne hne⟩
  turns _ := by
    have hcount := enclosed_lt before params size
    exact rewrite_eq_foldl _ (by omega)
  refused hrefused := absurd h hrefused

theorem confined_of_not_holds (before : Space) {params : UInt64} {size : Nat} (total free : UInt64)
    (h : ¬ Holds params size) : Confined params size total free before before where
  behind _ _ := rfl
  length := rfl
  index _ _ := rfl
  partly _ _ _ := rfl
  entries _ hholds := absurd hholds h
  figure _ hne := absurd rfl hne
  turns hholds := absurd hholds h
  refused _ := rfl

end GpuQuota.Driver.InfoList

namespace GpuQuota.Accounting.Holding

open GpuQuota.Driver

variable {held : Holding} {x : Exchange}

theorem Answers.space_outcome_inline (h : held.Answers x)
    (hcommand : x.command.command = infoInline) :
    (held.outcome x).space =
      if InfoList.Holds x.command.params x.command.paramsSize.toNat then
        (InfoList.enclosed x.left x.command.params x.command.paramsSize.toNat).rewrite x.left
          held.budget.total (held.budget.reportedFree x.alive)
      else x.left := by
  have hpointer : infoInline ≠ infoByPointer := by decide
  rw [h.outcome_eq, figures?, hcommand, if_neg hpointer, if_pos rfl, InfoList.inline?_eq]
  split
  · rfl
  · rfl

/-- **An inline list is rewritten inside its parameters only**, whatever their size and the length
in them: nothing behind their end changes, nor the length, nor an index, and of the entries those
that count and fit are shown as a quota has them. Wherever a list is found, its length is part of
the parameters, so the room for entries is what is left of them. -/
theorem Answers.inline_confined (h : held.Answers x) (hcommand : x.command.command = infoInline) :
    InfoList.Confined x.command.params x.command.paramsSize.toNat held.budget.total
      (held.budget.reportedFree x.alive) x.left (held.outcome x).space ∧
    ∀ list, InfoList.inline? x.left x.command.params x.command.paramsSize.toNat = some list →
      ∃ room, x.command.paramsSize.toNat = 4 + room ∧
        list.count = min (x.left.word32 x.command.params).toNat (room / 8) := by
  refine ⟨?_, fun list => InfoList.room_of_inline?⟩
  rw [h.space_outcome_inline hcommand]
  split
  · next hholds => exact InfoList.confined_rewrite x.left _ _ hholds
  · next hrefused => exact InfoList.confined_of_not_holds x.left _ _ hrefused

/-- Room for three entries and most of a fourth, and a length that counts as many as it can. -/
theorem Answers.inline_confined_overlong :
    let block : ControlBlock := ⟨1, 2, infoInline, 0, 0x2000, 35, statusOk⟩
    let asked : List InfoEntry :=
      [⟨heapFreeIndex, 0⟩, ⟨1, 5⟩, ⟨totalRamIndex, 0⟩, ⟨heapSizeIndex, 7⟩]
    let x : Exchange := {
      device := some (deviceMajor, controlMinor)
      raw := (Request.readWrite controlNumber 32).raw
      args := 0x1000
      space := InfoList.write ((block.write .blank 0x1000).setWord32 0x2000 0xffffffff) 0x2004 asked
      driver := fun _ _ space => (0, space)
      alive := fun _ => true }
    let held : Holding := ⟨⟨65536, 61440, 1⟩, ⟨⟨0, 65536⟩, .empty⟩⟩
    (held.Answers x ∧ x.command.command = infoInline) ∧
    InfoList.entries ⟨0x2004, 4⟩ (held.outcome x).space =
      [⟨heapFreeIndex, 60⟩, ⟨1, 5⟩, ⟨totalRamIndex, 64⟩, ⟨heapSizeIndex, 7⟩] := by
  intro block asked x held
  have hanswers : held.Answers x :=
    ⟨⟨rfl, by decide, by decide⟩, by decide, rfl, by decide +kernel, by decide +kernel⟩
  have hcommand : x.command.command = infoInline := by decide +kernel
  have hholds : InfoList.Holds x.command.params x.command.paramsSize.toNat := by decide +kernel
  refine ⟨⟨hanswers, hcommand⟩, ?_⟩
  obtain ⟨hconfined, -⟩ := hanswers.inline_confined hcommand
  have hlist : InfoList.enclosed x.left x.command.params x.command.paramsSize.toNat =
      ⟨0x2004, 3⟩ := by decide +kernel
  have hread : ∀ i ∈ List.range 4,
      InfoEntry.read (held.outcome x).space (InfoList.entryAddress ⟨0x2004, 4⟩ i) =
        if i < 3 then
          (InfoEntry.read x.left (InfoList.entryAddress ⟨0x2004, 4⟩ i)).shown 65536 61440
        else .read x.left (InfoList.entryAddress ⟨0x2004, 4⟩ i) := by
    intro i hi
    have hentry := hconfined.entries i hholds (Nat.lt_trans (List.mem_range.1 hi) (by decide))
    rw [hlist] at hentry
    exact hentry
  rw [InfoList.entries, List.map_congr_left hread]
  decide +kernel

end GpuQuota.Accounting.Holding
