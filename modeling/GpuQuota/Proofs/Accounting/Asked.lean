import GpuQuota.Proofs.Accounting.Alignment
import GpuQuota.Proofs.Accounting.Conservation

/-!
# What was asked for

A ledger keeps the bytes that an allocation is charged, not the size that it was asked for with.
Here the sizes are noted beside the world: `Noted` adds to a world what the call of each thread asks
for, and under which key it was recorded. The notes are never read by a step, so every world can be
noted (`World.Reachable.noted`).

What is reserved for a call is what its allocation is due (`Phase.Asks`), and a ledger shows the
dues of what was noted (`Ledger.Shows`). With the conservation of bytes this bounds what was asked
for (`Noted.Reachable.asked_bounded`): each size is covered by its charge, and all of them by the
ceiling, unless a size outgrows the largest word when it is rounded up. Such a size is charged next
to nothing (`Noted.outgrown_unbounded`).
-/

namespace GpuQuota

/-! ## What an allocation is due

The charge is the size rounded up, where that can be done. Where it cannot, the charge tells nothing
of the size, which is why such sizes are left out of the sum (`sizeInRange`). -/

namespace Driver.AllocationFields

open Accounting

/-- The bytes that are charged for an allocation. -/
def due (alloc : AllocationFields) : UInt64 := alignedSize alloc.size alloc.alignment

/-- The size cannot be rounded up. -/
def Outgrown (alloc : AllocationFields) : Prop := Outgrows alloc.size alloc.alignment

instance (alloc : AllocationFields) : Decidable alloc.Outgrown :=
  inferInstanceAs (Decidable (Outgrows _ _))

/-- The size, where it can be rounded up. -/
def sizeInRange (alloc : AllocationFields) : ℕ := if alloc.Outgrown then 0 else alloc.size.toNat

/-- A size that can be rounded up is no larger than its charge. -/
theorem sizeInRange_le_due (alloc : AllocationFields) : alloc.sizeInRange ≤ alloc.due.toNat := by
  rw [sizeInRange]
  split
  · exact Nat.zero_le _
  · next hrange => exact UInt64.le_iff_toNat_le.1 (le_alignedSize hrange)

end Driver.AllocationFields

namespace Keyed

variable {κ α : Type}

/-- What is larger one by one is larger in all. -/
theorem sumOf_le_sumOf (map : Keyed κ α) {small large : α → ℕ}
    (h : ∀ value, small value ≤ large value) : map.sumOf small ≤ map.sumOf large :=
  List.sum_le_sum fun value _ => h value

theorem sumOf_congr [DecidableEq κ] (map : Keyed κ α) {size other : α → ℕ}
    (h : ∀ key value, map.get? key = some value → size value = other value) :
    map.sumOf size = map.sumOf other := by
  rw [sumOf_eq_finsum, sumOf_eq_finsum]
  refine finsum_congr fun key => ?_
  cases hget : map.get? key with
  | none => rfl
  | some value => exact h key value hget

end Keyed

namespace Accounting

open GpuQuota.Driver GpuQuota.Settings

/-! ## What a thread has under way

The size is known as the call comes in, and the charge when it is settled. In between a phase holds
bytes, and these are what the allocation is due. -/

/-- The fields of the allocation that the caller passed, if it is one. -/
def Visit.asked (visit : Visit) : AllocationFields := (HeapBlock.read visit.space visit.args).alloc

/-- The call for `size` bytes at a multiple of `alignment`, with a block at `address`. -/
def Visit.aligned (address size alignment : UInt64) : Visit :=
  { allocation address size with
    space := (allocation address size).space.setWord64 (address + 96) alignment }

/-- What a settlement makes of the notes of a process, where the call asked for `alloc`. -/
def Settlement.note (alloc : AllocationFields) (asked : Keyed ObjectKey AllocationFields) :
    Settlement → Keyed ObjectKey AllocationFields
  | .charge key _ => asked.insert key alloc
  | .strike key => asked.erase key
  | _ => asked

namespace Phase

/-- What a thread that has come to a phase asks for, where it was `alloc` before. -/
def hear (alloc : AllocationFields) : Phase → AllocationFields
  | .asking visit _ => visit.asked
  | _ => alloc

/-- What leaving a phase makes of the notes of a process. -/
def note (alloc : AllocationFields) (asked : Keyed ObjectKey AllocationFields) :
    Phase → Keyed ObjectKey AllocationFields
  | .settling settlement => settlement.note alloc asked
  | _ => asked

/-- The bytes under way for a call are what `alloc` is due. -/
def Asks (alloc : AllocationFields) : Phase → Prop
  | .asking visit demand => visit.asked = alloc ∧ ∀ bytes, demand = some bytes → bytes = alloc.due
  | .away visit admission =>
      visit.asked = alloc ∧ ∀ bytes, admission = .reserved bytes → bytes = alloc.due
  | .back visit admission _ _ =>
      visit.asked = alloc ∧ ∀ bytes, admission = .reserved bytes → bytes = alloc.due
  | .settling settlement => ∀ key bytes, settlement = .charge key bytes → bytes = alloc.due
  | _ => True

end Phase

/-- A ledger has charged what the noted allocations are due, and nothing else. -/
def Ledger.Shows (ledger : Ledger) (asked : Keyed ObjectKey AllocationFields) : Prop :=
  ∀ key, ledger.records.get? key = (asked.get? key).map AllocationFields.due

namespace Ledger.Shows

variable {ledger : Ledger} {asked : Keyed ObjectKey AllocationFields}

/-- What a ledger has recorded is what all its allocations are due. -/
theorem recorded_eq (h : ledger.Shows asked) :
    ledger.recorded = asked.sumOf fun alloc => alloc.due.toNat := by
  rw [Ledger.recorded, Keyed.sumOf_eq_finsum, Keyed.sumOf_eq_finsum]
  refine finsum_congr fun key => ?_
  rw [h key]
  cases asked.get? key <;> rfl

/-- Booking keeps a ledger and its notes together, as long as what it charges is what is due. -/
theorem book (h : ledger.Shows asked) {settlement : Settlement} {alloc : AllocationFields}
    (hdue : ∀ key bytes, settlement = .charge key bytes → bytes = alloc.due) :
    (ledger.book settlement).2.Shows (settlement.note alloc asked) := by
  intro other
  cases settlement with
  | charge key bytes =>
    rw [ledger.records_book_charge, Function.update_apply, Settlement.note, Keyed.get?_insert]
    split
    · exact congrArg some (hdue key bytes rfl)
    · exact h other
  | strike key =>
    rw [ledger.records_book_strike, Function.update_apply, Settlement.note, Keyed.get?_erase]
    split
    · rfl
    · exact h other
  | newDevice key device =>
    change (Holding.noteDevice? ledger key device).records.get? other = _
    rw [ledger.records_noteDevice?]
    exact h other
  | newChild key parent =>
    change (Holding.noteDevice? ledger key (ledger.deviceOf parent)).records.get? other = _
    rw [ledger.records_noteDevice?]
    exact h other
  | _ => exact h other

end Ledger.Shows

/-- Only bytes that were reserved are charged. -/
theorem Visit.eq_reserved_of_verdict {visit : Visit} {account : Account} {admission : Admission}
    {ret : Int32} {after : Space} {key : ObjectKey} {bytes : UInt64}
    (h : visit.verdict account admission ret after = .charge key bytes) :
    admission = .reserved bytes := by
  rw [verdict] at h
  split at h
  · exact Account.eq_reserved_of_settlement h
  · cases admission <;> cases h

/-! ## One step

What is noted of a thread moves on with its phase, and is written down under the key that the ledger
charges. -/

namespace Move

variable {conduct : Conduct} {held after : Holding} {phase turn : Phase}
variable {alloc : AllocationFields}

/-- What is under way for a thread stays what it asked for. -/
theorem asks (h : Move conduct held phase after turn) (hasks : phase.Asks alloc) :
    turn.Asks (turn.hear alloc) := by
  cases h with
  | handOn => trivial
  | enter =>
    refine ⟨rfl, ?_⟩
    intro bytes hdemand
    obtain ⟨-, -, -, hbytes⟩ := Account.demand_eq_some_iff.1 hdemand
    exact hbytes.symm
  | reject => trivial
  | @grant visit demand admission budget hserve =>
    obtain ⟨hasked, hdemand⟩ := hasks
    refine ⟨hasked, ?_⟩
    rintro bytes rfl
    exact hdemand bytes (Budget.serve_eq_reserved_iff.1 hserve).1
  | answer => exact hasks
  | judge =>
    intro key bytes hverdict
    exact hasks.2 bytes (Visit.eq_reserved_of_verdict hverdict)
  | book => trivial
  | release => trivial

/-- The ledger of a process stays what was noted for it. -/
theorem shows (h : Move conduct held phase after turn) (hasks : phase.Asks alloc)
    {asked : Keyed ObjectKey AllocationFields} (hshows : held.account.ledger.Shows asked) :
    after.account.ledger.Shows (phase.note alloc asked) := by
  cases h with
  | book => exact hshows.book hasks
  | _ => exact hshows

end Move

/-! ## All threads

The notes are beside the world and take no part in it: the step of a noted world is one of the
world, and every step of the world can be noted. -/

/-- A world beside which is noted what was asked for. -/
structure Noted (ι τ : Type) where
  /-- the processes with their threads -/
  world : World ι τ
  /-- what the call of each thread asks for -/
  asking : τ → AllocationFields
  /-- what was asked for under each key that a process has recorded -/
  asked : ι → Keyed ObjectKey AllocationFields

namespace Noted

variable {ι τ : Type} [DecidableEq ι] [DecidableEq τ]

/-- One thread has moved, and the notes follow it. -/
def put (now : Noted ι τ) (i : ι) (t : τ) (held : Holding) (phase : Phase) : Noted ι τ where
  world := now.world.put i t held phase
  asking := Function.update now.asking t (phase.hear (now.asking t))
  asked := Function.update now.asked i ((now.world.phase t).note (now.asking t) (now.asked i))

section Put

variable (now : Noted ι τ) (i : ι) (t : τ) (held : Holding) (phase : Phase)

@[simp] theorem world_put : (now.put i t held phase).world = now.world.put i t held phase := rfl

@[simp] theorem asking_put : (now.put i t held phase).asking t = phase.hear (now.asking t) :=
  Function.update_self _ _ _

@[simp] theorem asked_put :
    (now.put i t held phase).asked i = (now.world.phase t).note (now.asking t) (now.asked i) :=
  Function.update_self _ _ _

variable {i t}

theorem asking_put_of_ne {other : τ} (h : other ≠ t) :
    (now.put i t held phase).asking other = now.asking other :=
  Function.update_of_ne h _ _

theorem asked_put_of_ne {other : ι} (h : other ≠ i) :
    (now.put i t held phase).asked other = now.asked other :=
  Function.update_of_ne h _ _

end Put

/-- One thread moves. -/
inductive Step (home : τ → ι) (conduct : Conduct) : Noted ι τ → Noted ι τ → Prop where
  | move {now : Noted ι τ} (t : τ) {held : Holding} {phase : Phase} :
      Move conduct (now.world.holding (home t)) (now.world.phase t) held phase →
      Step home conduct now (now.put (home t) t held phase)

/-- What can come about on a budget of `total` bytes. -/
inductive Reachable (home : τ → ι) (conduct : Conduct) (total : UInt64) : Noted ι τ → Prop where
  | fresh (owner : Int32) (quota : ι → MemoryQuota) (asking : τ → AllocationFields) :
      Reachable home conduct total ⟨.fresh total owner quota, asking, fun _ => .empty⟩
  | step {now next : Noted ι τ} : Reachable home conduct total now →
      Step home conduct now next → Reachable home conduct total next

variable {home : τ → ι} {conduct : Conduct} {total : UInt64} {now next : Noted ι τ}

/-- The notes say nothing about what can happen. -/
theorem Reachable.world (h : Reachable home conduct total now) :
    now.world.Reachable home conduct total := by
  induction h with
  | fresh owner quota => exact .fresh owner quota
  | step _ hstep ih =>
    obtain ⟨t, hmove⟩ := hstep
    exact ih.step (.move t hmove)

/-- What is under way is due, and every ledger shows what was noted. -/
structure Faithful (now : Noted ι τ) : Prop where
  /-- A thread has reserved what its call asks for. -/
  asks : ∀ t, (now.world.phase t).Asks (now.asking t)
  /-- A record holds the rounded size that was asked for under its key. -/
  shows : ∀ i, (now.world.account i).ledger.Shows (now.asked i)

/-- **Every step keeps the notes faithful.** -/
theorem Faithful.step (h : Faithful now) (hstep : Step home conduct now next) : Faithful next := by
  obtain ⟨t, hmove⟩ := hstep
  rename_i held phase
  constructor
  · intro other
    by_cases ht : other = t
    · subst ht
      rw [world_put, World.phase_put, asking_put]
      exact hmove.asks (h.asks other)
    · rw [world_put, World.phase_put_of_ne _ _ ht, asking_put_of_ne _ _ _ ht]
      exact h.asks other
  · intro i
    by_cases hi : i = home t
    · subst hi
      rw [world_put, World.account_put, asked_put]
      exact hmove.shows (h.asks t) (h.shows _)
    · rw [world_put, World.account_put_of_ne _ hi, asked_put_of_ne _ _ _ hi]
      exact h.shows i

/-- The notes are faithful in whatever comes about. -/
theorem Reachable.faithful (h : Reachable home conduct total now) : Faithful now := by
  induction h with
  | fresh owner quota asking => exact ⟨fun _ => trivial, fun _ _ => rfl⟩
  | step _ hstep ih => exact ih.step hstep

/-- What is reserved covers the size that was asked for exactly if the size can be rounded up. -/
theorem Reachable.size_le_reserved_iff (h : Reachable home conduct total now) {t : τ}
    {visit : Visit} {bytes : UInt64} (haway : now.world.phase t = .away visit (.reserved bytes)) :
    visit.asked.size ≤ bytes ↔ ¬ visit.asked.Outgrown := by
  have hasks := h.faithful.asks t
  rw [haway] at hasks
  obtain ⟨hasked, hdue⟩ := hasks
  rw [hdue bytes rfl, ← hasked]
  exact le_alignedSize_iff

/-- The sizes that can be rounded up fit below the ceiling together. -/
theorem Reachable.sizesInRange_le [Fintype ι] [Fintype τ] (h : Reachable home conduct total now) :
    ∑ i, (now.asked i).sumOf AllocationFields.sizeInRange ≤ total.toNat := by
  have hworth := h.world.solvent.worth_le
  have hrecorded : ∑ i, (now.asked i).sumOf AllocationFields.sizeInRange ≤
      ∑ i, (now.world.account i).ledger.recorded := by
    refine Finset.sum_le_sum fun i _ => ?_
    rw [(h.faithful.shows i).recorded_eq]
    exact (now.asked i).sumOf_le_sumOf AllocationFields.sizeInRange_le_due
  rw [World.worth] at hworth
  omega

/-- Every world can be noted. -/
theorem exists_of_world {world : World ι τ} (h : world.Reachable home conduct total) :
    ∃ now : Noted ι τ, Reachable home conduct total now ∧ now.world = world := by
  induction h with
  | fresh owner quota => exact ⟨_, .fresh owner quota fun _ => default, rfl⟩
  | step _ hstep ih =>
    obtain ⟨t, hmove⟩ := hstep
    obtain ⟨now, hnow, rfl⟩ := ih
    exact ⟨_, hnow.step (.move t hmove), rfl⟩

/-! ## An allocation comes about

That sizes outgrow every bound is shown on a run in which one is granted, so here the steps of a
call for any size and alignment are put together. -/

/-- The thread that moved last moves on. -/
theorem Reachable.move_on {t : τ} {held after : Holding} {phase turn : Phase}
    (h : Reachable home conduct total (now.put (home t) t held phase))
    (hmove : Move conduct held phase after turn) :
    Reachable home conduct total
      ((now.put (home t) t held phase).put (home t) t after turn) :=
  h.step (.move t (by rwa [world_put, World.holding_put, World.phase_put]))

/-- What is asked for, demanded and granted is recorded if the driver answers well and leaves the
block as it was. -/
theorem Reachable.allocate (h : Reachable home conduct total now) {t : τ}
    (hidle : now.world.phase t = .idle) (device : Option DeviceNumber) (raw args : UInt64)
    (space : Space) (hminor : relevantMinor? (.decode raw) device = some controlMinor)
    {bytes : UInt64} (hdemand : (now.world.account (home t)).demand controlMinor (.decode raw) args
      space = some bytes) (hfits : bytes ≤ now.world.budget.free)
    (hstatus : (HeapBlock.read space args).status = statusOk)
    (hconduct : conduct ⟨controlMinor, .decode raw, args, space⟩ 0 space) :
    ∃ next, Reachable home conduct total next ∧
      next.asked (home t) = (now.asked (home t)).insert
        ⟨(HeapBlock.read space args).root, (HeapBlock.read space args).alloc.memory⟩
        (HeapBlock.read space args).alloc := by
  let visit : Visit := ⟨controlMinor, .decode raw, args, space⟩
  let held := now.world.holding (home t)
  let granted : Holding := { held with budget.free := held.budget.free - bytes }
  obtain ⟨hheap, hfunction, -, -⟩ := Account.demand_eq_some_iff.1 hdemand
  have henter : Move conduct held .idle held (.asking visit (some bytes)) := by
    rw [← hdemand]
    exact .enter device raw args space hminor
  have hgrant : Move conduct held (.asking visit (some bytes)) granted
      (.away visit (.reserved bytes)) :=
    .grant (Budget.serve_eq_reserved_iff.2 ⟨rfl, hfits, rfl⟩) (by simp)
  have hjudge : Move conduct granted (.back visit (.reserved bytes) 0 space) granted
      (.settling (.charge ⟨(HeapBlock.read space args).root,
        (HeapBlock.read space args).alloc.memory⟩ bytes)) := by
    have hverdict : visit.verdict granted.account (.reserved bytes) 0 space = _ :=
      Account.settlement_charge hheap hfunction hstatus
    rw [← hverdict]
    exact .judge
  have hentered : Reachable home conduct total (now.put (home t) t held _) :=
    h.step (.move t (by rw [hidle]; exact henter))
  refine ⟨_, (((hentered.move_on hgrant).move_on (.answer 0 space hconduct)).move_on
    hjudge).move_on .book, ?_⟩
  -- only the booking writes a note, and what it notes was heard when the call came in
  simp only [asked_put, asking_put, world_put, World.phase_put, hidle, Phase.note, Phase.hear,
    Settlement.note, Visit.asked, visit]

/-! ## The bound -/

/-- **The ceiling bounds what was asked for**, as far as it can be rounded up: what is reserved for
a call covers its size exactly if the size does not outgrow the largest word, and the recorded sizes
that do not are below the ceiling together. A ledger shows what each recorded allocation is due. -/
theorem Reachable.asked_bounded [Fintype ι] [Fintype τ] (h : Reachable home conduct total now) :
    (∀ t visit bytes, now.world.phase t = .away visit (.reserved bytes) →
      (visit.asked.size ≤ bytes ↔ ¬ visit.asked.Outgrown)) ∧
    (∀ i key, (now.world.account i).ledger.records.get? key =
      ((now.asked i).get? key).map AllocationFields.due) ∧
    ∑ i, (now.asked i).sumOf AllocationFields.sizeInRange ≤ total.toNat ∧
    ((∀ i key alloc, (now.asked i).get? key = some alloc → ¬ alloc.Outgrown) →
      ∑ i, (now.asked i).sumOf (fun alloc => alloc.size.toNat) ≤ total.toNat) := by
  refine ⟨fun t visit bytes haway => h.size_le_reserved_iff haway, h.faithful.shows,
    h.sizesInRange_le, ?_⟩
  intro hrange
  have hsizes : ∀ i, (now.asked i).sumOf AllocationFields.sizeInRange =
      (now.asked i).sumOf fun alloc => alloc.size.toNat := fun i =>
    (now.asked i).sumOf_congr fun key alloc hget => if_neg (hrange i key alloc hget)
  rw [← Finset.sum_congr rfl fun i _ => hsizes i]
  exact h.sizesInRange_le

/-- The allocation of 5000 bytes at a multiple of 4096. -/
theorem asked_bounded_allocated :
    ∃ now : Noted (Fin 1) (Fin 1), Reachable id Visit.KeepsFunction 65536 now ∧
      ((now.asked 0).get? ⟨0, 0⟩).map AllocationFields.size = some 5000 ∧
      ∑ i, (now.asked i).sumOf AllocationFields.sizeInRange ≤ 65536 := by
  let visit := Visit.aligned 8 5000 4096
  have hdemand : (⟨⟨0, 65536⟩, .empty⟩ : Account).demand controlMinor (.decode visit.request.raw)
      visit.args visit.space = some 8192 := by decide
  have hfresh : Reachable id Visit.KeepsFunction 65536 (_ : Noted (Fin 1) (Fin 1)) :=
    .fresh 1 (fun _ => ⟨0, 65536⟩) fun _ => default
  obtain ⟨now, hnow, hasked⟩ := hfresh.allocate (t := 0) rfl (some (deviceMajor, controlMinor))
    visit.request.raw visit.args visit.space (by decide) hdemand (by decide) (by decide)
    fun _ => rfl
  have hnoted : now.asked 0 = _ := hasked
  refine ⟨now, hnow, ?_, hnow.asked_bounded.2.2.1⟩
  rw [hnoted]
  decide

/-- Half of all words at a multiple of the largest word: what is left of it when it is rounded up is
one byte, so it is recorded below a ceiling of 65536. -/
theorem outgrown_unbounded :
    let visit := Visit.aligned 8 9223372036854775808 18446744073709551615
    let held : Holding := ⟨.full 65536 1, ⟨⟨0, 65536⟩, .empty⟩⟩
    (held.account.admission held.budget controlMinor visit.request visit.args visit.space).1 =
        .reserved 1 ∧
      visit.asked.size = 9223372036854775808 ∧
      ∃ now : Noted (Fin 1) (Fin 1), Reachable id Visit.KeepsFunction 65536 now ∧
        ¬ ∑ i, (now.asked i).sumOf (fun alloc => alloc.size.toNat) ≤ 65536 := by
  intro visit held
  refine ⟨by decide, by decide, ?_⟩
  have hdemand : (⟨⟨0, 65536⟩, .empty⟩ : Account).demand controlMinor (.decode visit.request.raw)
      visit.args visit.space = some 1 := by decide
  have hfresh : Reachable id Visit.KeepsFunction 65536 (_ : Noted (Fin 1) (Fin 1)) :=
    .fresh 1 (fun _ => ⟨0, 65536⟩) fun _ => default
  obtain ⟨now, hnow, hasked⟩ := hfresh.allocate (t := 0) rfl (some (deviceMajor, controlMinor))
    visit.request.raw visit.args visit.space (by decide) hdemand (by decide) (by decide)
    fun _ => rfl
  have hnoted : now.asked 0 = _ := hasked
  refine ⟨now, hnow, ?_⟩
  intro hle
  have hone := le_sum (fun asked : Keyed ObjectKey AllocationFields =>
    asked.sumOf fun alloc => alloc.size.toNat) now.asked 0
  refine absurd (Nat.le_trans hone hle) ?_
  rw [hnoted]
  decide

end Noted

end Accounting

end GpuQuota
