import GpuQuota.Proofs.Pacing.Regulating
import GpuQuota.Proofs.Pacing.Storage
import Mathlib.Algebra.BigOperators.Group.List.Basic
import Mathlib.Algebra.Order.BigOperators.Group.List
import Mathlib.Algebra.Order.Group.Nat

/-!
# The averages in a region

A refill records the rolling average of the launches in its last cycles, in two slots of the region
by turns, and a monitor reads the last two of them.

* `busyAverage` is the average of some cycles and `rolling` that of the last ones, in natural
  numbers; `LaunchWindow.toNat_average` is what a window makes of its counts;
* `LaunchRing` keeps the counts in place, in a ring of ten slots. `LaunchRing.average_ofCounts`: as
  long as its counter does not wrap, it gives the rolling average as well;
* `Controller.averaging_feed`, `Monitor.averaging_takeOver?` and `Limiter.averaging_enter?`: nobody
  else touches the averages;
* `Recording` is what one refill records while others do whatever else they do, and
  `Recording.averages_rolling` the result.
-/

namespace GpuQuota.Pacing

/-- The average launches of some cycles. Idle ones are left out, one cycle more than the busy ones
is divided by, and the average is at least one. -/
def busyAverage (counts : List ℕ) : ℕ := max 1 (counts.sum / (1 + counts.countP (· != 0)))

/-- The rolling average after counts, the newest first. There is none before the first count. -/
def rolling (counts : List UInt32) : ℕ :=
  if counts = [] then 0 else busyAverage ((counts.take LaunchWindow.length).map UInt32.toNat)

/-! ## The average of some cycles

Which cycles were idle matters to the average and in which order they were does not. -/

/-- The average does not depend on the order. -/
theorem busyAverage_perm {counts others : List ℕ} (h : counts.Perm others) :
    busyAverage counts = busyAverage others := by
  rw [busyAverage, busyAverage, h.sum_eq, h.countP_eq]

/-- Cycles that were idle or have not come yet make no difference. -/
theorem busyAverage_append_replicate (counts : List ℕ) (idle : ℕ) :
    busyAverage (counts ++ List.replicate idle 0) = busyAverage counts := by
  have hbusy : (List.replicate idle 0).countP (· != 0) = 0 :=
    List.countP_eq_zero.2 fun n hn => by simp [List.eq_of_mem_replicate hn]
  rw [busyAverage, busyAverage, List.sum_append, List.sum_replicate, List.countP_append, hbusy,
    nsmul_zero, Nat.add_zero, Nat.add_zero]

/-- An average is within what bounds the counts. -/
theorem busyAverage_lt {counts : List ℕ} {bound : ℕ} (hbound : 1 < bound)
    (h : ∀ n ∈ counts, n < bound) : busyAverage counts < bound := by
  have hsum : counts.sum ≤ counts.countP (· != 0) * bound := by
    rw [← List.sum_filter_bne_zero counts, List.countP_eq_length_filter]
    exact List.sum_le_card_nsmul _ bound fun n hn => Nat.le_of_lt (h n (List.mem_filter.1 hn).1)
  refine Nat.max_lt.2 ⟨hbound, Nat.div_lt_of_lt_mul ?_⟩
  rw [Nat.add_mul]
  omega

namespace LaunchWindow

/-- The busy cycles are those whose number is not zero. -/
theorem map_busy (counts : List UInt32) :
    (counts.filter (0 < ·)).map UInt32.toNat = (counts.map UInt32.toNat).filter (· != 0) := by
  rw [List.filter_map]
  refine congrArg _ (List.filter_congr fun launches _ => ?_)
  rw [Bool.eq_iff_iff, decide_eq_true_iff, UInt32.lt_iff_toNat_lt, Function.comp, bne_iff_ne]
  exact Nat.pos_iff_ne_zero

/-- A window gives the average of its counts, which always fits the word. -/
theorem toNat_average (window : LaunchWindow) :
    window.average.toNat = busyAverage (window.recent.map UInt32.toNat) := by
  have htotal :
      (window.recent.filter (0 < ·)).foldl (fun total launches => total + launches.toNat) 0 =
        (window.recent.map UInt32.toNat).sum := by
    rw [← List.foldl_map (f := UInt32.toNat) (g := (· + ·)), map_busy, ← List.sum_eq_foldl,
      List.sum_filter_bne_zero]
  have hbusy : (window.recent.filter (0 < ·)).length =
      (window.recent.map UInt32.toNat).countP (· != 0) := by
    rw [List.countP_eq_length_filter, ← map_busy, List.length_map]
  have hfits : busyAverage (window.recent.map UInt32.toNat) < 2 ^ 32 := by
    refine busyAverage_lt (by decide) fun n hn => ?_
    obtain ⟨launches, -, rfl⟩ := List.mem_map.1 hn
    exact launches.toNat_lt
  rw [busyAverage] at hfits ⊢
  dsimp only [average]
  rw [htotal, hbusy, Nat.add_comm _ 1, toNat_max_one,
    UInt32.toNat_ofNat_of_lt' (Nat.max_lt.1 hfits).2, Nat.max_comm]

/-- A window needs no more than the counts that it holds. -/
theorem record_take (counts : List UInt32) (launches : UInt32) :
    record ⟨counts.take length⟩ launches = ⟨(launches :: counts).take length⟩ := by
  rw [record, length, List.take_succ_cons, List.take_succ_cons, List.take_take]
  rfl

/-- The average that comes with a count is the rolling average. -/
theorem toNat_average_record (counts : List UInt32) (launches : UInt32) :
    (record ⟨counts.take length⟩ launches).average.toNat = rolling (launches :: counts) := by
  rw [toNat_average, record_take, rolling, if_neg (List.cons_ne_nil _ _)]

end LaunchWindow

/-! ## The ring

The counts need not be moved: the newest one may go to the slot of the one that leaves the window.
-/

/-- Ten slots and a counter of the cycles. The counter goes up first, so the first count goes to
slot one. -/
structure LaunchRing where
  /-- the last counts, each in the slot of its cycle -/
  slots : Vector UInt32 10
  cycle : UInt64

namespace LaunchRing

/-- What the slot of a cycle holds. -/
def slot (ring : LaunchRing) (cycle : ℕ) : UInt32 := ring.slots[cycle % 10]

/-- Takes in the launches of one cycle. -/
def record (ring : LaunchRing) (launches : UInt32) : LaunchRing :=
  let cycle := ring.cycle + 1
  ⟨ring.slots.set (cycle.toNat % 10) launches, cycle⟩

/-- The average over all slots, whatever their order. -/
def average (ring : LaunchRing) : UInt32 := LaunchWindow.average ⟨ring.slots.toList⟩

/-- The ring after counts, the newest first. -/
def ofCounts : List UInt32 → LaunchRing
  | [] => ⟨.replicate 10 0, 0⟩
  | launches :: earlier => (ofCounts earlier).record launches

/-- A count goes to the slot of its cycle, and all other slots stay. -/
theorem slot_record (ring : LaunchRing) (launches : UInt32) (cycle : ℕ) :
    (ring.record launches).slot cycle =
      if (ring.cycle + 1).toNat % 10 = cycle % 10 then launches else ring.slot cycle := by
  simp only [slot, record, Vector.getElem_set]

/-- The counter of a ring tells how many counts there were. -/
theorem cycle_ofCounts {counts : List UInt32} (h : counts.length < 2 ^ 64) :
    (ofCounts counts).cycle.toNat = counts.length := by
  induction counts with
  | nil => rfl
  | cons launches earlier ih =>
    rw [List.length_cons] at h
    rw [ofCounts, record, UInt64.toNat_add, ih (by omega), List.length_cons, UInt64.toNat_one]
    omega

/-- Backwards from the last cycle the slots hold the last counts, or zero where none has been taken
in. -/
theorem slot_ofCounts {counts : List UInt32} (h : counts.length < 2 ^ 64) {age : ℕ}
    (hage : age < 10) : (ofCounts counts).slot (counts.length + 10 - age) = counts.getD age 0 := by
  induction counts generalizing age with
  | nil => exact Vector.getElem_replicate _
  | cons launches earlier ih =>
    have hcycle : ((ofCounts earlier).cycle + 1).toNat = earlier.length + 1 := cycle_ofCounts h
    rw [List.length_cons] at h
    rw [ofCounts, slot_record, hcycle, List.length_cons]
    -- the newest count has just been written, and the slots of the nine before it are others
    cases age with
    | zero => exact if_pos (by omega)
    | succ age =>
      rw [if_neg (by omega), List.getD_cons_succ, ← ih (by omega) (by omega)]
      congr 1
      omega

/-- The slots, one after the other. -/
theorem toList_slots (ring : LaunchRing) : ring.slots.toList = (List.range 10).map ring.slot := by
  refine List.ext_getElem (by simp) fun i hi _ => ?_
  have hten : i < 10 := by simpa using hi
  simp [slot, Nat.mod_eq_of_lt hten]

/-- Backwards from any cycle one comes by every slot once. -/
theorem perm_backwards (cycle : ℕ) :
    ((List.range 10).map fun age => (cycle + 10 - age) % 10).Perm (List.range 10) := by
  have hten : ∀ last < 10, ((List.range 10).map fun age => (last + 10 - age) % 10).Perm
      (List.range 10) := by decide
  have hlast := hten (cycle % 10) (Nat.mod_lt cycle (by decide))
  rwa [List.map_congr_left fun age hage => ?_]
  have hage := List.mem_range.1 hage
  omega

theorem slot_mod (ring : LaunchRing) (cycle : ℕ) : ring.slot (cycle % 10) = ring.slot cycle := by
  simp only [slot, Nat.mod_mod]

/-- The slots of a ring hold the last counts, in another order and beside slots not taken in yet. -/
theorem perm_slots_ofCounts {counts : List UInt32} (h : counts.length < 2 ^ 64) :
    (ofCounts counts).slots.toList.Perm
      (counts.take 10 ++ List.replicate (10 - counts.length) 0) := by
  have hcounts : ((List.range 10).map fun age =>
      (ofCounts counts).slot ((counts.length + 10 - age) % 10)) =
      counts.take 10 ++ List.replicate (10 - counts.length) 0 := by
    refine List.ext_getElem (by simp; omega) fun age hage _ => ?_
    have hten : age < 10 := by simpa using hage
    rw [List.getElem_map, List.getElem_range, slot_mod, slot_ofCounts h hten]
    grind
  have hperm := (perm_backwards counts.length).map (ofCounts counts).slot
  rw [List.map_map] at hperm
  rw [toList_slots, ← hcounts]
  exact hperm.symm

/-- **A ring gives the rolling average**, as long as its counter does not wrap. -/
theorem average_ofCounts {counts : List UInt32} (h : counts.length < 2 ^ 64) (hne : counts ≠ []) :
    (ofCounts counts).average.toNat = rolling counts := by
  rw [average, LaunchWindow.toNat_average,
    busyAverage_perm ((perm_slots_ofCounts h).map UInt32.toNat), List.map_append,
    List.map_replicate, UInt32.toNat_zero, busyAverage_append_replicate, rolling, if_neg hne]
  rfl

end LaunchRing

/-! ## Between two cycles

Nobody but a refill in its cycle touches the averages in a region that is ready. -/

namespace TokenRegion

/-- What the averages of a region are read from. -/
def averaging (region : TokenRegion) : Int32 × Int32 × UInt32 :=
  (region.evenSlot, region.oddSlot, region.recorded)

theorem averages_congr {region other : TokenRegion} (h : other.averaging = region.averaging) :
    other.averages = region.averages := by
  simp only [averaging, Prod.mk.injEq] at h
  obtain ⟨heven, hodd, hrecorded⟩ := h
  rw [averages, averages, heven, hodd, hrecorded]

theorem averaging_retarget (region : TokenRegion) (limit : UInt32) :
    (region.retarget limit).2.averaging = region.averaging := by
  rw [retarget]
  split
  · rfl
  · rfl

theorem averaging_consume (region : TokenRegion) (seen : UInt64) :
    (region.consume seen).2.averaging = region.averaging := by
  rw [consume]
  split
  · rfl
  · rfl

end TokenRegion

/-- A sample leaves the averages alone. -/
theorem Controller.averaging_feed (controller : Controller) (region : TokenRegion)
    (util limit : UInt32) : (controller.feed region util limit).2.averaging = region.averaging := by
  cases hpending : region.isPending with
  | true => rw [feed_of_isPending hpending]
  | false =>
    rw [controller.feed_eq hpending]
    split
    · rfl
    · rfl

/-- A monitor that takes over a region which is ready leaves the averages alone. -/
theorem Monitor.averaging_takeOver? {region after : TokenRegion}
    {config : Settings.ThrottleConfig} {quota : Settings.ComputeQuota} (hready : region.isReady)
    (h : takeOver? region config quota = some (.ok after)) :
    after.averaging = region.averaging := by
  rw [takeOver?_ready hready] at h
  cases h
  exact region.averaging_retarget quota.percent

/-- So does a process that enters one. -/
theorem Limiter.averaging_enter? {region after : TokenRegion} {limiter : Limiter}
    {config : Settings.ThrottleConfig} {quota : Settings.ComputeQuota} (hready : region.isReady)
    (h : enter? region config quota = some (.ok (limiter, after))) :
    after.averaging = region.averaging := by
  rw [enter?_ready hready] at h
  cases h
  rfl

/-- A refill that consumes keeps its window. -/
theorem Refill.averaging_refresh (refill : Refill) (region : TokenRegion) :
    (refill.refresh region).2.2.averaging = region.averaging ∧
      (refill.refresh region).2.1.window = refill.window := by
  have hconsume := region.averaging_consume refill.seen
  rw [refresh]
  split
  · next hnew => rw [hnew] at hconsume; exact ⟨hconsume, rfl⟩
  · next hold => rw [hold] at hconsume; exact ⟨hconsume, rfl⟩

/-! ## What one refill records

The refill records the average of its window after each cycle. The counts are all that is known of
it, and the region keeps the last two averages as long as only it records. -/

/-- One refill has recorded these counts, the newest first, in a region that somebody has set up.
Others may have done to the region whatever leaves the averages alone. -/
inductive Recording : List UInt32 → Refill → TokenRegion → Prop where
  /-- A refill starts on a region that has just been set up. -/
  | start {fresh : TokenRegion} (limit : UInt32) (intervalNs : ℕ) (limiter : Limiter) :
      fresh.readiness = .fresh →
      Recording [] (Refill.start limiter (fresh.setUp limit intervalNs).2).1
        (Refill.start limiter (fresh.setUp limit intervalNs).2).2
  /-- It consumes a publication, or finds none. -/
  | refresh {counts : List UInt32} {refill : Refill} {region : TokenRegion} :
      Recording counts refill region →
      Recording counts (refill.refresh region).2.1 (refill.refresh region).2.2
  /-- So much has been launched since the last cycle. -/
  | cycle {counts : List UInt32} {refill : Refill} {region : TokenRegion} (limiter : Limiter) :
      Recording counts refill region →
      Recording (limiter.launches :: counts) (refill.cycle limiter region).1
        (refill.cycle limiter region).2.2
  /-- Somebody else changes the region, but not the averages. -/
  | others {counts : List UInt32} {refill : Refill} {region other : TokenRegion} :
      Recording counts refill region → other.averaging = region.averaging →
      Recording counts refill other

namespace Recording

variable {counts : List UInt32} {refill : Refill} {region : TokenRegion}

/-- The window holds the last counts. -/
theorem window_eq (h : Recording counts refill region) :
    refill.window = ⟨counts.take LaunchWindow.length⟩ := by
  induction h with
  | start limit intervalNs limiter _ => exact (Refill.averaging_refresh _ _).2
  | refresh _ ih => exact (Refill.averaging_refresh _ _).2.trans ih
  | cycle limiter _ ih => rw [Refill.cycle, ih, LaunchWindow.record_take]
  | others _ _ ih => exact ih

/-- The two slots hold the last average and the one before. -/
theorem toNat_averages (h : Recording counts refill region)
    (hcounts : ∀ launches ∈ counts, launches.toNat < 2 ^ 31) :
    region.averages.1.toNat = rolling counts ∧ region.averages.2.toNat = rolling counts.tail := by
  -- only a cycle touches the slots, and then the newest average is the next previous one
  induction h with
  | start limit intervalNs limiter hfresh =>
    have haverages := (TokenRegion.setUp_fresh hfresh limit intervalNs).2.2
    rw [Refill.start, TokenRegion.averages_congr (Refill.averaging_refresh _ _).1, haverages]
    exact ⟨rfl, rfl⟩
  | refresh _ ih =>
    rw [TokenRegion.averages_congr (Refill.averaging_refresh _ _).1]
    exact ih hcounts
  | @cycle counts refill region limiter hrecording ih =>
    have holder := (ih fun launches h => hcounts launches (List.mem_cons_of_mem _ h)).1
    have hnewest := LaunchWindow.toNat_average_record counts limiter.launches
    have hfits : rolling (limiter.launches :: counts) < 2 ^ 31 := by
      rw [rolling, if_neg (List.cons_ne_nil _ _)]
      refine busyAverage_lt (by decide) fun n hn => ?_
      obtain ⟨launches, hlaunches, rfl⟩ := List.mem_map.1 hn
      exact hcounts launches (List.mem_of_mem_take hlaunches)
    rw [← hnewest] at hfits
    rw [Refill.cycle, hrecording.window_eq]
    refine ⟨?_, ?_⟩
    · rw [TokenRegion.toNat_newest_recordAverage, (stored_eq_iff _).2 hfits, hnewest]
    · rw [TokenRegion.averages_recordAverage]
      exact holder
  | others _ hsame ih =>
    rw [TokenRegion.averages_congr hsame]
    exact ih hcounts

/-- **The averages are those of a sliding window.** After any cycles of one refill in a region that
was fresh, the averages there are the rolling average of all counts and that of all but the newest.
The newest is what a ring of ten slots gives. -/
theorem averages_rolling (h : Recording counts refill region)
    (hcounts : ∀ launches ∈ counts, launches.toNat < 2 ^ 31) :
    region.averages.1.toNat = rolling counts ∧ region.averages.2.toNat = rolling counts.tail ∧
    (counts ≠ [] → counts.length < 2 ^ 64 →
      (LaunchRing.ofCounts counts).average = region.averages.1) := by
  obtain ⟨hnewest, hprevious⟩ := h.toNat_averages hcounts
  refine ⟨hnewest, hprevious, fun hne hlength => UInt32.toNat_inj.1 ?_⟩
  rw [LaunchRing.average_ofCounts hlength hne, hnewest]

/-- Any counts may come. -/
theorem exists_of_counts (counts : List UInt32) :
    ∃ refill region, Recording counts refill region := by
  induction counts with
  | nil =>
    have hfresh : ({} : TokenRegion).readiness = .fresh := rfl
    exact ⟨_, _, start 10 100000000 ⟨⟨0, 10⟩, ⟨10⟩, 0, 100000000⟩ hfresh⟩
  | cons launches earlier ih =>
    obtain ⟨refill, region, hrecording⟩ := ih
    exact ⟨_, _, hrecording.cycle ⟨⟨0, 10⟩, ⟨10⟩, launches, 100000000⟩⟩

/-- A thousand launches have just left the window. -/
theorem averages_rolling_of_burst :
    ∃ refill region, Recording [30, 0, 9, 9, 9, 9, 9, 9, 9, 9, 1000, 5] refill region ∧
      region.averages.1.toNat = 10 ∧ region.averages.2.toNat = 107 := by
  obtain ⟨refill, region, hrecording⟩ := exists_of_counts [30, 0, 9, 9, 9, 9, 9, 9, 9, 9, 1000, 5]
  obtain ⟨hnewest, hprevious, -⟩ := hrecording.averages_rolling (by simp)
  exact ⟨refill, region, hrecording, hnewest.trans (by decide), hprevious.trans (by decide)⟩

end Recording

end GpuQuota.Pacing
