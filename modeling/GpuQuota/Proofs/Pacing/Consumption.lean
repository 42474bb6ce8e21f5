import GpuQuota.Proofs.Pacing.Handoff
import Mathlib.Algebra.Ring.Nat
import Mathlib.Order.Bounds.Basic

/-!
# Every publication is accounted for

A consumer that looks late finds a version which is several publications ahead of the one it has
seen. It takes the last publication and counts those in between as skipped. Both the version and the
count are loaded and computed while others go on publishing and consuming.

* `Reading.Move` is one access of one consumer, with the update that it takes by it; a consumer that
  nobody interrupts does what `TokenRegion.consume` and `Refill.apply` do (`Reading.Moves.consume`);
* `Handoff.Counted` says where the version, the acknowledged version and the consumers stand after
  so many publications, even once versions repeat;
* `Followed` keeps with each consumer the updates that it has taken. Each of them starts where the
  one before ends (`TokenUpdate.Consecutive`), so nothing is counted twice and nothing is left out
  (`Followed.Reachable.accounted`).
-/

namespace GpuQuota.Pacing

open GpuQuota.Number

/-! ## One consumer

A consumer loads the version, then the rate, then the time between refills, and acknowledges last.
Only the last access changes the region, and by it the consumer takes its update. -/

/-- An update tells how many publications lie between the version seen last and its own. -/
theorem TokenUpdate.toNat_skipped_since (seen version : UInt64) (rate : UInt32)
    (intervalNs : UInt64) : (since seen version rate intervalNs).skipped.toNat =
      version.toNat - seen.toNat - 1 := by
  rw [since, toNat_saturatingSub, toNat_saturatingSub]
  rfl

namespace Reading

/-- The version that a consumer has loaded and not yet acknowledged. -/
def version? : Reading → Option UInt64
  | .resting => none
  | .looked version => some version
  | .rated version _ => some version
  | .timed version _ _ => some version

/-- One access of a consumer to the region, with what it takes by it. -/
inductive Move (region : TokenRegion) (refill : Refill) :
    Reading → List TokenUpdate → TokenRegion → Refill → Reading → Prop where
  /-- It finds a version that it has not seen last. -/
  | look : region.version ≠ refill.seen →
      Move region refill .resting [] region refill (.looked region.version)
  /-- It loads the rate, which may be newer than the version. -/
  | loadRate {version : UInt64} :
      Move region refill (.looked version) [] region refill (.rated version region.rate)
  /-- It loads the interval, which may be newer again. -/
  | loadInterval {version : UInt64} {rate : UInt32} :
      Move region refill (.rated version rate) [] region refill
        (.timed version rate region.intervalNs)
  /-- It raises the acknowledged version, never lowers it, and takes the update. -/
  | acknowledge {version : UInt64} {rate : UInt32} {intervalNs : UInt64} :
      Move region refill (.timed version rate intervalNs)
        [.since refill.seen version rate intervalNs]
        { region with acked := max region.acked version }
        (refill.apply (.since refill.seen version rate intervalNs)) .resting

/-- What a consumer comes to by itself. -/
inductive Moves (region : TokenRegion) (refill : Refill) (reading : Reading) :
    List TokenUpdate → TokenRegion → Refill → Reading → Prop where
  | refl : Moves region refill reading [] region refill reading
  | tail {middle after : TokenRegion} {kept now : Refill} {turn last : Reading}
      {taken more : List TokenUpdate} : Moves region refill reading taken middle kept turn →
      Move middle kept turn more after now last →
      Moves region refill reading (more ++ taken) after now last

/-- **A consumer that nobody interrupts consumes a publication.** -/
theorem Moves.consume {region after : TokenRegion} {refill : Refill} {update : TokenUpdate}
    (h : region.consume refill.seen = (some update, after)) :
    Moves region refill .resting [update] after (refill.apply update) .resting := by
  rw [TokenRegion.consume] at h
  split at h
  · cases h
  · next hnew =>
    obtain ⟨hupdate, rfl⟩ := Prod.mk.inj h
    obtain rfl := Option.some.inj hupdate
    exact (((Moves.refl.tail (.look hnew)).tail .loadRate).tail .loadInterval).tail .acknowledge

/-- A consumer of a region that has been published so often: it has seen no more than that, and what
it is about to take is newer than what it has seen. -/
structure Follows (refill : Refill) (reading : Reading) (published : ℕ) : Prop where
  /-- It has seen no version that is still to come. -/
  seen_le : refill.seen.toNat ≤ published
  /-- Nor has it loaded one. -/
  version_le : ∀ version, reading.version? = some version → version.toNat ≤ published
  /-- What it has loaded is newer than what it has seen, while versions do not repeat. -/
  seen_lt : published < UInt64.size → ∀ version, reading.version? = some version →
    refill.seen < version

variable {region after : TokenRegion} {refill kept : Refill} {reading turn : Reading}
variable {taken : List TokenUpdate} {published more : ℕ}

theorem Follows.mono (h : Follows refill reading published) (hle : published ≤ more) :
    Follows refill reading more where
  seen_le := h.seen_le.trans hle
  version_le version hversion := (h.version_le version hversion).trans hle
  seen_lt hmore := h.seen_lt (hle.trans_lt hmore)

/-- A consumer with the version it has loaded follows as well if it goes on with that version. -/
theorem Follows.of_version (h : Follows refill reading published)
    (hversion : turn.version? = reading.version?) : Follows refill turn published where
  seen_le := h.seen_le
  version_le version heq := h.version_le version (hversion ▸ heq)
  seen_lt hwrap version heq := h.seen_lt hwrap version (hversion ▸ heq)

/-- **A consumer follows whatever access it makes.** By the look it loads a version that it has not
seen, by the acknowledgement it sees the version that it has loaded. -/
theorem Move.follows (hmove : Move region refill reading taken after kept turn)
    (h : Follows refill reading published) (hversion : region.version = UInt64.ofNat published) :
    Follows kept turn published := by
  cases hmove with
  | look hnew =>
    refine ⟨h.seen_le, ?_, ?_⟩
    · rintro version heq
      obtain rfl := Option.some.inj heq
      rw [hversion, UInt64.toNat_ofNat']
      exact Nat.mod_le _ _
    · rintro hwrap version heq
      obtain rfl := Option.some.inj heq
      have hpublished : region.version.toNat = published := by
        rw [hversion, UInt64.toNat_ofNat_of_lt' hwrap]
      have hne : refill.seen.toNat ≠ region.version.toNat := fun heq =>
        hnew (UInt64.toNat_inj.1 heq).symm
      have hle := h.seen_le
      rw [UInt64.lt_iff_toNat_lt]
      omega
  | loadRate => exact h.of_version rfl
  | loadInterval => exact h.of_version rfl
  | acknowledge => exact ⟨h.version_le _ rfl, fun _ => nofun, fun _ _ => nofun⟩

/-- A consumer changes something only where it takes an update: it acknowledges the version that it
has loaded, and applies the update. -/
theorem Move.taken_cases (hmove : Move region refill reading taken after kept turn) :
    (taken = [] ∧ after = region ∧ kept = refill) ∨
    ∃ version rate intervalNs, taken = [.since refill.seen version rate intervalNs] ∧
      reading = .timed version rate intervalNs ∧ turn = .resting ∧
      after = { region with acked := max region.acked version } ∧
      kept = refill.apply (.since refill.seen version rate intervalNs) := by
  cases hmove with
  | acknowledge => exact .inr ⟨_, _, _, rfl, rfl, rfl, rfl, rfl⟩
  | _ => exact .inl ⟨rfl, rfl, rfl⟩

/-- A consumer has loaded the version of the region, or the one that it had loaded before. -/
theorem Move.version_cases (hmove : Move region refill reading taken after kept turn)
    {version : UInt64} (h : turn.version? = some version) :
    version = region.version ∨ reading.version? = some version := by
  cases hmove with
  | look => exact .inl (Option.some.inj h).symm
  | acknowledge => cases h
  | _ => exact .inr h

/-- By every access a consumer gets to another point. -/
theorem Move.turn_ne (hmove : Move region refill reading taken after kept turn) :
    turn ≠ reading := by
  cases hmove <;> exact nofun

end Reading

/-! ## All consumers

The state of the system is that of `Handoff`: one region, any number of writers and consumers, each
consumer with what it keeps and with the point that it has come to. -/

theorem toNat_max (a b : UInt64) : (max a b).toNat = max a.toNat b.toNat := by
  rw [show max a b = if a ≤ b then b else a from rfl]
  split
  · next h => rw [Nat.max_eq_right (UInt64.le_iff_toNat_le.1 h)]
  · next h => rw [Nat.max_eq_left (Nat.le_of_not_le fun hle => h (UInt64.le_iff_toNat_le.2 hle))]

namespace Handoff

variable {ω κ : Type}

/-- Where everybody stands after so many publications. -/
structure Counted (now : Handoff ω κ) : Prop where
  /-- The version counts the publications. -/
  version_eq : now.region.version = UInt64.ofNat now.published
  /-- No version is acknowledged before it is published. -/
  acked_le : now.region.acked.toNat ≤ now.published
  follows : ∀ k, Reading.Follows (now.refill k) (now.reading k) now.published

theorem counted_fresh (fallbackNs : κ → ℕ) : (fresh fallbackNs : Handoff ω κ).Counted where
  version_eq := rfl
  acked_le := Nat.le_refl _
  follows _ := ⟨Nat.le_refl _, fun _ => nofun, fun _ _ => nofun⟩

/-- The version counts the publications until it repeats. -/
theorem Counted.toNat_version {now : Handoff ω κ} (h : now.Counted)
    (hwrap : now.published < UInt64.size) : now.region.version.toNat = now.published := by
  rw [h.version_eq, UInt64.toNat_ofNat_of_lt' hwrap]

/-- What a consumer is about to acknowledge has been published, and is newer than what it has seen.
-/
theorem Counted.timed {now : Handoff ω κ} (h : now.Counted) {k : κ} {version : UInt64}
    {rate : UInt32} {intervalNs : UInt64}
    (hpoint : now.reading k = .timed version rate intervalNs) :
    version.toNat ≤ now.published ∧
      (now.published < UInt64.size → (now.refill k).seen < version) := by
  have hloaded : (now.reading k).version? = some version := by
    rw [hpoint]
    rfl
  exact ⟨(h.follows k).version_le version hloaded,
    fun hwrap => (h.follows k).seen_lt hwrap version hloaded⟩

variable [DecidableEq ω] [DecidableEq κ]

/-- A consumer has moved. -/
def read (now : Handoff ω κ) (k : κ) (region : TokenRegion) (refill : Refill) (reading : Reading) :
    Handoff ω κ :=
  { now with
    region, refill := Function.update now.refill k refill,
    reading := Function.update now.reading k reading }

variable {now next : Handoff ω κ} {k : κ} {region : TokenRegion} {refill : Refill}
variable {reading : Reading} {taken : List TokenUpdate}

/-- What a consumer does is a step of the handoff. -/
theorem step_read (hmove : Reading.Move now.region (now.refill k) (now.reading k) taken region
    refill reading) : Step now (now.read k region refill reading) := by
  generalize hpoint : now.reading k = point at hmove
  cases hmove with
  | look hnew =>
    rw [read, Function.update_eq_self]
    exact .look k hpoint hnew
  | loadRate =>
    rw [read, Function.update_eq_self]
    exact .loadRate k hpoint
  | loadInterval =>
    rw [read, Function.update_eq_self]
    exact .loadInterval k hpoint
  | acknowledge => exact .acknowledge k hpoint

/-- An access is one of a consumer, or it does not touch what belongs to the consumers. -/
theorem Step.write_or_read (hstep : Step now next) :
    (next.refill = now.refill ∧ next.reading = now.reading ∧
      next.region.acked = now.region.acked) ∨
    ∃ k taken region refill reading, Reading.Move now.region (now.refill k) (now.reading k) taken
      region refill reading ∧ next = now.read k region refill reading := by
  -- the handoff's own steps of a consumer are the moves of `Reading`
  cases hstep with
  | store => exact .inl ⟨rfl, rfl, rfl⟩
  | publish => exact .inl ⟨rfl, rfl, rfl⟩
  | aside _ _ hacked => exact .inl ⟨rfl, rfl, hacked⟩
  | look k hpoint hnew =>
    refine .inr ⟨k, [], now.region, now.refill k, .looked now.region.version, ?_, ?_⟩
    · rw [hpoint]
      exact .look hnew
    · rw [read, Function.update_eq_self]
      rfl
  | @loadRate k version hpoint =>
    refine .inr ⟨k, [], now.region, now.refill k, .rated version now.region.rate, ?_, ?_⟩
    · rw [hpoint]
      exact .loadRate
    · rw [read, Function.update_eq_self]
      rfl
  | @loadInterval k version rate hpoint =>
    refine .inr ⟨k, [], now.region, now.refill k, .timed version rate now.region.intervalNs, ?_, ?_⟩
    · rw [hpoint]
      exact .loadInterval
    · rw [read, Function.update_eq_self]
      rfl
  | @acknowledge k version rate intervalNs hpoint =>
    refine .inr ⟨k, [.since (now.refill k).seen version rate intervalNs], _, _, .resting, ?_, rfl⟩
    rw [hpoint]
    exact .acknowledge

omit [DecidableEq ω] in
/-- A consumer is found where it has come to, and all others where they were. -/
theorem read_cases (now : Handoff ω κ) (k : κ) (region : TokenRegion) (refill : Refill)
    (reading : Reading) (j : κ) :
    (j = k ∧ (now.read k region refill reading).refill j = refill ∧
      (now.read k region refill reading).reading j = reading) ∨
    (j ≠ k ∧ (now.read k region refill reading).refill j = now.refill j ∧
      (now.read k region refill reading).reading j = now.reading j) := by
  by_cases hj : j = k
  · subst hj
    exact .inl ⟨rfl, Function.update_self _ _ _, Function.update_self _ _ _⟩
  · exact .inr ⟨hj, Function.update_of_ne hj _ _, Function.update_of_ne hj _ _⟩

omit [DecidableEq ω] in
/-- A consumer keeps the count: what it acknowledges has been published. -/
theorem Counted.read (h : now.Counted) (hmove : Reading.Move now.region (now.refill k)
    (now.reading k) taken region refill reading) :
    (now.read k region refill reading).Counted := by
  have hregion : region.version = now.region.version ∧ region.acked.toNat ≤ now.published := by
    obtain ⟨-, rfl, -⟩ | ⟨version, rate, intervalNs, -, hpoint, -, rfl, -⟩ := hmove.taken_cases
    · exact ⟨rfl, h.acked_le⟩
    · refine ⟨rfl, ?_⟩
      rw [toNat_max]
      exact Nat.max_le.2 ⟨h.acked_le, (h.timed hpoint).1⟩
  refine ⟨hregion.1.trans h.version_eq, hregion.2, ?_⟩
  intro j
  obtain ⟨rfl, hrefill, hreading⟩ | ⟨-, hrefill, hreading⟩ :=
    now.read_cases k region refill reading j
  · rw [hrefill, hreading]
    exact hmove.follows (h.follows j) h.version_eq
  · rw [hrefill, hreading]
    exact h.follows j

/-- **Every access keeps the count.** -/
theorem Counted.step (h : now.Counted) (hstep : Step now next) : next.Counted := by
  rcases hstep.write_or_read with ⟨hrefill, hreading, hacked⟩ | ⟨k, taken, region, refill, reading,
    hmove, rfl⟩
  · have hle := published_le hstep
    refine ⟨?_, ?_, ?_⟩
    · cases hstep with
      | publish =>
        rw [UInt64.ofNat_add, ← h.version_eq]
        rfl
      | aside hversion => exact hversion.trans h.version_eq
      | _ => exact h.version_eq
    · rw [hacked]
      exact h.acked_le.trans hle
    · intro k
      rw [hrefill, hreading]
      exact (h.follows k).mono hle
  · exact h.read hmove

/-- The count holds in whatever comes about. -/
theorem Reachable.counted (h : Reachable now) : now.Counted := by
  induction h with
  | fresh fallbackNs => exact counted_fresh fallbackNs
  | step _ hstep ih => exact ih.step hstep

end Handoff

/-! ## Updates in a row

What one consumer takes is judged without the region: each update says its version and how many it
skipped, and so which publications it stands for. -/

namespace TokenUpdate

/-- How many publications the updates stand for: each for the one that it took and for those that it
skipped. -/
def span (updates : List TokenUpdate) : ℕ :=
  (updates.map fun update => 1 + update.skipped.toNat).sum

/-- The newest update comes first, and each of them ends where those before it and it end. -/
def Consecutive : List TokenUpdate → Prop
  | [] => True
  | update :: earlier => update.version.toNat = span (update :: earlier) ∧ Consecutive earlier

/-- The publication is the one that the update took, or one of those that it skipped. -/
def Covers (update : TokenUpdate) (publication : ℕ) : Prop :=
  publication = update.version.toNat ∨
    publication < update.version.toNat ∧
      update.version.toNat ≤ publication + update.skipped.toNat

/-- The version that a consumer has seen last. -/
def last (updates : List TokenUpdate) : UInt64 := updates.head?.elim 0 version

variable {update : TokenUpdate} {updates earlier : List TokenUpdate} {publication : ℕ}

theorem span_cons (update : TokenUpdate) (earlier : List TokenUpdate) :
    span (update :: earlier) = 1 + update.skipped.toNat + span earlier := rfl

/-- A consumer has seen as many publications as its updates stand for. -/
theorem Consecutive.toNat_last (h : Consecutive updates) : (last updates).toNat = span updates := by
  cases updates with
  | nil => rfl
  | cons update earlier => exact h.1

/-- No version is ahead of what all updates stand for. -/
theorem Consecutive.version_le (h : Consecutive updates) (hmem : update ∈ updates) :
    update.version.toNat ≤ span updates := by
  induction updates with
  | nil => cases hmem
  | cons newest earlier ih =>
    rcases List.mem_cons.1 hmem with rfl | hmem
    · exact Nat.le_of_eq h.1
    · exact (ih h.2 hmem).trans (Nat.le_add_left _ _)

/-- Versions increase. -/
theorem Consecutive.pairwise (h : Consecutive updates) :
    updates.Pairwise fun later earlier => earlier.version < later.version := by
  induction updates with
  | nil => exact .nil
  | cons newest earlier ih =>
    refine .cons ?_ (ih h.2)
    intro update hmem
    have hle := h.2.version_le hmem
    have hnewest := h.1
    rw [span_cons] at hnewest
    rw [UInt64.lt_iff_toNat_lt]
    omega

/-- The newest update covers what lies behind the end of those before it, up to its own. -/
theorem Consecutive.covers_iff (h : Consecutive (update :: earlier)) :
    update.Covers publication ↔
      span earlier < publication ∧ publication ≤ span (update :: earlier) := by
  have hversion := h.1
  rw [Covers, hversion, span_cons]
  omega

/-- No update covers more than what is spanned. -/
theorem Consecutive.le_span (h : Consecutive updates) (hmem : update ∈ updates)
    (hcovers : update.Covers publication) : publication ≤ span updates := by
  have hle := h.version_le hmem
  rcases hcovers with rfl | ⟨hlt, -⟩
  · exact hle
  · omega

/-- **Every publication belongs to exactly one update.** -/
theorem Consecutive.existsUnique_covers (h : Consecutive updates) (hpos : 0 < publication)
    (hle : publication ≤ span updates) :
    ∃! update, update ∈ updates ∧ update.Covers publication := by
  induction updates with
  | nil => exact absurd hle (Nat.not_le_of_lt hpos)
  | cons newest earlier ih =>
    by_cases hearlier : publication ≤ span earlier
    · obtain ⟨update, ⟨hmem, hcovers⟩, hunique⟩ := ih h.2 hearlier
      refine ⟨update, ⟨List.mem_cons_of_mem _ hmem, hcovers⟩, ?_⟩
      rintro other ⟨hother, hcovers⟩
      rcases List.mem_cons.1 hother with rfl | hother
      · have hafter := (h.covers_iff.1 hcovers).1
        omega
      · exact hunique other ⟨hother, hcovers⟩
    · refine ⟨newest, ⟨List.mem_cons_self, h.covers_iff.2 ⟨by omega, hle⟩⟩, ?_⟩
      rintro other ⟨hother, hcovers⟩
      rcases List.mem_cons.1 hother with rfl | hother
      · rfl
      · exact absurd (h.2.le_span hother hcovers) hearlier

/-- An update of a newer version comes next. -/
theorem Consecutive.cons (h : Consecutive updates) {refill : Refill} {version : UInt64}
    (hseen : refill.seen = last updates) (hlt : refill.seen < version) (rate : UInt32)
    (intervalNs : UInt64) :
    Consecutive (.since refill.seen version rate intervalNs :: updates) := by
  refine ⟨?_, h⟩
  have hspan := h.toNat_last
  rw [← hseen] at hspan
  rw [UInt64.lt_iff_toNat_lt] at hlt
  rw [span_cons, toNat_skipped_since]
  change version.toNat = _
  omega

end TokenUpdate

/-! ## What the consumers have taken

`Handoff` forgets what consumers have taken. Here it is kept beside it, and nothing else changes:
whatever `Handoff` comes to can be followed (`exists_of_reachable`). -/

/-- A handoff, with all updates that each consumer has taken. -/
structure Followed (ω κ : Type) where
  /-- the region with its writers and consumers -/
  handoff : Handoff ω κ
  /-- the newest first -/
  updates : κ → List TokenUpdate

namespace Followed

variable {ω κ : Type}

/-- Nobody has taken anything. -/
def fresh (fallbackNs : κ → ℕ) : Followed ω κ := ⟨.fresh fallbackNs, fun _ => []⟩

/-- The versions that somebody has acknowledged. -/
def acknowledged (now : Followed ω κ) : Set UInt64 :=
  {version | ∃ k, ∃ update ∈ now.updates k, update.version = version}

variable [DecidableEq ω] [DecidableEq κ]

/-- A consumer has moved. -/
def read (now : Followed ω κ) (k : κ) (taken : List TokenUpdate) (region : TokenRegion)
    (refill : Refill) (reading : Reading) : Followed ω κ where
  handoff := now.handoff.read k region refill reading
  updates := Function.update now.updates k (taken ++ now.updates k)

/-- One access to the region. -/
inductive Step : Followed ω κ → Followed ω κ → Prop where
  /-- Somebody who is not a consumer. -/
  | write {now : Followed ω κ} {next : Handoff ω κ} : Handoff.Step now.handoff next →
      next.refill = now.handoff.refill → next.reading = now.handoff.reading →
      Step now { now with handoff := next }
  | read {now : Followed ω κ} (k : κ) {taken : List TokenUpdate} {region : TokenRegion}
      {refill : Refill} {reading : Reading} :
      Reading.Move now.handoff.region (now.handoff.refill k) (now.handoff.reading k) taken region
        refill reading →
      Step now (now.read k taken region refill reading)

/-- What can come about on a fresh region. -/
inductive Reachable : Followed ω κ → Prop where
  | fresh (fallbackNs : κ → ℕ) : Reachable (.fresh fallbackNs)
  | step {now next : Followed ω κ} : Reachable now → Step now next → Reachable next

variable {now next : Followed ω κ} {k : κ} {region : TokenRegion} {refill : Refill}
variable {reading : Reading} {taken : List TokenUpdate}

theorem Step.handoff (h : Step now next) : Handoff.Step now.handoff next.handoff := by
  cases h with
  | write hstep => exact hstep
  | read k hmove => exact Handoff.step_read hmove

theorem Reachable.handoff (h : Reachable now) : now.handoff.Reachable := by
  induction h with
  | fresh fallbackNs => exact .fresh fallbackNs
  | step _ hstep ih => exact ih.step hstep.handoff

/-- Whatever comes about can be followed. -/
theorem exists_of_reachable {handoff : Handoff ω κ} (h : handoff.Reachable) :
    ∃ now : Followed ω κ, now.Reachable ∧ now.handoff = handoff := by
  induction h with
  | fresh fallbackNs => exact ⟨_, .fresh fallbackNs, rfl⟩
  | step _ hstep ih =>
    obtain ⟨now, hreach, rfl⟩ := ih
    rcases hstep.write_or_read with ⟨hrefill, hreading, -⟩ | ⟨k, taken, region, refill, reading,
      hmove, rfl⟩
    · exact ⟨_, hreach.step (.write hstep hrefill hreading), rfl⟩
    · exact ⟨_, hreach.step (.read k hmove), rfl⟩

theorem Reachable.steps (h : Reachable now) (hsteps : Relation.ReflTransGen Step now next) :
    Reachable next := by
  induction hsteps with
  | refl => exact h
  | tail _ hstep ih => exact ih.step hstep

omit [DecidableEq ω] in
/-- A consumer has the updates that it has taken now and those it had. -/
theorem mem_updates_read {j : κ} {update : TokenUpdate} :
    update ∈ (now.read k taken region refill reading).updates j ↔
      j = k ∧ update ∈ taken ∨ update ∈ now.updates j := by
  by_cases hj : j = k
  · subst hj
    simp [read]
  · simp [read, hj]

/-- What a consumer comes to by itself happens among all others. -/
theorem steps_of_moves (now : Followed ω κ) (k : κ) (h : Reading.Moves now.handoff.region
    (now.handoff.refill k) (now.handoff.reading k) taken region refill reading) :
    Relation.ReflTransGen Step now (now.read k taken region refill reading) := by
  induction h with
  | refl =>
    have hsame : now.read k [] now.handoff.region (now.handoff.refill k) (now.handoff.reading k) =
        now := by
      simp only [read, Handoff.read, Function.update_eq_self, List.nil_append]
    rw [hsame]
  | @tail middle after kept last turn point taken more _ hmove ih =>
    have hread : Reading.Move (now.read k taken middle kept turn).handoff.region
        ((now.read k taken middle kept turn).handoff.refill k)
        ((now.read k taken middle kept turn).handoff.reading k) more after last point := by
      simpa only [read, Handoff.read, Function.update_self] using hmove
    have hstep := ih.tail (.read k hread)
    simpa only [read, Handoff.read, Function.update_self, Function.update_idem,
      List.append_assoc] using hstep

/-! ## What every access keeps

Versions are compared as words, so the tally holds as long as fewer than `2 ^ 64` publications were
made. `Handoff.Counted` holds beyond that. -/

/-- The updates of every consumer are in a row, and nothing else has been acknowledged. -/
structure Tallied (now : Followed ω κ) : Prop where
  /-- A consumer has seen what its last update brought. -/
  seen_eq : ∀ k, (now.handoff.refill k).seen = TokenUpdate.last (now.updates k)
  /-- Each update begins where the one before it ended. -/
  consecutive : ∀ k, TokenUpdate.Consecutive (now.updates k)
  /-- The acknowledged version is the greatest that anybody has acknowledged. -/
  acked : IsGreatest (insert 0 now.acknowledged) now.handoff.region.acked

/-- With one more version, the greatest is the greater of it and the one so far. -/
theorem isGreatest_max {versions : Set UInt64} {acked : UInt64} (h : IsGreatest versions acked)
    (version : UInt64) : IsGreatest (insert version versions) (max acked version) := by
  rw [show max acked version = if acked ≤ version then version else acked from rfl]
  split
  · next hle =>
    refine ⟨Set.mem_insert _ _, ?_⟩
    rintro other (rfl | hother)
    · exact UInt64.le_refl _
    · exact UInt64.le_trans (h.2 hother) hle
  · next hnot =>
    refine ⟨Set.mem_insert_of_mem _ h.1, ?_⟩
    rintro other (rfl | hother)
    · exact UInt64.le_of_lt (UInt64.not_le.1 hnot)
    · exact h.2 hother

omit [DecidableEq ω] in
theorem acknowledged_read (now : Followed ω κ) (k : κ) (taken : List TokenUpdate)
    (region : TokenRegion) (refill : Refill) (reading : Reading) :
    (now.read k taken region refill reading).acknowledged =
      {version | ∃ update ∈ taken, update.version = version} ∪ now.acknowledged := by
  ext version
  constructor
  · rintro ⟨j, update, hmem, rfl⟩
    rcases mem_updates_read.1 hmem with ⟨-, hmem⟩ | hmem
    · exact .inl ⟨update, hmem, rfl⟩
    · exact .inr ⟨j, update, hmem, rfl⟩
  · rintro (⟨update, hmem, rfl⟩ | ⟨j, update, hmem, rfl⟩)
    · exact ⟨k, update, mem_updates_read.2 (.inl ⟨rfl, hmem⟩), rfl⟩
    · exact ⟨j, update, mem_updates_read.2 (.inr hmem), rfl⟩

omit [DecidableEq ω] [DecidableEq κ] in
theorem tallied_fresh (fallbackNs : κ → ℕ) : (fresh fallbackNs : Followed ω κ).Tallied where
  seen_eq _ := rfl
  consecutive _ := trivial
  acked := by
    refine ⟨Set.mem_insert _ _, ?_⟩
    rintro version (rfl | ⟨k, update, hmem, -⟩)
    · exact UInt64.le_refl _
    · cases hmem

omit [DecidableEq ω] in
/-- **Every access of a consumer keeps the tally**, as long as versions do not repeat. -/
theorem Tallied.read (h : now.Tallied) (hcounted : now.handoff.Counted)
    (hwrap : now.handoff.published < UInt64.size)
    (hmove : Reading.Move now.handoff.region (now.handoff.refill k) (now.handoff.reading k) taken
      region refill reading) : (now.read k taken region refill reading).Tallied := by
  -- the consumer that moves, with the update that it may have taken
  have hconsumer : refill.seen = TokenUpdate.last (taken ++ now.updates k) ∧
      TokenUpdate.Consecutive (taken ++ now.updates k) := by
    cases hmove.taken_cases with
    | inl hnone =>
      obtain ⟨rfl, -, rfl⟩ := hnone
      exact ⟨h.seen_eq k, h.consecutive k⟩
    | inr hsome =>
      obtain ⟨version, rate, intervalNs, rfl, hpoint, -, -, rfl⟩ := hsome
      have hlt := (hcounted.timed hpoint).2 hwrap
      exact ⟨rfl, (h.consecutive k).cons (h.seen_eq k) hlt rate intervalNs⟩
  refine ⟨?_, ?_, ?_⟩
  · intro j
    by_cases hj : j = k
    · subst hj
      simpa only [Followed.read, Handoff.read, Function.update_self] using hconsumer.1
    · simpa only [Followed.read, Handoff.read, Function.update_of_ne hj] using h.seen_eq j
  · intro j
    by_cases hj : j = k
    · subst hj
      simpa only [Followed.read, Function.update_self] using hconsumer.2
    · simpa only [Followed.read, Function.update_of_ne hj] using h.consecutive j
  · rw [acknowledged_read]
    obtain ⟨rfl, rfl, -⟩ | ⟨version, rate, intervalNs, rfl, -, -, rfl, -⟩ := hmove.taken_cases
    · simp only [List.not_mem_nil, false_and, exists_false, Set.ofPred_false, Set.empty_union]
      exact h.acked
    · -- one more version is acknowledged
      have hone : {other | ∃ update ∈
          [TokenUpdate.since (now.handoff.refill k).seen version rate intervalNs],
          update.version = other} = {version} := by
        ext other
        simp [TokenUpdate.since, eq_comm]
      rw [hone, Set.singleton_union, Set.insert_comm]
      exact isGreatest_max h.acked version

/-- **Every access keeps the tally**, as long as versions do not repeat. -/
theorem Tallied.step (h : now.Tallied) (hcounted : now.handoff.Counted) (hstep : Step now next)
    (hwrap : now.handoff.published < UInt64.size) : next.Tallied := by
  cases hstep with
  | @write next hstep hrefill hreading =>
    have hacked : next.region.acked = now.handoff.region.acked := by
      rcases hstep.write_or_read with ⟨-, -, hacked⟩ | ⟨k, taken, region, refill, reading, hmove,
        rfl⟩
      · exact hacked
      · -- a consumer would have come to another point
        have hsame : reading = now.handoff.reading k :=
          (Function.update_self _ _ _).symm.trans (congrFun hreading k)
        exact absurd hsame hmove.turn_ne
    exact ⟨fun k => by rw [hrefill]; exact h.seen_eq k, h.consecutive, by
      rw [hacked]; exact h.acked⟩
  | read k hmove => exact h.read hcounted hwrap hmove

/-- The tally holds in whatever comes about before versions repeat. -/
theorem Reachable.tallied (h : Reachable now) (hwrap : now.handoff.published < UInt64.size) :
    now.Tallied := by
  induction h with
  | fresh fallbackNs => exact tallied_fresh fallbackNs
  | step hreach hstep ih =>
    have hbefore := (Handoff.published_le hstep.handoff).trans_lt hwrap
    exact (ih hbefore).step hreach.handoff.counted hstep hbefore

/-! ## The result -/

/-- **Every publication is accounted for.** As long as versions do not repeat, the version is the
number of publications. Every consumer has seen as many as its updates stand for, each update for
the publication that it took and for those that it skipped; the versions that it takes increase, and
never are ahead of the region's. So every publication up to the version seen last is one that the
consumer took or skipped, and that exactly once. And the acknowledged version is the greatest that
any consumer has acknowledged, or zero. -/
theorem Reachable.accounted (h : Reachable now) (hwrap : now.handoff.published < UInt64.size) :
    now.handoff.region.version.toNat = now.handoff.published ∧
    (∀ k, (now.handoff.refill k).seen = (now.updates k).head?.elim 0 TokenUpdate.version ∧
      (now.handoff.refill k).seen.toNat =
        ((now.updates k).map fun update => 1 + update.skipped.toNat).sum ∧
      ((now.updates k).Pairwise fun later earlier => earlier.version < later.version) ∧
      (now.handoff.refill k).seen ≤ now.handoff.region.version ∧
      (∀ update ∈ now.updates k, update.version ≤ now.handoff.region.version) ∧
      ∀ publication, 0 < publication → publication ≤ (now.handoff.refill k).seen.toNat →
        ∃! update, update ∈ now.updates k ∧ update.Covers publication) ∧
    IsGreatest (insert 0 now.acknowledged) now.handoff.region.acked := by
  have hcounted := h.handoff.counted
  have htallied := h.tallied hwrap
  have hversion := hcounted.toNat_version hwrap
  refine ⟨hversion, ?_, htallied.acked⟩
  intro k
  have hrow := htallied.consecutive k
  have hspan : (now.handoff.refill k).seen.toNat = TokenUpdate.span (now.updates k) := by
    rw [htallied.seen_eq k, hrow.toNat_last]
  have hseen := (hcounted.follows k).seen_le
  refine ⟨htallied.seen_eq k, hspan, hrow.pairwise, ?_, ?_, ?_⟩
  · rw [UInt64.le_iff_toNat_le, hversion]
    exact hseen
  · intro update hmem
    have hle := hrow.version_le hmem
    rw [UInt64.le_iff_toNat_le, hversion]
    omega
  · intro publication hpos hle
    exact hrow.existsUnique_covers hpos (hspan ▸ hle)

/-- A publication is consumed; then two are made before the consumer looks again, and it skips the
first of them. -/
theorem accounted_of_skipped :
    ∃ now : Followed (Fin 1) (Fin 1), Reachable now ∧ now.handoff.published < UInt64.size ∧
      (now.handoff.refill 0).seen = 3 ∧
      (now.updates 0).map (fun update => (update.version, update.skipped, update.rate)) =
        [(3, 1, 6), (1, 0, 1)] ∧
      ((now.updates 0).map fun update => 1 + update.skipped.toNat).sum = 3 := by
  have hfirst : Reachable (_ : Followed (Fin 1) (Fin 1)) :=
    (Reachable.fresh fun _ => 0).step (.write (.publish 0) rfl rfl)
  have htaken : Reachable (_ : Followed (Fin 1) (Fin 1)) :=
    hfirst.steps (steps_of_moves _ 0 (.consume rfl))
  have hfour := (htaken.step (.write (.store 0 4) rfl rfl)).step (.write (.publish 0) rfl rfl)
  have hsix := (hfour.step (.write (.store 0 6) rfl rfl)).step (.write (.publish 0) rfl rfl)
  have hlast : Reachable (_ : Followed (Fin 1) (Fin 1)) :=
    hsix.steps (steps_of_moves _ 0 (.consume rfl))
  have hwrap := (by decide : 3 < UInt64.size)
  obtain ⟨-, hconsumers, -⟩ := hlast.accounted hwrap
  refine ⟨_, hlast, hwrap, rfl, rfl, ?_⟩
  exact (hconsumers 0).2.1.symm

end Followed

end GpuQuota.Pacing
