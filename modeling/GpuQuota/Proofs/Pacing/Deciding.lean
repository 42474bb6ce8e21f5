import GpuQuota.Proofs.Pacing.BackPressure

/-!
# Decision after decision

A controller decides on every sample that finds nothing pending: it counts a tick, and publishes a
rate for the sample or holds the one there is. What it decides depends on the ticks and the rate,
which are its own words, on the sample, and at the end of a window on the averages.

* `Verdict` is one decision, and `Watch` a region with its controller and all decisions so far;
* `Watch.Step` lets the controller make one access, or others write their words, whatever they
  write; a sample that nobody interrupts is `Controller.feed` (`Watch.steps_feed`), and so a
  consumption or a record is one step of others;
* `Verdict.Follows` says that a decision is the controller's after those before it, which tells what
  a rate is published for, in the first window (`Verdict.Follows.isSome_iff_of_bootstraps`) and
  after it (`Verdict.Follows.isSome_iff`);
* `Watch.Steps.traced` says that all decisions follow, and that ticks, version and rate are what
  these tell.
-/

namespace GpuQuota.Pacing

open GpuQuota.Settings

/-! ## One decision

In the first window a rate is published by the count of ticks and the rate alone; later only at the
end of a window, and then by the sample and the averages. -/

namespace Controller

/-- A window has one tick at least. -/
theorem one_le_window_create (window bootstrapMax : Int32) :
    1 ≤ (create window bootstrapMax).window :=
  one_le_max window

variable {controller : Controller} {old ticks : Int32}

/-- In the first window a small rate climbs, whatever the sample. -/
theorem choose?_of_le (h : ticks ≤ controller.window) (util limit newest previous : UInt32) :
    controller.choose? old ticks util limit newest previous =
      if controller.bootstrapMax < old then none else some (old + 1) :=
  if_pos h

/-- From then on a rate is decided on at the end of each window, unless the sample is on target. -/
theorem isSome_choose?_of_lt (h : controller.window < ticks) (util limit newest previous : UInt32) :
    (controller.choose? old ticks util limit newest previous).isSome ↔
      controller.window.toInt ∣ ticks.toInt ∧ util ≠ limit := by
  have hmod : ticks % controller.window = 0 ↔ controller.window.toInt ∣ ticks.toInt := by
    rw [← Int32.toInt_inj, Int32.toInt_mod, Int32.toInt_zero, ← Int.dvd_iff_tmod_eq_zero]
  have herror : limit.toInt32 - util.toInt32 = 0 ↔ util = limit := by
    rw [Int32.sub_eq_iff_eq_add, Int32.zero_add]
    constructor
    · intro heq
      rw [← UInt32.toUInt32_toInt32 util, ← heq, UInt32.toUInt32_toInt32]
    · rintro rfl
      rfl
  rw [choose?, if_neg (Int32.not_le.2 h)]
  split
  · next hne => simp [← hmod, hne]
  · next heq =>
    have hdvd := hmod.1 (Decidable.not_not.1 heq)
    simp only [herror]
    split
    · next htarget => simp [htarget]
    · next htarget => simp [hdvd, htarget]

end Controller

/-- What a controller decided on a sample that found nothing pending. -/
structure Verdict where
  /-- the utilization that the sample showed -/
  util : UInt32
  /-- the limit that it was compared with -/
  limit : UInt32
  /-- the ticks, with the one for this sample -/
  ticks : Int32
  /-- the rate that is published for it -/
  answer : Option UInt32
  deriving DecidableEq

/-- The ticks that are counted and not decided on. -/
def Tuning.counted : Tuning → ℕ
  | .ticked _ _ => 1
  | _ => 0

/-! ## A controller among others

Others write their own words at any moment: consumers acknowledge, refills record averages. The
words that a decision depends on besides are the controller's. -/

/-- A region with its controller and what that has decided, the newest first. -/
structure Watch where
  region : TokenRegion
  /-- how far the monitor has come with a sample -/
  tuning : Tuning
  verdicts : List Verdict

namespace Watch

/-- The controller is about to take in its first sample. -/
def start (region : TokenRegion) : Watch := ⟨region, .resting, []⟩

/-- The controller decides on a sample, for which it has counted a tick. -/
def judge (now : Watch) (controller : Controller) (rate : UInt32) (ticks : Int32)
    (util limit newest previous : UInt32) : Watch :=
  let word? := controller.choose? rate.toInt32 ticks util limit newest previous
  { region := now.region
    tuning := word?.elim .resting .storing
    verdicts := ⟨util, limit, ticks, word?.map (atLeast 1)⟩ :: now.verdicts }

/-- One access to the region. -/
inductive Step (monitor : Monitor) (config : ThrottleConfig) : Watch → Watch → Prop where
  /-- The monitor moves without deciding anything. -/
  | move {now : Watch} {acts : List Act} {region : TokenRegion} {tuning : Tuning} :
      Tuning.Move monitor config now.region now.tuning acts region tuning →
      now.tuning.counted = 0 →
      Step monitor config now { now with region, tuning }
  /-- It decides on a sample, with averages that it has loaded at some time or other. -/
  | judge {now : Watch} {rate : UInt32} {ticks : Int32} (util limit newest previous : UInt32) :
      now.tuning = .ticked rate ticks →
      Step monitor config now
        (now.judge monitor.controller rate ticks util limit newest previous)
  /-- Somebody else writes words that are not the monitor's. -/
  | aside {now : Watch} {region : TokenRegion} : region.parameters = now.region.parameters →
      Step monitor config now { now with region }

/-- Any number of accesses. -/
def Steps (monitor : Monitor) (config : ThrottleConfig) : Watch → Watch → Prop :=
  Relation.ReflTransGen (Step monitor config)

variable {monitor : Monitor} {config : ThrottleConfig} {now next : Watch}
variable {region : TokenRegion} {tuning : Tuning} {acts : List Act}

/-- No access of the monitor is left out. -/
theorem exists_step (now : Watch)
    (h : Tuning.Move monitor config now.region now.tuning acts region tuning) :
    ∃ verdicts, Step monitor config now { region, tuning, verdicts } := by
  obtain ⟨before, point, verdicts⟩ := now
  by_cases hdecided : point.counted = 0
  · exact ⟨verdicts, .move h hdecided⟩
  · cases h with
    | @hold rate ticks util limit newest previous hnone =>
      have hstep : Step monitor config ⟨before, .ticked rate ticks, verdicts⟩ _ :=
        .judge util limit newest previous rfl
      rw [judge, hnone] at hstep
      exact ⟨_, hstep⟩
    | @choose rate ticks word util limit newest previous hsome =>
      have hstep : Step monitor config ⟨before, .ticked rate ticks, verdicts⟩ _ :=
        .judge util limit newest previous rfl
      rw [judge, hsome] at hstep
      exact ⟨_, hstep⟩
    | _ => exact absurd rfl hdecided

/-! ### Without interruption

A controller that is alone decides as `Controller.feed` does, and what others do as one operation is
one step of theirs. -/

theorem parameters_consume (region : TokenRegion) (seen : UInt64) :
    (region.consume seen).2.parameters = region.parameters := by
  rw [TokenRegion.consume]
  split <;> rfl

theorem parameters_recordAverage (region : TokenRegion) (average : UInt32) :
    (region.recordAverage average).parameters = region.parameters := by
  rw [TokenRegion.recordAverage]
  split <;> rfl

/-- A publication is consumed. -/
theorem steps_consume (monitor : Monitor) (config : ThrottleConfig) (now : Watch) (seen : UInt64) :
    Steps monitor config now { now with region := (now.region.consume seen).2 } :=
  .single (.aside (parameters_consume now.region seen))

/-- An average is recorded. -/
theorem steps_recordAverage (monitor : Monitor) (config : ThrottleConfig) (now : Watch)
    (average : UInt32) :
    Steps monitor config now { now with region := now.region.recordAverage average } :=
  .single (.aside (parameters_recordAverage now.region average))

/-- The verdict on a sample that is taken in without interruption. -/
def verdict? (controller : Controller) (region : TokenRegion) (util limit : UInt32) :
    List Verdict :=
  if region.isPending then []
  else [⟨util, limit, region.tick.ticks, (controller.feed region util limit).1⟩]

/-- A sample is taken in as `Controller.feed` takes it in. -/
theorem steps_feed (monitor : Monitor) (config : ThrottleConfig) (now : Watch)
    (hrest : now.tuning = .resting) (util limit : UInt32) :
    Steps monitor config now
      { region := (monitor.controller.feed now.region util limit).2, tuning := .resting,
        verdicts := verdict? monitor.controller now.region util limit ++ now.verdicts } := by
  obtain ⟨region, tuning, verdicts⟩ := now
  obtain rfl : tuning = .resting := hrest
  have hlooked : Steps monitor config ⟨region, .resting, verdicts⟩
      ⟨region, .comparing region.version region, verdicts⟩ := .single (.move .look rfl)
  -- a sample that finds something pending ends with the look
  cases hpending : region.isPending with
  | true =>
    have hne : region.version ≠ region.acked := by
      simpa [TokenRegion.isPending] using hpending
    simp only [verdict?, Controller.feed, hpending, if_true]
    exact hlooked.tail (.move (.decline hne) rfl)
  | false =>
    have heq : region.version = region.acked := by simpa [TokenRegion.isPending] using hpending
    have hticked : Steps monitor config ⟨region, .resting, verdicts⟩
        ⟨region.tick, .ticked region.rate region.tick.ticks, verdicts⟩ :=
      ((hlooked.tail (.move (.pass heq) rfl)).tail (.move .loadRate rfl)).tail (.move .tick rfl)
    have hdecided := hticked.tail
      (.judge util limit region.tick.averages.1 region.tick.averages.2 rfl)
    simp only [verdict?, monitor.controller.feed_eq hpending, hpending]
    rw [judge] at hdecided
    cases hword : monitor.controller.choose? region.rate.toInt32 region.tick.ticks util limit
      region.tick.averages.1 region.tick.averages.2 with
    | none =>
      simp only [hword, Option.elim_none, Option.map_none] at hdecided
      exact hdecided
    | some word =>
      simp only [hword, Option.elim_some, Option.map_some] at hdecided
      exact (hdecided.tail (.move .store rfl)).tail (.move .publish rfl)

/-- A sample that finds nothing pending is decided on. -/
theorem Steps.feed {first : Watch} (h : Steps monitor config first now)
    (hrest : now.tuning = .resting) (hpending : now.region.isPending = false) {ticks : Int32}
    (hticks : now.region.tick.ticks = ticks) {util limit : UInt32} {answer : Option UInt32}
    (hfeed : monitor.controller.feed now.region util limit = (answer, region)) :
    Steps monitor config first
      ⟨region, .resting, ⟨util, limit, ticks, answer⟩ :: now.verdicts⟩ := by
  have hnext := h.trans (steps_feed monitor config now hrest util limit)
  simp only [verdict?, hpending, hticks, hfeed] at hnext
  exact hnext

theorem Steps.consume {first : Watch} (h : Steps monitor config first now) (seen : UInt64)
    {update : Option TokenUpdate} (hconsume : now.region.consume seen = (update, region)) :
    Steps monitor config first { now with region } := by
  have hnext := h.trans (steps_consume monitor config now seen)
  rw [hconsume] at hnext
  exact hnext

/-- A record is a step of others. -/
theorem Steps.recordAverage {first : Watch} (h : Steps monitor config first now) (average : UInt32)
    (hrecord : now.region.recordAverage average = region) :
    Steps monitor config first { now with region } := by
  have hnext := h.trans (steps_recordAverage monitor config now average)
  rw [hrecord] at hnext
  exact hnext

/-! ## What the verdicts tell

The verdicts are listed with the newest first. From them and from the region at the start one can
tell the ticks, the version and the rate, in the middle of a decision as well: what is counted or
owed then is told by the point that it has come to. -/

/-- The rate after these verdicts. -/
def rateAfter (rate : UInt32) : List Verdict → UInt32
  | [] => rate
  | verdict :: earlier => verdict.answer.getD (rateAfter rate earlier)

/-- How many of these verdicts published a rate. -/
def publications (verdicts : List Verdict) : ℕ :=
  verdicts.countP fun verdict => verdict.answer.isSome

theorem publications_cons (verdict : Verdict) (earlier : List Verdict) :
    publications (verdict :: earlier) =
      publications earlier + if verdict.answer.isSome then 1 else 0 :=
  List.countP_cons

theorem publications_append (later earlier : List Verdict) :
    publications (later ++ earlier) = publications later + publications earlier :=
  List.countP_append

end Watch

/-- The verdict is what the controller decides after the earlier ones, for a region that was like
this at first. -/
structure Verdict.Follows (controller : Controller) (region : TokenRegion) (earlier : List Verdict)
    (verdict : Verdict) : Prop where
  /-- The ticks count the samples up to this one. -/
  ticks_eq : verdict.ticks = region.ticks + Int32.ofNat (earlier.length + 1)
  /-- The decision is made from the rate that the earlier ones have left. -/
  answer_eq : ∃ newest previous, verdict.answer =
    (controller.choose? (Watch.rateAfter region.rate earlier).toInt32 verdict.ticks verdict.util
      verdict.limit newest previous).map (atLeast 1)

namespace Verdict

/-- The decision is one of the first window. -/
def Bootstraps (controller : Controller) (verdict : Verdict) : Prop :=
  verdict.ticks ≤ controller.window

instance (controller : Controller) (verdict : Verdict) :
    Decidable (verdict.Bootstraps controller) :=
  inferInstanceAs (Decidable (verdict.ticks ≤ controller.window))

variable {controller : Controller} {region : TokenRegion} {earlier : List Verdict}
variable {verdict : Verdict}

/-- In the bootstrap it is the rate that decides, whatever the sample. -/
theorem Follows.isSome_iff_of_bootstraps (h : verdict.Follows controller region earlier)
    (hticks : verdict.Bootstraps controller) :
    verdict.answer.isSome ↔
      (Watch.rateAfter region.rate earlier).toInt32 ≤ controller.bootstrapMax := by
  obtain ⟨newest, previous, hanswer⟩ := h.answer_eq
  rw [hanswer, Option.isSome_map, Controller.choose?_of_le hticks, ← Int32.not_lt]
  split <;> simp [*]

/-- After it a rate is published at the end of a window, unless the sample is on target. -/
theorem Follows.isSome_iff (h : verdict.Follows controller region earlier)
    (hticks : ¬ verdict.Bootstraps controller) :
    verdict.answer.isSome ↔
      controller.window.toInt ∣ verdict.ticks.toInt ∧ verdict.util ≠ verdict.limit := by
  obtain ⟨newest, previous, hanswer⟩ := h.answer_eq
  rw [hanswer, Option.isSome_map]
  exact Controller.isSome_choose?_of_lt (Int32.not_le.1 hticks) _ _ _ _

end Verdict

namespace Tuning

/-- The publications that are decided on and still to be made. -/
def owed : Tuning → ℕ
  | .storing _ => 1
  | .publishing _ => 1
  | _ => 0

/-- What the monitor has loaded of a region, or is about to store, where `rate` comes of its last
decision. -/
def Holds (rate : UInt32) (region : TokenRegion) : Tuning → Prop
  | .entering _ => False
  | .rated loaded => region.rate = rate ∧ loaded = rate
  | .ticked loaded ticks => region.rate = rate ∧ loaded = rate ∧ ticks = region.ticks
  | .storing word => rate = atLeast 1 word
  | .publishing word => region.rate = rate ∧ rate = atLeast 1 word
  | _ => region.rate = rate

end Tuning

namespace Watch

variable {monitor : Monitor} {config : ThrottleConfig} {now next : Watch}
variable {region : TokenRegion} {tuning : Tuning} {acts : List Act}

/-- The region and the verdicts are in accord. -/
structure Traced (controller : Controller) (region : TokenRegion) (now : Watch) : Prop where
  /-- Each verdict is right for those before it. -/
  follows : ∀ verdict earlier, verdict :: earlier <:+ now.verdicts →
    verdict.Follows controller region earlier
  /-- The ticks count the verdicts, and one more while one is being worked out. -/
  ticks_eq : now.region.ticks =
    region.ticks + Int32.ofNat (now.verdicts.length + now.tuning.counted)
  /-- The version counts the publications, but for one that is owed. -/
  version_eq : now.region.version + UInt64.ofNat now.tuning.owed =
    region.version + UInt64.ofNat (publications now.verdicts)
  /-- What the monitor has loaded is what the verdicts have left. -/
  holds : now.tuning.Holds (rateAfter region.rate now.verdicts) now.region

namespace Traced

/-- Before the first decision the verdicts tell nothing. -/
theorem start (controller : Controller) (region : TokenRegion) :
    (start region).Traced controller region where
  follows _ _ h := absurd (List.suffix_nil.1 h) (List.cons_ne_nil _ _)
  ticks_eq := (Int32.add_zero _).symm
  version_eq := rfl
  holds := rfl

variable {controller : Controller} {first : TokenRegion}

/-- An access that decides nothing. -/
theorem move (h : now.Traced controller first)
    (hmove : Tuning.Move monitor config now.region now.tuning acts region tuning)
    (hdecided : now.tuning.counted = 0) :
    Traced controller first { now with region, tuning } := by
  obtain ⟨before, point, verdicts⟩ := now
  obtain ⟨hfollows, hticks, hversion, hholds⟩ := h
  cases hmove with
  | enter => exact hholds.elim
  | settle => exact hholds.elim
  | loadRate => exact ⟨hfollows, hticks, hversion, hholds, hholds⟩
  | tick =>
    refine ⟨hfollows, ?_, hversion, hholds.1, hholds.2, rfl⟩
    change before.ticks + 1 = first.ticks + Int32.ofNat (verdicts.length + 1)
    rw [Int32.ofNat_add, ← Int32.add_assoc]
    exact congrArg (· + 1) hticks
  | hold => exact absurd hdecided Nat.one_ne_zero
  | choose => exact absurd hdecided Nat.one_ne_zero
  | store => exact ⟨hfollows, hticks, hversion, (before.rate_setRate _).trans hholds.symm, hholds⟩
  | publish => exact ⟨hfollows, hticks, (UInt64.add_zero _).trans hversion, hholds.1⟩
  | _ => exact ⟨hfollows, hticks, hversion, hholds⟩

theorem follows_cons {verdict : Verdict} {verdicts : List Verdict}
    (h : ∀ verdict earlier, verdict :: earlier <:+ verdicts →
      verdict.Follows controller first earlier)
    (hverdict : verdict.Follows controller first verdicts) :
    ∀ later earlier, later :: earlier <:+ verdict :: verdicts →
      later.Follows controller first earlier := by
  intro later earlier hsuffix
  rcases List.suffix_cons_iff.1 hsuffix with heq | hsuffix
  · obtain ⟨rfl, rfl⟩ := List.cons.inj heq
    exact hverdict
  · exact h later earlier hsuffix

/-- The decision is one that the controller comes to after those before. -/
theorem judge (h : now.Traced monitor.controller first) {rate : UInt32} {ticks : Int32}
    (hpoint : now.tuning = .ticked rate ticks) (util limit newest previous : UInt32) :
    (now.judge monitor.controller rate ticks util limit newest previous).Traced
      monitor.controller first := by
  obtain ⟨region, tuning, verdicts⟩ := now
  obtain rfl : tuning = .ticked rate ticks := hpoint
  obtain ⟨hfollows, hticks, hversion, hregion, hloaded, hcounted⟩ := h
  obtain rfl : rate = rateAfter first.rate verdicts := hloaded
  obtain rfl : ticks = region.ticks := hcounted
  refine ⟨follows_cons hfollows ⟨hticks, newest, previous, rfl⟩, ?_, ?_, ?_⟩
  all_goals
    rw [Watch.judge]
    cases monitor.controller.choose? (rateAfter first.rate verdicts).toInt32 region.ticks util limit
      newest previous
  · exact hticks
  · exact hticks
  · exact hversion
  · rw [publications_cons, Option.map_some, Option.isSome_some, if_pos rfl, UInt64.ofNat_add,
      ← UInt64.add_assoc]
    exact congrArg (· + 1) ((UInt64.add_zero _).symm.trans hversion)
  · exact hregion
  · rfl

/-- Others do not write what the controller goes by. -/
theorem aside (h : now.Traced controller first)
    (hparameters : region.parameters = now.region.parameters) :
    Traced controller first { now with region } := by
  obtain ⟨before, point, verdicts⟩ := now
  have hrate : region.rate = before.rate := by
    rw [TokenRegion.rate, TokenRegion.rate, TokenRegion.rateWord_of_parameters hparameters]
  have hticks : region.ticks = before.ticks := by
    change region.parameters.ticks = before.parameters.ticks
    rw [hparameters]
  have hversion := TokenRegion.version_of_parameters hparameters
  refine ⟨h.follows, hticks.trans h.ticks_eq, ?_, ?_⟩
  · dsimp only
    rw [hversion]
    exact h.version_eq
  · have hholds := h.holds
    cases point <;> simp only [Tuning.Holds, hrate, hticks] at hholds ⊢ <;> exact hholds

/-- **Every step keeps region and verdicts in accord.** -/
theorem step (h : now.Traced monitor.controller first) (hstep : Step monitor config now next) :
    next.Traced monitor.controller first := by
  cases hstep with
  | move hmove hdecided => exact h.move hmove hdecided
  | judge util limit newest previous hpoint => exact h.judge hpoint util limit newest previous
  | aside hparameters => exact h.aside hparameters

/-- Between two samples, the verdicts tell everything. -/
theorem at_rest (h : now.Traced controller first) (hrest : now.tuning = .resting) :
    now.region.ticks = first.ticks + Int32.ofNat now.verdicts.length ∧
    now.region.version = first.version + UInt64.ofNat (publications now.verdicts) ∧
    now.region.rate = rateAfter first.rate now.verdicts := by
  obtain ⟨-, hticks, hversion, hholds⟩ := h
  rw [hrest] at hticks hversion hholds
  exact ⟨hticks, (UInt64.add_zero _).symm.trans hversion, hholds⟩

end Traced

/-- They are in accord after any number of steps. -/
theorem Steps.traced {first : TokenRegion} (h : Steps monitor config (.start first) now) :
    now.Traced monitor.controller first := by
  induction h with
  | refl => exact .start _ _
  | tail _ hstep ih => exact ih.step hstep

end Watch

end GpuQuota.Pacing
