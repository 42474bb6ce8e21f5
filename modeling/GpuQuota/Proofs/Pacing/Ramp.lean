import GpuQuota.Proofs.Pacing.Deciding
import GpuQuota.Proofs.Pacing.SignedWords

/-!
# The ramp

In the first window a small rate climbs by one with each decision, until it is too large to climb.
How far it has come is a matter of the number of decisions alone (`Controller.ramp`): the samples do
not count, nor do the averages, nor the samples that found a publication pending.

* `Controller.ramp_add_one` is one tick of the ramp, and `Watch.Climbs.rateAfter_cons` the decision
  for it;
* `Watch.Climbs.rateAfter_eq` is a whole run, of which the part after the first window is on target
  at the end of each window;
* `Watch.Steps.ramped` is the result for a region that has just been set up.

A sample on target holds a rate only once the first window is over: before, a rate climbs that is
small, whatever its sample says (`Watch.climbs_on_target`).
-/

namespace GpuQuota.Pacing

open GpuQuota.Settings

/-! ## The closed form

A ramp adds a step to the rate on every tick until it reaches its end. -/

namespace Controller

/-- Where a rate has come after so many ticks of the first window. -/
def ramp (controller : Controller) (rate ticks : ℤ) : ℤ :=
  if controller.bootstrapMax.toInt < rate then rate
  else min (rate + ticks) (controller.bootstrapMax.toInt + 1)

variable {controller : Controller} {rate ticks : ℤ}

theorem ramp_zero (controller : Controller) (rate : ℤ) : controller.ramp rate 0 = rate := by
  rw [ramp]
  omega

/-- One tick: a rate that is not too large climbs. -/
theorem ramp_add_one (controller : Controller) (rate ticks : ℤ) :
    controller.ramp rate (ticks + 1) =
      if controller.bootstrapMax.toInt < controller.ramp rate ticks then controller.ramp rate ticks
      else controller.ramp rate ticks + 1 := by
  by_cases hlarge : controller.bootstrapMax.toInt < rate
  · simp only [ramp, if_pos hlarge]
  · simp only [ramp, if_neg hlarge]
    omega

theorem le_ramp (controller : Controller) (rate : ℤ) (ticks : ℕ) :
    rate ≤ controller.ramp rate ticks := by
  rw [ramp]
  omega

theorem ramp_le (controller : Controller) (rate ticks : ℤ) :
    controller.ramp rate ticks ≤ max rate (controller.bootstrapMax.toInt + 1) := by
  rw [ramp]
  omega

/-- A rate that is too large does not climb. -/
theorem ramp_of_lt {more : ℤ} (h : controller.bootstrapMax.toInt < controller.ramp rate ticks)
    (hmore : ticks ≤ more) : controller.ramp rate more = controller.ramp rate ticks := by
  rw [ramp] at h ⊢
  rw [ramp]
  omega

end Controller

/-! ## A region that has just been set up

A set-up leaves no ticks and the rate one. -/

namespace TokenRegion

theorem ticks_setUp {fresh ready : TokenRegion} {limit : UInt32} {intervalNs : ℕ}
    (h : fresh.setUp limit intervalNs = (.ok true, ready)) : ready.ticks = 0 := by
  simp only [setUp] at h
  split at h
  · cases h
  · split at h
    · cases h
      rfl
    · cases h

/-- A rate that fits the word is read as it was stored. -/
theorem rate_setRate_of_lt (region : TokenRegion) {rate : UInt32} (hrate : 1 ≤ rate.toNat)
    (hroom : rate.toNat < 2 ^ 31) : (region.setRate rate).rate = rate := by
  have hmax : max rate 1 = rate := by
    apply UInt32.toNat_inj.1
    change (if rate ≤ 1 then 1 else rate).toNat = _
    split
    · next hle =>
      rw [UInt32.le_iff_toNat_le] at hle
      exact Nat.le_antisymm hrate hle
    · rfl
  have hread := (region.setRate rate).toNat_rate
  rw [setRate, hmax, toInt_toInt32 hroom] at hread
  apply UInt32.toNat_inj.1
  rw [setRate, hmax]
  omega

end TokenRegion

/-! ## One decision

In the first window the controller climbs while the rate is below the bound, and holds it from there
on; it looks neither at the sample nor at the averages. -/

namespace Verdict

variable {controller : Controller} {region : TokenRegion} {earlier : List Verdict}
variable {verdict : Verdict}

open Watch

/-- The ticks number the decisions. -/
theorem Follows.toInt_ticks (h : verdict.Follows controller region earlier)
    (hticks : region.ticks = 0) (hlength : earlier.length + 1 < 2 ^ 31) :
    verdict.ticks.toInt = earlier.length + 1 := by
  rw [h.ticks_eq, hticks, toInt_add_ofNat (by rw [Int32.toInt_zero]; omega)]
  simp

/-- In the first window a rate climbs by one with a decision, if it is not too large. -/
theorem Follows.climbs (h : verdict.Follows controller region earlier)
    (hticks : verdict.Bootstraps controller) (hbound : controller.bootstrapMax.toInt + 1 < 2 ^ 31)
    (hrate : 1 ≤ (rateAfter region.rate earlier).toNat)
    (hroom : (rateAfter region.rate earlier).toNat < 2 ^ 31) :
    (verdict.answer.isSome ↔
      ((rateAfter region.rate earlier).toNat : ℤ) ≤ controller.bootstrapMax.toInt) ∧
    (rateAfter region.rate (verdict :: earlier)).toNat =
      (rateAfter region.rate earlier).toNat + if verdict.answer.isSome then 1 else 0 := by
  obtain ⟨newest, previous, hanswer⟩ := h.answer_eq
  rw [rateAfter, hanswer, Controller.choose?_of_le hticks]
  generalize rateAfter region.rate earlier = old at hrate hroom
  have hold : old.toInt32.toInt = old.toNat := toInt_toInt32 hroom
  by_cases hlarge : controller.bootstrapMax < old.toInt32
  · rw [if_pos hlarge]
    rw [Int32.lt_iff_toInt_lt, hold] at hlarge
    exact ⟨by simpa using hlarge, rfl⟩
  · rw [if_neg hlarge]
    rw [Int32.lt_iff_toInt_lt, hold, Int.not_lt] at hlarge
    refine ⟨by simpa using hlarge, ?_⟩
    -- there is room for one more, so the word does not wrap
    have hnext : (old.toInt32 + 1).toInt = old.toNat + 1 := by
      rw [← hold]
      exact toInt_add_ofNat (n := 1) (by omega)
    have hread := toNat_atLeast 1 (old.toInt32 + 1) (by decide)
    rw [hnext, Int32.toInt_one] at hread
    change (atLeast 1 (old.toInt32 + 1)).toNat = old.toNat + 1
    omega

/-- After it a rate stays, if the sample is on target at the end of a window. -/
theorem Follows.stays (h : verdict.Follows controller region earlier)
    (hticks : ¬ verdict.Bootstraps controller)
    (htarget : controller.window.toInt ∣ verdict.ticks.toInt → verdict.util = verdict.limit) :
    verdict.answer = none := by
  by_contra hanswer
  obtain ⟨hdvd, hoff⟩ := (h.isSome_iff hticks).1 (Option.isSome_iff_ne_none.2 hanswer)
  exact hoff (htarget hdvd)

end Verdict

/-! ## Whole runs

The rate after some decisions is told from them alone, and here from how many there are. -/

namespace Watch

variable {controller : Controller} {monitor : Monitor} {config : ThrottleConfig}
variable {first : TokenRegion} {now next : Watch} {later : List Verdict}

/-- A region that is about to climb. -/
structure Climbs (controller : Controller) (first : TokenRegion) : Prop where
  /-- A window is at least one sample long. -/
  window : 1 ≤ controller.window.toInt
  /-- The bound leaves room for one step more. -/
  bound : controller.bootstrapMax.toInt + 1 < 2 ^ 31
  /-- No sample has been decided on. -/
  ticks : first.ticks = 0
  /-- It starts at a rate of one or more. -/
  rate : 1 ≤ first.rate.toNat
  /-- The rate is not one that is stored as a negative word. -/
  room : first.rate.toNat < 2 ^ 31

/-- A decision takes the ramp one tick further, unless the first window is over. -/
theorem Climbs.rateAfter_cons (h : Climbs controller first) {verdict : Verdict}
    {earlier : List Verdict} (hverdict : verdict.Follows controller first earlier)
    (hlength : earlier.length + 1 < 2 ^ 31)
    (htarget : ¬ verdict.Bootstraps controller → controller.window.toInt ∣ verdict.ticks.toInt →
      verdict.util = verdict.limit)
    (hramp : ((rateAfter first.rate earlier).toNat : ℤ) =
      controller.ramp first.rate.toNat (min earlier.length controller.window.toInt)) :
    ((rateAfter first.rate (verdict :: earlier)).toNat : ℤ) =
        controller.ramp first.rate.toNat (min (earlier.length + 1) controller.window.toInt) ∧
      (rateAfter first.rate (verdict :: earlier)).toNat =
        (rateAfter first.rate earlier).toNat + if verdict.answer.isSome then 1 else 0 := by
  have hticks := hverdict.toInt_ticks h.ticks hlength
  -- in the first window one more step of the ramp is made, if it is not at its end
  by_cases hboot : verdict.Bootstraps controller
  · have hle : earlier.length + 1 ≤ controller.window.toInt :=
      hticks ▸ Int32.le_iff_toInt_le.1 hboot
    rw [Int.min_eq_left (by omega)] at hramp
    have hleast := controller.le_ramp first.rate.toNat earlier.length
    have htop := controller.ramp_le first.rate.toNat earlier.length
    have hrate := h.rate
    have hroom := h.room
    have hbound := h.bound
    obtain ⟨hsome, hnext⟩ := hverdict.climbs hboot hbound (by omega) (by omega)
    refine ⟨?_, hnext⟩
    rw [hnext, Int.min_eq_left hle, controller.ramp_add_one, ← hramp, Int.natCast_add]
    by_cases hsmall : ((rateAfter first.rate earlier).toNat : ℤ) ≤ controller.bootstrapMax.toInt
    · rw [if_pos (hsome.2 hsmall), if_neg (Int.not_lt.2 hsmall)]
      rfl
    · rw [if_neg (mt hsome.1 hsmall), if_pos (Int.not_le.1 hsmall)]
      exact Int.add_zero _
  · -- after it the sample is on target, or it is not the last of its window
    have hlt : controller.window.toInt < earlier.length + 1 :=
      hticks ▸ Int32.lt_iff_toInt_lt.1 (Int32.not_le.1 hboot)
    have hnone := hverdict.stays hboot (htarget hboot)
    rw [rateAfter, hnone, Option.getD_none, hramp, Int.min_eq_right (by omega),
      Int.min_eq_right (by omega)]
    exact ⟨rfl, rfl⟩

/-- The rate after a run in which every sample after the first window is on target if it is the last
of one. Each publication is a step of the ramp. -/
theorem Climbs.rateAfter_eq (h : Climbs controller first) {verdicts : List Verdict}
    (hfollows : ∀ verdict earlier, verdict :: earlier <:+ verdicts →
      verdict.Follows controller first earlier)
    (hlength : verdicts.length < 2 ^ 31)
    (htarget : ∀ verdict ∈ verdicts, ¬ verdict.Bootstraps controller →
      controller.window.toInt ∣ verdict.ticks.toInt → verdict.util = verdict.limit) :
    ((rateAfter first.rate verdicts).toNat : ℤ) =
        controller.ramp first.rate.toNat (min verdicts.length controller.window.toInt) ∧
      (rateAfter first.rate verdicts).toNat = first.rate.toNat + publications verdicts := by
  induction verdicts with
  | nil =>
    have hwindow := h.window
    rw [List.length_nil, Int.ofNat_zero, Int.min_eq_left (by omega), controller.ramp_zero]
    exact ⟨rfl, rfl⟩
  | cons verdict earlier ih =>
    rw [List.length_cons] at hlength
    obtain ⟨hramp, hcount⟩ := ih
      (fun later rest hsuffix => hfollows later rest (hsuffix.trans (List.suffix_cons _ _)))
      (by omega) (fun later hlater => htarget later (.tail _ hlater))
    obtain ⟨hnext, hpublished⟩ := h.rateAfter_cons (hfollows verdict earlier List.suffix_rfl)
      hlength (htarget verdict List.mem_cons_self) hramp
    refine ⟨hnext, ?_⟩
    rw [hpublished, hcount, publications_cons, Nat.add_assoc]

/-- What is read between two samples of such a run. -/
theorem Climbs.at_rest (h : Climbs controller first) (htraced : now.Traced controller first)
    (hrest : now.tuning = .resting) (hlength : now.verdicts.length < 2 ^ 31)
    (htarget : ∀ verdict ∈ now.verdicts, ¬ verdict.Bootstraps controller →
      controller.window.toInt ∣ verdict.ticks.toInt → verdict.util = verdict.limit) :
    now.region.rate.toNat =
        controller.ramp first.rate.toNat (min now.verdicts.length controller.window.toInt) ∧
      now.region.ticks.toInt = now.verdicts.length ∧
      now.region.rate.toNat = first.rate.toNat + publications now.verdicts := by
  obtain ⟨hticks, -, hrate⟩ := htraced.at_rest hrest
  obtain ⟨hramp, hcount⟩ := h.rateAfter_eq htraced.follows hlength htarget
  rw [hrate, hticks, h.ticks, toInt_add_ofNat (by rw [Int32.toInt_zero]; omega)]
  exact ⟨hramp, by simp, hcount⟩

/-- The decisions of the first window are in the bootstrap. -/
theorem Climbs.bootstraps (h : Climbs controller first) (htraced : now.Traced controller first)
    (hwindow : now.verdicts.length ≤ controller.window.toInt) :
    ∀ verdict ∈ now.verdicts, verdict.Bootstraps controller := by
  intro verdict hmem
  obtain ⟨after, earlier, hlog⟩ := List.append_of_mem hmem
  have hnumber : earlier.length + 1 ≤ now.verdicts.length := by
    rw [hlog, List.length_append, List.length_cons]
    omega
  have htop := controller.window.toInt_lt
  have hverdict := htraced.follows verdict earlier ⟨after, hlog.symm⟩
  rw [Verdict.Bootstraps, Int32.le_iff_toInt_le, hverdict.toInt_ticks h.ticks (by omega)]
  omega

/-- What is published later is the rest of the ramp, if every sample is on target that is the last
of a later window. -/
theorem Climbs.goes_on (h : Climbs controller first) (htraced : now.Traced controller first)
    (hrest : now.tuning = .resting) (hwindow : now.verdicts.length ≤ controller.window.toInt)
    (hnext : next.Traced controller first) (hnextrest : next.tuning = .resting)
    (hlog : next.verdicts = later ++ now.verdicts) (hlength : next.verdicts.length < 2 ^ 31)
    (htarget : ∀ verdict ∈ later, ¬ verdict.Bootstraps controller →
      controller.window.toInt ∣ verdict.ticks.toInt → verdict.util = verdict.limit) :
    next.region.rate.toNat =
        controller.ramp first.rate.toNat (min next.verdicts.length controller.window.toInt) ∧
      next.region.ticks.toInt = next.verdicts.length ∧
      next.region.rate.toNat = now.region.rate.toNat + publications later ∧
      next.region.version = now.region.version + UInt64.ofNat (publications later) := by
  have hboot := h.bootstraps htraced hwindow
  have hlonger : now.verdicts.length ≤ next.verdicts.length := by
    rw [hlog, List.length_append]
    omega
  obtain ⟨-, -, hcount⟩ := h.at_rest htraced hrest (by omega)
    fun verdict hmem hafter => absurd (hboot verdict hmem) hafter
  -- what came before was in the first window, where no sample needs to be on target
  have hall : ∀ verdict ∈ next.verdicts, ¬ verdict.Bootstraps controller →
      controller.window.toInt ∣ verdict.ticks.toInt → verdict.util = verdict.limit := by
    intro verdict hmem hafter
    rw [hlog, List.mem_append] at hmem
    rcases hmem with hmem | hmem
    · exact htarget verdict hmem hafter
    · exact absurd (hboot verdict hmem) hafter
  obtain ⟨hramp, hticks, hnextcount⟩ := h.at_rest hnext hnextrest hlength hall
  refine ⟨hramp, hticks, ?_, ?_⟩
  · rw [hnextcount, hcount, hlog, publications_append]
    omega
  · rw [(hnext.at_rest hnextrest).2.1, (htraced.at_rest hrest).2.1, hlog, publications_append,
      Nat.add_comm, UInt64.ofNat_add, UInt64.add_assoc]

/-! ## The result -/

/-- **How a rate climbs, and where it stays.** Take a region that has just been set up and has been
given a rate, a controller, and any run, with consumers and recorded averages in between. As long as
no more decisions have been made than the first window has ticks, each of them is a tick, and the
rate is the closed form: it has climbed by one with each, until it was too large. What comes later,
where every sample is on target that is the last of a later window, is the rest of the ramp; and
once that is over, the rate stays and nothing is published. -/
theorem Steps.ramped {window bootstrapMax : Int32} {fresh ready : TokenRegion} {limit rate : UInt32}
    {intervalNs : ℕ} (hcontroller : monitor.controller = .create window bootstrapMax)
    (hsetUp : fresh.setUp limit intervalNs = (.ok true, ready)) (hrate : 1 ≤ rate.toNat)
    (hroom : rate.toNat < 2 ^ 31) (hbound : bootstrapMax.toInt + 1 < 2 ^ 31)
    (h : Steps monitor config (.start (ready.setRate rate)) now) (hrest : now.tuning = .resting)
    (hwindow : now.verdicts.length ≤ monitor.controller.window.toInt) :
    now.region.rate.toNat = monitor.controller.ramp rate.toNat now.verdicts.length ∧
    now.region.ticks.toInt = now.verdicts.length ∧
    ∀ next later, Steps monitor config now next → next.tuning = .resting →
      next.verdicts = later ++ now.verdicts → next.verdicts.length < 2 ^ 31 →
      (∀ verdict ∈ later, ¬ verdict.Bootstraps monitor.controller →
        monitor.controller.window.toInt ∣ verdict.ticks.toInt → verdict.util = verdict.limit) →
      next.region.rate.toNat = monitor.controller.ramp rate.toNat
        (min next.verdicts.length monitor.controller.window.toInt) ∧
      next.region.ticks.toInt = next.verdicts.length ∧
      next.region.version = now.region.version + UInt64.ofNat (publications later) ∧
      (now.verdicts.length = monitor.controller.window.toInt ∨
          bootstrapMax.toInt < now.region.rate.toNat →
        next.region.rate = now.region.rate ∧ next.region.version = now.region.version ∧
        ∀ verdict ∈ later, verdict.answer = none) := by
  have hfirst := ready.rate_setRate_of_lt hrate hroom
  have hzero : ready.ticks = 0 := TokenRegion.ticks_setUp hsetUp
  have hclimbs : Climbs monitor.controller (ready.setRate rate) := by
    refine ⟨?_, ?_, hzero, ?_, ?_⟩
    · rw [hcontroller]
      exact Int32.le_iff_toInt_le.1 (Controller.one_le_window_create window bootstrapMax)
    · rw [hcontroller]
      exact hbound
    · rwa [hfirst]
    · rwa [hfirst]
  have htop := monitor.controller.window.toInt_lt
  have hboot := hclimbs.bootstraps h.traced hwindow
  obtain ⟨hramp, hticks, -⟩ := hclimbs.at_rest h.traced hrest (by omega)
    fun verdict hmem hafter => absurd (hboot verdict hmem) hafter
  rw [hfirst, Int.min_eq_left hwindow] at hramp
  refine ⟨hramp, hticks, ?_⟩
  intro next later hnext hnextrest hlog hlength htarget
  -- the later run starts where this one does, so the closed form holds at both ends
  have hboth : Steps monitor config (.start (ready.setRate rate)) next := h.trans hnext
  obtain ⟨hnextramp, hnextticks, hcount, hversion⟩ :=
    hclimbs.goes_on h.traced hrest hwindow hboth.traced hnextrest hlog hlength htarget
  rw [hfirst] at hnextramp
  refine ⟨hnextramp, hnextticks, hversion, ?_⟩
  intro hover
  have hlonger : now.verdicts.length ≤ next.verdicts.length := by
    rw [hlog, List.length_append]
    omega
  have hsame : next.region.rate.toNat = now.region.rate.toNat := by
    apply Int.ofNat_inj.1
    rw [hnextramp, hramp]
    -- the ramp is over, be it that the window is full or that the bound is passed
    rcases hover with hfull | hlarge
    · rw [Int.min_eq_right (by omega), hfull]
    · refine Controller.ramp_of_lt ?_ (by omega)
      rw [← hramp, hcontroller]
      exact hlarge
  have hnone : publications later = 0 := by omega
  rw [hnone] at hversion
  refine ⟨UInt32.toNat_inj.1 hsame, hversion.trans (UInt64.add_zero _), ?_⟩
  intro verdict hmem
  simpa using List.countP_eq_zero.1 hnone verdict hmem

/-- A rate of 1 climbs to 3 in a window of two ticks, with an average recorded in between. The next
sample is off target and not the last of its window, the one after it is the last and on target. -/
theorem ramped_of_climbing :
    ∃ (monitor : Monitor) (config : ThrottleConfig) (fresh ready : TokenRegion) (now next : Watch)
      (later : List Verdict),
      monitor.controller = .create 2 5 ∧ fresh.setUp 50 100000000 = (.ok true, ready) ∧
      Steps monitor config (.start (ready.setRate 1)) now ∧ Steps monitor config now next ∧
      now.region.rate.toNat = monitor.controller.ramp 1 2 ∧ now.region.ticks.toInt = 2 ∧
      next.verdicts = later ++ now.verdicts ∧ later.length = 2 ∧
      next.region.rate = now.region.rate ∧ next.region.version = now.region.version ∧
      ∀ verdict ∈ later, verdict.answer = none := by
  let monitor : Monitor := ⟨⟨0, 50⟩, "group", .create 2 5⟩
  let ready : TokenRegion := .justSetUp 50 100000000
  have hsetUp : ({} : TokenRegion).setUp 50 100000000 = (.ok true, ready) :=
    TokenRegion.setUp_untouched 50 100000000
  let twofold : TokenRegion :=
    { ready with acked := 1, rateWord := 2, ticks := 1, version := 2 }
  let recorded : TokenRegion := { twofold with evenSlot := 7, recorded := 1 }
  let threefold : TokenRegion :=
    { recorded with acked := 2, rateWord := 3, ticks := 2, version := 3 }
  let now : Watch := ⟨threefold, .resting, [⟨10, 50, 2, some 3⟩, ⟨10, 50, 1, some 2⟩]⟩
  let later : List Verdict := [⟨50, 50, 4, none⟩, ⟨10, 50, 3, none⟩]
  let next : Watch :=
    ⟨{ threefold with acked := 3, ticks := 4 }, .resting, later ++ now.verdicts⟩
  have hzero : Steps monitor {} (.start (ready.setRate 1))
      ⟨{ ready with acked := 1 }, .resting, []⟩ :=
    Steps.consume .refl 0 rfl
  have hone : Steps monitor {} (.start (ready.setRate 1))
      ⟨twofold, .resting, [⟨10, 50, 1, some 2⟩]⟩ := hzero.feed rfl rfl (by decide) (by decide)
  have htwo : Steps monitor {} (.start (ready.setRate 1))
      ⟨{ recorded with acked := 2 }, .resting, [⟨10, 50, 1, some 2⟩]⟩ :=
    (hone.recordAverage 7 rfl).consume 1 rfl
  have hnow : Steps monitor {} (.start (ready.setRate 1)) now :=
    htwo.feed rfl rfl (by decide) (by decide)
  -- the ramp is over
  have hthree : Steps monitor {} now ⟨{ threefold with acked := 3 }, .resting, now.verdicts⟩ :=
    Steps.consume .refl 2 rfl
  have hfour : Steps monitor {} now
      ⟨{ threefold with acked := 3, ticks := 3 }, .resting, ⟨10, 50, 3, none⟩ :: now.verdicts⟩ :=
    hthree.feed rfl rfl (by decide) (by decide)
  have hnext : Steps monitor {} now next := hfour.feed rfl rfl (by decide) (by decide)
  have htarget : ∀ verdict ∈ later, ¬ verdict.Bootstraps monitor.controller →
      monitor.controller.window.toInt ∣ verdict.ticks.toInt → verdict.util = verdict.limit := by
    decide
  obtain ⟨hrate, hticks, hlater⟩ := hnow.ramped rfl hsetUp (by decide) (by decide) (by decide) rfl
    (by decide)
  obtain ⟨-, -, -, hover⟩ := hlater next later hnext rfl rfl (by decide) htarget
  obtain ⟨hstays, hversion, hnone⟩ := hover (.inl rfl)
  exact ⟨monitor, {}, {}, ready, now, next, later, rfl, hsetUp, hnow, hnext, hrate, hticks, rfl,
    rfl, hstays, hversion, hnone⟩

/-- Within the first window nothing keeps a small rate where it is. Every sample is on target here,
the last tick of the window included, and a rate of 1 goes on from 2 to 3. -/
theorem climbs_on_target :
    ∃ (monitor : Monitor) (config : ThrottleConfig) (fresh ready : TokenRegion) (now next : Watch)
      (later : List Verdict),
      monitor.controller = .create 2 5 ∧ fresh.setUp 50 100000000 = (.ok true, ready) ∧
      Steps monitor config (.start (ready.setRate 1)) now ∧ now.tuning = .resting ∧
      now.verdicts.length ≤ monitor.controller.window.toInt ∧
      Steps monitor config now next ∧ next.tuning = .resting ∧
      next.verdicts = later ++ now.verdicts ∧
      (∀ verdict ∈ later,
        monitor.controller.window.toInt ∣ verdict.ticks.toInt ∧ verdict.util = verdict.limit) ∧
      now.region.rate = 2 ∧ next.region.rate = 3 ∧
      now.region.version = 2 ∧ next.region.version = 3 := by
  let monitor : Monitor := ⟨⟨0, 50⟩, "group", .create 2 5⟩
  let ready : TokenRegion := .justSetUp 50 100000000
  have hsetUp : ({} : TokenRegion).setUp 50 100000000 = (.ok true, ready) :=
    TokenRegion.setUp_untouched 50 100000000
  let twofold : TokenRegion :=
    { ready with acked := 1, rateWord := 2, ticks := 1, version := 2 }
  let threefold : TokenRegion :=
    { twofold with acked := 2, rateWord := 3, ticks := 2, version := 3 }
  let now : Watch := ⟨twofold, .resting, [⟨50, 50, 1, some 2⟩]⟩
  let later : List Verdict := [⟨50, 50, 2, some 3⟩]
  let next : Watch := ⟨threefold, .resting, later ++ now.verdicts⟩
  have hstart : Steps monitor {} (.start (ready.setRate 1))
      ⟨{ ready with acked := 1 }, .resting, []⟩ := Steps.consume .refl 0 rfl
  have hnow : Steps monitor {} (.start (ready.setRate 1)) now :=
    hstart.feed rfl rfl (by decide) (by decide)
  have htaken : Steps monitor {} now ⟨{ twofold with acked := 2 }, .resting, now.verdicts⟩ :=
    Steps.consume .refl 1 rfl
  have hnext : Steps monitor {} now next := htaken.feed rfl rfl (by decide) (by decide)
  have htarget : ∀ verdict ∈ later,
      monitor.controller.window.toInt ∣ verdict.ticks.toInt ∧ verdict.util = verdict.limit := by
    decide
  exact ⟨monitor, {}, {}, ready, now, next, later, rfl, hsetUp, hnow, rfl, by decide, hnext, rfl,
    rfl, htarget, rfl, rfl, rfl, rfl⟩

end Watch

end GpuQuota.Pacing
