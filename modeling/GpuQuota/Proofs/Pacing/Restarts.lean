import GpuQuota.Pacing.Monitor
import GpuQuota.Proofs.Pacing.SignedWords
import Mathlib.Data.List.Infix

/-!
# Restarted monitors

A monitor that takes a ready region over keeps what was learned under another limit: the rate goes
over in proportion, and everything that is not a matter of the limit stays. The proportion is
computed in 64 bits and stored in a word of 32 with a sign. Where it does not fit, what is read back
is not the rate (`rescaled_too_far`).

* `Learned.retarget` is the law, in natural numbers;
* `TokenRegion.Settled.rate_retarget_iff`: one monitor keeps the law if and only if the rate fits
  the word;
* `Monitor.takeOver?_ready` is all that a monitor does to a ready region, and
  `Monitor.restarted_keeps_iff` the result for monitors that take the region over one after another.
-/

namespace GpuQuota.Pacing

open GpuQuota.Settings

/-! ## The law

The law is about natural numbers and has no bound. The program divides before it cuts the result
down to a word, so it agrees with the law up to where the result fits. -/

/-- A limit, and the rate that was learned for it. -/
@[ext]
structure Learned where
  limit : ℕ
  rate : ℕ
  deriving DecidableEq

/-- What is known for a new limit. -/
def Learned.retarget (learned : Learned) (limit : ℕ) : Learned :=
  ⟨limit, if limit = learned.limit then learned.rate
    else max 1 (learned.rate * limit / learned.limit)⟩

namespace Learned

variable {learned : Learned} {limit : ℕ}

/-- The same limit leaves the rate. -/
theorem rate_retarget_of_eq (h : limit = learned.limit) :
    (learned.retarget limit).rate = learned.rate :=
  if_pos h

/-- Another limit rescales the rate, rounded down, to one at least. -/
theorem rate_retarget_of_ne (h : limit ≠ learned.limit) :
    (learned.retarget limit).rate = max 1 (learned.rate * limit / learned.limit) :=
  if_neg h

theorem one_le_rate_retarget (h : 1 ≤ learned.rate) (limit : ℕ) :
    1 ≤ (learned.retarget limit).rate := by
  by_cases heq : limit = learned.limit
  · rwa [rate_retarget_of_eq heq]
  · rw [rate_retarget_of_ne heq]
    exact Nat.le_max_left _ _

end Learned

namespace TokenRegion

/-- What the words of a region say. -/
def learned (region : TokenRegion) : Learned := ⟨region.limit.toNat, region.rate.toNat⟩

/-- A ready region whose words are a limit and a rate, each of at least one. -/
structure Settled (region : TokenRegion) : Prop where
  /-- Its first parameters are there. -/
  ready : region.isReady
  one_le_limitWord : 1 ≤ region.limitWord.toInt
  one_le_rateWord : 1 ≤ region.rateWord.toInt

variable {region : TokenRegion} {percent : UInt32}

namespace Settled

theorem learned_limit (h : region.Settled) : (region.learned.limit : ℤ) = region.limitWord.toInt :=
  region.toNat_limit.trans (Int.max_eq_left (Int.le_trans (by decide) h.one_le_limitWord))

theorem learned_rate (h : region.Settled) : (region.learned.rate : ℤ) = region.rateWord.toInt :=
  region.toNat_rate.trans (Int.max_eq_left h.one_le_rateWord)

/-- A share is compared as it is read. -/
theorem limitWord_eq_iff (h : region.Settled) (hpercent : percent.toNat ≤ 100) :
    region.limitWord = percent.toInt32 ↔ percent.toNat = region.learned.limit := by
  have hword := h.learned_limit
  rw [← Int32.toInt_inj, toInt_toInt32 (by omega)]
  omega

/-- The proportion, in natural numbers. -/
theorem rescaledRate_eq (h : region.Settled) (hpercent : percent.toNat ≤ 100) :
    rescaledRate region.rateWord region.limitWord percent.toInt32 =
      (max 1 (region.learned.rate * percent.toNat / region.learned.limit) : ℕ) := by
  have hlimit := h.one_le_limitWord
  rw [rescaledRate, if_pos (Int32.lt_iff_toInt_lt.2 (by rw [Int32.toInt_zero]; omega)),
    ← h.learned_rate, ← h.learned_limit, toInt_toInt32 (by omega), ← Int.natCast_mul,
    ← Int.ofNat_tdiv]
  omega

/-- **What is stored is the law, as far as it fits the word.** -/
theorem rateWord_retarget (h : region.Settled) (hpercent : percent.toNat ≤ 100) :
    (region.retarget percent).2.rateWord =
      Int32.ofInt (region.learned.retarget percent.toNat).rate := by
  have heq := h.limitWord_eq_iff hpercent
  rw [TokenRegion.retarget]
  split
  · next hsame =>
    rw [Learned.rate_retarget_of_eq (heq.1 hsame), h.learned_rate, Int32.ofInt_toInt]
  · next hother =>
    rw [Learned.rate_retarget_of_ne (mt heq.2 hother), ← h.rescaledRate_eq hpercent]

/-- **One monitor keeps the law if and only if the rate fits the word.** -/
theorem rate_retarget_iff (h : region.Settled) (hpercent : percent.toNat ≤ 100) :
    (region.retarget percent).2.rate.toNat = (region.learned.retarget percent.toNat).rate ↔
      (region.learned.retarget percent.toNat).rate < 2 ^ 31 := by
  rw [TokenRegion.rate, h.rateWord_retarget hpercent]
  exact toNat_atLeast_ofInt_iff (Learned.one_le_rate_retarget region.one_le_rate _)

end Settled

/-- The new limit is stored in either case. -/
theorem limitWord_retarget (region : TokenRegion) (percent : UInt32) :
    (region.retarget percent).2.limitWord = percent.toInt32 := by
  rw [retarget]
  split
  · assumption
  · rfl

theorem limit_retarget (region : TokenRegion) (hpercent : percent.toNat ≤ 100) :
    (region.retarget percent).2.limit = percent := by
  have hread := (region.retarget percent).2.toNat_limit
  rw [limitWord_retarget, toInt_toInt32 (by omega)] at hread
  apply UInt32.toNat_inj.1
  omega

/-- What is not a matter of the limit stays. -/
theorem retarget_frame (region : TokenRegion) (percent : UInt32) :
    (region.retarget percent).2.readiness = region.readiness ∧
    (region.retarget percent).2.averages = region.averages ∧
    (region.retarget percent).2.intervalNs = region.intervalNs ∧
    (region.retarget percent).2.version = region.version := by
  rw [retarget]
  split
  · exact ⟨rfl, rfl, rfl, rfl⟩
  · exact ⟨rfl, rfl, rfl, rfl⟩

theorem isReady_publish_retarget (h : region.isReady) (percent : UInt32) :
    (region.retarget percent).2.publish.isReady := by
  rw [isReady, publish, (region.retarget_frame percent).1]
  exact h

/-- The same limit leaves everything as it is. -/
theorem Settled.retarget_limit (h : region.Settled) (hpercent : percent.toNat ≤ 100)
    (heq : percent = region.limit) : (region.retarget percent).2 = region := by
  have hword := (h.limitWord_eq_iff hpercent).2 (congrArg UInt32.toNat heq)
  rw [retarget, if_pos hword]

/-- With another limit the ticks start anew. -/
theorem Settled.ticks_retarget (h : region.Settled) (hpercent : percent.toNat ≤ 100)
    (hne : percent ≠ region.limit) : (region.retarget percent).2.ticks = 0 := by
  have hword := mt (h.limitWord_eq_iff hpercent).1 fun heq => hne (UInt32.toNat_inj.1 heq)
  rw [retarget, if_neg hword]

/-- A rate that fits can be taken over again. -/
theorem Settled.publish_retarget (h : region.Settled) (hone : 1 ≤ percent.toNat)
    (hpercent : percent.toNat ≤ 100)
    (hfits : (region.learned.retarget percent.toNat).rate < 2 ^ 31) :
    (region.retarget percent).2.publish.Settled ∧
    (region.retarget percent).2.publish.learned = region.learned.retarget percent.toNat := by
  have hlimit : (region.retarget percent).2.publish.limitWord.toInt = percent.toNat := by
    change (region.retarget percent).2.limitWord.toInt = _
    rw [limitWord_retarget, toInt_toInt32 (by omega)]
  have hrate : (region.retarget percent).2.publish.rateWord.toInt =
      (region.learned.retarget percent.toNat).rate := by
    change (region.retarget percent).2.rateWord.toInt = _
    rw [h.rateWord_retarget hpercent, Int32.toInt_ofInt_of_le (by omega) (by omega)]
  have hleast : 1 ≤ (region.learned.retarget percent.toNat).rate :=
    Learned.one_le_rate_retarget region.one_le_rate _
  have hsettled : (region.retarget percent).2.publish.Settled :=
    ⟨isReady_publish_retarget h.ready percent, by omega, by omega⟩
  exact ⟨hsettled, Learned.ext (Int.ofNat_inj.1 (hsettled.learned_limit.trans hlimit))
    (Int.ofNat_inj.1 (hsettled.learned_rate.trans hrate))⟩

end TokenRegion

/-! ## One monitor after another

A region stays ready and settled through a restart, which is what the next one needs. So the law for
many restarts is that for one, applied in their order. -/

namespace Monitor

variable {region : TokenRegion} {quotas : List ComputeQuota}

/-- A ready region is only retargeted. -/
theorem takeOver?_ready (h : region.isReady) (config : ThrottleConfig) (quota : ComputeQuota) :
    takeOver? region config quota = some (.ok (region.retarget quota.percent).2.publish) := by
  have hready : region.readiness = .ready := by simpa [TokenRegion.isReady] using h
  have hsetUp : region.setUp quota.percent config.waitIntervalNs = (.ok false, region) := by
    simp only [TokenRegion.setUp, TokenRegion.claim, hready]
  rw [takeOver?, hsetUp]
  simp only [TokenRegion.waitReady?, h, if_true, Option.map_some]

/-- Monitors take a region over, one after another. -/
def restarted? (config : ThrottleConfig) (region : TokenRegion) :
    List ComputeQuota → Option (Except RegionFault TokenRegion)
  | [] => some (.ok region)
  | quota :: later =>
    match takeOver? region config quota with
    | some (.ok after) => restarted? config after later
    | answer => answer

/-- The first of several monitors adopts its limit and publishes, and then come the others. -/
theorem restarted?_cons (h : region.isReady) (config : ThrottleConfig) (quota : ComputeQuota)
    (later : List ComputeQuota) :
    restarted? config region (quota :: later) =
      restarted? config (region.retarget quota.percent).2.publish later := by
  rw [restarted?, takeOver?_ready h]

/-- Each of them gets the region, and announces once. -/
theorem exists_restarted? (config : ThrottleConfig) (h : region.isReady)
    (quotas : List ComputeQuota) :
    ∃ after, restarted? config region quotas = some (.ok after) ∧
      after.version = region.version + UInt64.ofNat quotas.length := by
  induction quotas generalizing region with
  | nil => exact ⟨region, rfl, (UInt64.add_zero _).symm⟩
  | cons quota later ih =>
    obtain ⟨after, hafter, hversion⟩ := ih (TokenRegion.isReady_publish_retarget h quota.percent)
    refine ⟨after, (restarted?_cons h config quota later).trans hafter, ?_⟩
    rw [hversion, TokenRegion.version_publish, (region.retarget_frame quota.percent).2.2.2,
      List.length_cons, Nat.add_comm, UInt64.ofNat_add, UInt64.add_assoc]
    rfl

/-- What is known after these quotas. -/
def learnedAfter (learned : Learned) (quotas : List ComputeQuota) : Learned :=
  quotas.foldl (fun learned quota => learned.retarget quota.percent.toNat) learned

/-- As long as every rate fits, the law is kept. -/
theorem learned_restarted? (config : ThrottleConfig) (h : region.Settled)
    (hquotas : ∀ quota ∈ quotas, 1 ≤ quota.percent.toNat ∧ quota.percent.toNat ≤ 100)
    (hfits : ∀ made, made <+: quotas → (learnedAfter region.learned made).rate < 2 ^ 31) :
    ∃ after, restarted? config region quotas = some (.ok after) ∧
      after.learned = learnedAfter region.learned quotas := by
  induction quotas generalizing region with
  | nil => exact ⟨region, rfl, rfl⟩
  | cons quota later ih =>
    obtain ⟨hone, hpercent⟩ := hquotas quota List.mem_cons_self
    have hfirst : (region.learned.retarget quota.percent.toNat).rate < 2 ^ 31 :=
      hfits [quota] ⟨later, rfl⟩
    obtain ⟨hsettled, hlearned⟩ := h.publish_retarget hone hpercent hfirst
    have hrest : ∀ made, made <+: later →
        (learnedAfter (region.retarget quota.percent).2.publish.learned made).rate < 2 ^ 31 := by
      intro made hmade
      rw [hlearned]
      exact hfits (quota :: made) (List.cons_prefix_cons.2 ⟨rfl, hmade⟩)
    obtain ⟨after, hafter, hlast⟩ :=
      ih hsettled (fun other hmem => hquotas other (.tail _ hmem)) hrest
    refine ⟨after, (restarted?_cons h.ready config quota later).trans hafter, ?_⟩
    rw [hlast, hlearned]
    rfl

/-- **What is learned outlives a monitor.** A monitor that takes over a ready region leaves the
averages and the interval, and announces once. If the limit is the same, rate and ticks stay; if
not, the ticks start anew. The rate is that of the law if and only if this fits a word with a sign,
and it is what the next consumer takes. After any monitors, one after another, what is known is the
law applied for each in turn, for as long as the rates fit and no longer; the rate that is read is
at least one even then. -/
theorem restarted_keeps_iff (config : ThrottleConfig) (h : region.Settled) :
    (∀ quota : ComputeQuota, 1 ≤ quota.percent.toNat → quota.percent.toNat ≤ 100 →
      ∃ after, takeOver? region config quota = some (.ok after) ∧
        after.averages = region.averages ∧ after.intervalNs = region.intervalNs ∧
        after.version = region.version + 1 ∧ after.limit = quota.percent ∧
        (quota.percent = region.limit → after.rate = region.rate ∧ after.ticks = region.ticks) ∧
        (quota.percent ≠ region.limit → after.ticks = 0) ∧
        (after.rate.toNat = (region.learned.retarget quota.percent.toNat).rate ↔
          (region.learned.retarget quota.percent.toNat).rate < 2 ^ 31) ∧
        ∀ seen, seen ≠ after.version → ∃ update, (after.consume seen).1 = some update ∧
          update.rate = after.rate ∧ update.intervalNs = region.intervalNs) ∧
    ∀ quotas : List ComputeQuota,
      (∀ quota ∈ quotas, 1 ≤ quota.percent.toNat ∧ quota.percent.toNat ≤ 100) →
      (∃ after, restarted? config region quotas = some (.ok after) ∧ 1 ≤ after.rate.toNat ∧
        after.version = region.version + UInt64.ofNat quotas.length) ∧
      ((∀ made after, made <+: quotas → restarted? config region made = some (.ok after) →
          after.rate.toNat = (learnedAfter region.learned made).rate) ↔
        ∀ made, made <+: quotas → (learnedAfter region.learned made).rate < 2 ^ 31) := by
  refine ⟨?_, ?_⟩
  · intro quota _ hpercent
    obtain ⟨-, haverages, hinterval, hversion⟩ := region.retarget_frame quota.percent
    refine ⟨_, takeOver?_ready h.ready config quota, haverages, hinterval, ?_,
      region.limit_retarget hpercent, ?_, ?_, h.rate_retarget_iff hpercent, ?_⟩
    · rw [TokenRegion.version_publish, hversion]
    · intro heq
      rw [h.retarget_limit hpercent heq]
      exact ⟨rfl, rfl⟩
    · exact h.ticks_retarget hpercent
    · intro seen hseen
      rw [TokenRegion.consume, if_neg hseen.symm]
      exact ⟨_, rfl, rfl, hinterval⟩
  · intro quotas hquotas
    obtain ⟨last, hlast, hversion⟩ := exists_restarted? config h.ready quotas
    refine ⟨⟨last, hlast, last.one_le_rate, hversion⟩, ?_, ?_⟩
    · -- a rate that is read is below the bound, so the law stays below it where it is kept
      intro hkept made hmade
      obtain ⟨after, hafter, -⟩ := exists_restarted? config h.ready made
      rw [← hkept made after hmade hafter]
      exact after.toNat_rate_lt
    · -- conversely no earlier restart leaves the range, and the steps follow the law one by one
      intro hfits made after hmade hafter
      obtain ⟨same, hsame, hlearned⟩ := learned_restarted? config h
        (fun quota hmem => hquotas quota (hmade.subset hmem))
        (fun earlier hearlier => hfits earlier (hearlier.trans hmade))
      rw [hafter] at hsame
      cases hsame
      exact congrArg Learned.rate hlearned

/-- A rate of 10 for a limit of 20 is 20 for 40, and after that 50 for 100. -/
theorem restarted_keeps_iff_of_doubled :
    ∃ (config : ThrottleConfig) (region after last : TokenRegion),
      region.Settled ∧ region.limit = 20 ∧ region.rate = 10 ∧
      takeOver? region config ⟨0, 40⟩ = some (.ok after) ∧ after.rate.toNat = 20 ∧ after.ticks = 0 ∧
      restarted? config region [⟨0, 40⟩, ⟨0, 100⟩] = some (.ok last) ∧ last.rate.toNat = 50 ∧
      last.version = region.version + 2 := by
  let region : TokenRegion :=
    { TokenRegion.justSetUp 20 100000000 with rateWord := 10, ticks := 7 }
  have hsettled : region.Settled := ⟨by decide, by decide, by decide⟩
  obtain ⟨hone, hall⟩ := restarted_keeps_iff {} hsettled
  obtain ⟨after, hafter, -, -, -, -, -, hticks, hrate, -⟩ := hone ⟨0, 40⟩ (by decide) (by decide)
  obtain ⟨⟨last, hlast, -, hversion⟩, hkept⟩ := hall [⟨0, 40⟩, ⟨0, 100⟩] (by decide)
  have hfits : ∀ made, made <+: [⟨0, 40⟩, ⟨0, 100⟩] →
      (learnedAfter region.learned made).rate < 2 ^ 31 := by
    simp only [← List.mem_inits]
    decide
  have hdoubled : (region.learned.retarget 40).rate = 20 := by decide
  have hlearned : (learnedAfter region.learned [⟨0, 40⟩, ⟨0, 100⟩]).rate = 50 := by decide
  exact ⟨{}, region, after, last, hsettled, by decide, by decide, hafter,
    (hrate.2 (by decide)).trans hdoubled, hticks (by decide), hlast,
    (hkept.2 hfits _ _ List.prefix_rfl hlast).trans hlearned, hversion⟩

/-- For twice the limit, a rate of `2 ^ 30` does not fit any more; what is read and taken is 1. -/
theorem rescaled_too_far :
    ∃ (config : ThrottleConfig) (region after : TokenRegion) (update : TokenUpdate),
      region.Settled ∧ region.limit = 50 ∧ region.rate = 1073741824 ∧
      takeOver? region config ⟨0, 100⟩ = some (.ok after) ∧ (after.consume 0).1 = some update ∧
      update.rate = 1 ∧ (region.learned.retarget 100).rate = 2147483648 := by
  let region : TokenRegion :=
    { TokenRegion.justSetUp 50 100000000 with rateWord := 1073741824 }
  exact ⟨{}, region, (region.retarget 100).2.publish, ⟨2, 1, 1, 100000000⟩,
    ⟨by decide, by decide, by decide⟩, by decide, by decide, takeOver?_ready (by decide) _ _,
    by decide, rfl, by decide⟩

end Monitor

end GpuQuota.Pacing
