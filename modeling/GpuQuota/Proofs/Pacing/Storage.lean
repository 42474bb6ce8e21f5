import GpuQuota.Pacing.Limiter
import GpuQuota.Proofs.Pacing.Restarts

/-!
# What is stored in a region

Limits, rates and averages come as unsigned words and lie in a region as words with a sign. Writers
cast them, and readers take a negative word for the least one that there may be. So the upper half
of the words is not kept: a limit or an average of that size is read as zero, and a rate as one.

* `stored` is the number that is left of a word, and `KeptAs` that all readers find a number;
* `keptAs_stored`: in every region they find what is left, which is the word if and only if it is
  below `2 ^ 31`;
* `limit_too_large`: a process under a limit that settings accept starts without tokens, and its
  first launch blocks.
-/

namespace GpuQuota.Pacing

open GpuQuota.Settings

/-- What is left of a word that has been stored. -/
def stored (word : UInt32) : ℕ := if word.toNat < 2 ^ 31 then word.toNat else 0

/-- What is left of a word is the word itself if and only if it is below `2 ^ 31`. -/
theorem stored_eq_iff (word : UInt32) : stored word = word.toNat ↔ word.toNat < 2 ^ 31 := by
  rw [stored]
  split
  · next h => exact iff_of_true rfl h
  · next h => exact iff_of_false (by omega) h

/-- A word of the upper half is negative once it is stored. -/
theorem toInt_toInt32_eq_sub {word : UInt32} (h : ¬ word.toNat < 2 ^ 31) :
    word.toInt32.toInt = word.toNat - 2 ^ 32 := by
  have htop := word.toNat_lt
  rw [toInt32_eq_ofNat, Int32.toInt_ofNat', Int32.size, Int.bmod_def]
  omega

/-- A reader finds what is left, or else the least number that it may find. -/
theorem toNat_atLeast_toInt32 (least : Int32) (h : 0 ≤ least.toInt) (word : UInt32) :
    ((atLeast least word.toInt32).toNat : ℤ) = max (stored word : ℤ) least.toInt := by
  rw [toNat_atLeast least _ h, stored]
  split
  · next hlow => rw [toInt_toInt32 hlow]
  · next hhigh =>
    have htop := word.toNat_lt
    rw [toInt_toInt32_eq_sub hhigh]
    omega

/-- A reader that takes nothing below zero finds what is left. -/
theorem toNat_atLeast_zero (word : UInt32) : (atLeast 0 word.toInt32).toNat = stored word := by
  have hread := toNat_atLeast_toInt32 0 (by decide) word
  rw [Int32.toInt_zero] at hread
  omega

/-- It does not matter whether a rate is raised to one before it is stored or after. -/
theorem stored_max_one (word : UInt32) : max (stored (max word 1)) 1 = max (stored word) 1 := by
  have hmax := toNat_max_one word
  rw [stored, stored]
  split <;> split <;> omega

/-- A rate is at least one before it is cast as well as after it is read. -/
theorem toNat_atLeast_one (word : UInt32) :
    (atLeast 1 (max word 1).toInt32).toNat = max (stored word) 1 := by
  have hread := toNat_atLeast_toInt32 1 (by decide) (max word 1)
  rw [Int32.toInt_one] at hread
  rw [← stored_max_one]
  omega

namespace TokenRegion

variable {region : TokenRegion}

/-! ## Each writer and its readers

A limit, a rate and an average each have a writer that casts a word and a reader that takes no
negative one. -/

/-- The limit is what is left of the one that was stored. -/
theorem toNat_limit_eq_stored {limit : UInt32} (h : region.limitWord = limit.toInt32) :
    region.limit.toNat = stored limit := by
  rw [TokenRegion.limit, h, toNat_atLeast_zero]

/-- The rate is what is left of the one that was stored, or one. -/
theorem toNat_rate_setRate (region : TokenRegion) (rate : UInt32) :
    (region.setRate rate).rate.toNat = max (stored rate) 1 :=
  toNat_atLeast_one rate

/-- Whoever consumes gets the rate that is there. -/
theorem consume_eq_some (region : TokenRegion) {seen : UInt64} (h : region.version ≠ seen) :
    ∃ update after, region.consume seen = (some update, after) ∧ update.rate = region.rate := by
  rw [consume, if_neg h]
  exact ⟨_, _, rfl, rfl⟩

/-- **What is recorded is the newest average, and pushes the older one out.** -/
theorem averages_recordAverage (region : TokenRegion) (average : UInt32) :
    (region.recordAverage average).averages =
      (atLeast 0 average.toInt32, region.averages.1) := by
  -- the counter wraps at an even number, so the next turn is always the other slot's
  have hturn : (region.recorded + 1) % 2 = 0 ↔ region.recorded % 2 ≠ 0 := by
    simp only [ne_eq, ← UInt32.toNat_inj, UInt32.toNat_mod, UInt32.toNat_add, UInt32.reduceToNat]
    omega
  rw [recordAverage]
  split
  · next heven => simp only [averages, hturn, heven, ne_eq, not_true_eq_false, if_false, if_true]
  · next hodd => simp only [averages, hturn, hodd, ne_eq, not_false_eq_true, if_true, if_false]

/-- The newest average is what is left of the one that was recorded. -/
theorem toNat_newest_recordAverage (region : TokenRegion) (average : UInt32) :
    (region.recordAverage average).averages.1.toNat = stored average := by
  rw [averages_recordAverage]
  exact toNat_atLeast_zero average

/-- A fresh region is ready once it is set up, and has no averages. The first parameters count even
where the gate does not open. -/
theorem setUp_fresh (h : region.readiness = .fresh) (limit : UInt32) (intervalNs : ℕ) :
    (region.setUp limit intervalNs).2.isReady ∧
    (region.setUp limit intervalNs).2.limitWord = limit.toInt32 ∧
    (region.setUp limit intervalNs).2.averages = (0, 0) := by
  simp only [setUp, claim, h]
  split
  · exact ⟨rfl, rfl, rfl⟩
  · exact ⟨rfl, rfl, rfl⟩

end TokenRegion

namespace Limiter

variable {region : TokenRegion}

/-- A process enters a ready region at once, with as many tokens as the limit there. -/
theorem enter?_ready (h : region.isReady) (config : ThrottleConfig) (quota : ComputeQuota) :
    enter? region config quota =
      some (.ok (⟨quota, ⟨region.limit.toUInt64⟩, 0, config.waitIntervalNs⟩, region)) := by
  have hready : region.readiness = .ready := by simpa [TokenRegion.isReady] using h
  have hprepare : prepare region config quota = .ok region := by
    simp only [prepare, TokenRegion.setUp, TokenRegion.claim, hready, ite_self]
  simp only [enter?, hprepare, TokenRegion.waitReady?, h, if_true, Option.map_some]

end Limiter

/-! ## All of them

Together they come to one condition on the word, whoever writes and whoever reads. -/

/-- Every reader finds `n` where `word` was stored: as a limit and in the bucket of a process that
joins then, as a rate, of which there is at least one, and as the newest average. -/
structure KeptAs (word : UInt32) (n : ℕ) : Prop where
  /-- As the first limit. -/
  setUp : ∀ (region : TokenRegion) (intervalNs : ℕ), region.readiness = .fresh →
    (region.setUp word intervalNs).2.limit.toNat = n ∧
    ∀ config quota, ∃ limiter, Limiter.enter? (region.setUp word intervalNs).2 config quota =
      some (.ok (limiter, (region.setUp word intervalNs).2)) ∧ limiter.bucket.tokens.toNat = n
  /-- As a limit that is adopted. -/
  retarget : ∀ region : TokenRegion, region.isReady →
    (region.retarget word).2.limit.toNat = n ∧
    ∀ config quota, ∃ limiter, Limiter.enter? (region.retarget word).2 config quota =
      some (.ok (limiter, (region.retarget word).2)) ∧ limiter.bucket.tokens.toNat = n
  /-- As a rate, which an update brings as well. -/
  setRate : ∀ region : TokenRegion, (region.setRate word).rate.toNat = max n 1 ∧
    ∀ seen, region.version ≠ seen → ∃ update after,
      (region.setRate word).consume seen = (some update, after) ∧ update.rate.toNat = max n 1
  /-- As an average. -/
  recordAverage : ∀ region : TokenRegion, (region.recordAverage word).averages.1.toNat = n

/-- A reader finds one number only. -/
theorem KeptAs.eq_stored {word : UInt32} {n : ℕ} (h : KeptAs word n) : n = stored word :=
  (h.recordAverage {}).symm.trans (TokenRegion.toNat_newest_recordAverage {} word)

/-- A process that joins a ready region starts with the limit that is left. -/
theorem exists_enter?_stored {region : TokenRegion} {limit : UInt32} (hready : region.isReady)
    (hword : region.limitWord = limit.toInt32) (config : ThrottleConfig) (quota : ComputeQuota) :
    ∃ limiter, Limiter.enter? region config quota = some (.ok (limiter, region)) ∧
      limiter.bucket.tokens.toNat = stored limit :=
  ⟨_, Limiter.enter?_ready hready config quota,
    (UInt32.toNat_toUInt64 _).trans (TokenRegion.toNat_limit_eq_stored hword)⟩

/-- **What is left is what is read.** Every reader finds the word that was stored if and only if the
word is below `2 ^ 31`; of any other they find nothing. -/
theorem keptAs_stored (word : UInt32) :
    KeptAs word (stored word) ∧ (KeptAs word word.toNat ↔ word.toNat < 2 ^ 31) := by
  have hkept : KeptAs word (stored word) := by
    refine ⟨fun region intervalNs hfresh => ?_, fun region hready => ?_, fun region => ?_,
      fun region => region.toNat_newest_recordAverage word⟩
    · obtain ⟨hready, hword, -⟩ := TokenRegion.setUp_fresh hfresh word intervalNs
      exact ⟨TokenRegion.toNat_limit_eq_stored hword, exists_enter?_stored hready hword⟩
    · have hword := region.limitWord_retarget word
      have hstill : (region.retarget word).2.isReady :=
        TokenRegion.isReady_publish_retarget hready word
      exact ⟨TokenRegion.toNat_limit_eq_stored hword, exists_enter?_stored hstill hword⟩
    · have hrate := region.toNat_rate_setRate word
      refine ⟨hrate, fun seen hseen => ?_⟩
      obtain ⟨update, after, hconsume, hupdate⟩ :=
        (region.setRate word).consume_eq_some hseen
      exact ⟨update, after, hconsume, hupdate ▸ hrate⟩
  refine ⟨hkept, fun h => (stored_eq_iff word).1 h.eq_stored.symm, fun h => ?_⟩
  rwa [(stored_eq_iff word).2 h] at hkept

/-- The largest word that is kept, and a word that is not. -/
theorem keptAs_largest :
    KeptAs 2147483647 2147483647 ∧ KeptAs 2147483648 0 := by
  refine ⟨(keptAs_stored 2147483647).2.2 (by decide), (keptAs_stored 2147483648).1⟩

/-- Settings accept a limit that is not kept. A process that sets a fresh region up with it starts
without tokens, and its first launch blocks. -/
theorem limit_too_large :
    ∃ (quota : ComputeQuota) (limiter : Limiter) (region : TokenRegion),
      ComputeQuota.parse "0=3000000000".toList = .ok quota ∧ quota.percent.toNat = 3000000000 ∧
      Limiter.enter? {} { standalone := true } quota = some (.ok (limiter, region)) ∧
      region.limit.toNat = 0 ∧ limiter.bucket.tokens = 0 ∧ limiter.launch? = none ∧
      ¬ KeptAs quota.percent quota.percent.toNat := by
  refine ⟨⟨0, 3000000000⟩, ⟨⟨0, 3000000000⟩, ⟨0⟩, 0, 100000000⟩, _, by decide +kernel,
    by decide, rfl, by decide, by decide, by decide, fun h => absurd h.eq_stored (by decide)⟩

end GpuQuota.Pacing
