import GpuQuota.Proofs.Pacing.Launching
import Mathlib.Algebra.BigOperators.Group.Finset.Piecewise
import Mathlib.Algebra.Order.BigOperators.Group.Finset
import Mathlib.Algebra.Ring.Nat
import Mathlib.Data.Fintype.BigOperators

/-!
# Tokens are kept and launches are counted

However the steps of threads and of a refill come in between each other, a token that has been put
into a bucket is in it or has been taken, and a launch whose token has been taken is counted in one
cycle or about to be counted.

* `Launching.Metered` says so of the log, and `Launching.Metered.step` that every step keeps it;
* `Launching.Reachable.metered` is what holds after any steps, and
  `Launching.Reachable.launches_metered` what that comes to.

A bucket that is full loses what is posted, so the sum is only exact while what has been put in, the
first tokens among it, is a word. The counter of launches wraps, so it is only exact while the
launches of each cycle are a word.
-/

namespace GpuQuota.Pacing

namespace Launching

variable {τ : Type}

/-! ## What the log tells

The log has an entry for each token that was taken or put in, and for each launch that was counted.
What the bucket and the counters hold is told by sums over it. -/

/-- The tokens that have been posted. -/
def posted : List (Event τ) → ℕ
  | [] => 0
  | .post rate :: log => posted log + rate.toNat
  | _ :: log => posted log

/-- What was in the counter when it was taken, the newest first. -/
def samples : List (Event τ) → List UInt32
  | [] => []
  | .sample launches :: log => launches :: samples log
  | _ :: log => samples log

/-- The launches counted since the counter was last taken. -/
def current : List (Event τ) → ℕ
  | [] => 0
  | .launch _ .counted :: log => current log + 1
  | .sample _ :: _ => 0
  | _ :: log => current log

/-- The launches counted in each cycle that is over, the newest first. -/
def finished : List (Event τ) → List ℕ
  | [] => []
  | .sample _ :: log => current log :: finished log
  | _ :: log => finished log

section Marks

variable (t : τ) (marks : List Mark) (log : List (Event τ))

/-- What a thread notes says nothing about tokens posted and cycles that are over. -/
theorem refill_marks : posted (marks.map (.launch t) ++ log) = posted log ∧
    samples (marks.map (.launch t) ++ log) = samples log ∧
    finished (marks.map (.launch t) ++ log) = finished log := by
  induction marks with
  | nil => exact ⟨rfl, rfl, rfl⟩
  | cons mark rest ih => exact ih

theorem current_marks :
    current (marks.map (.launch t) ++ log) = current log + marks.count .counted := by
  induction marks with
  | nil => rfl
  | cons mark rest ih =>
    rw [List.map_cons, List.cons_append, List.count_cons]
    cases mark with
    | counted => rw [current, ih]; rfl
    | _ => exact ih

variable [DecidableEq τ] (mark : Mark)

/-- The marks of a thread are added to its own. -/
theorem count_marks : (marks.map (Event.launch t) ++ log).count (.launch t mark) =
    log.count (.launch t mark) + marks.count mark := by
  rw [List.count_append, Nat.add_comm]
  congr 1
  refine List.count_map_of_injective marks (Event.launch t) ?_ mark
  intro a b hab
  exact (Event.launch.inj hab).2

theorem count_marks_of_ne {other : τ} (h : other ≠ t) :
    (marks.map (Event.launch t) ++ log).count (.launch other mark) =
      log.count (.launch other mark) := by
  rw [List.count_append, List.count_eq_zero.2, Nat.zero_add]
  intro hmem
  obtain ⟨_, -, heq⟩ := List.mem_map.1 hmem
  exact h (Event.launch.inj heq).1.symm

end Marks

section Total

variable [DecidableEq τ] [Fintype τ]

/-- How often something has been done by anybody. -/
def total (mark : Mark) (log : List (Event τ)) : ℕ := ∑ t, log.count (.launch t mark)

/-- A mark of one launch counts once in the sum over all threads. -/
theorem total_launch (t : τ) (done mark : Mark) (log : List (Event τ)) :
    total mark (.launch t done :: log) = total mark log + if done = mark then 1 else 0 := by
  have hcount : ∀ other : τ, (Event.launch t done :: log).count (.launch other mark) =
      log.count (.launch other mark) + if t = other then (if done = mark then 1 else 0) else 0 := by
    intro other
    rw [List.count_cons]
    congr 1
    by_cases ht : t = other <;> by_cases hdone : done = mark <;> simp [ht, hdone]
  simp only [total, hcount, Finset.sum_add_distrib, Finset.sum_ite_eq, Finset.mem_univ, if_true]

/-- What the refill notes is done by no thread. -/
theorem total_refill (event : Event τ) (h : ∀ t done, event ≠ .launch t done) (mark : Mark)
    (log : List (Event τ)) : total mark (event :: log) = total mark log :=
  Finset.sum_congr rfl fun t _ => List.count_cons_of_ne (h t mark)

theorem total_marks (t : τ) (marks : List Mark) (mark : Mark) (log : List (Event τ)) :
    total mark (marks.map (.launch t) ++ log) = total mark log + marks.count mark := by
  induction marks with
  | nil => rfl
  | cons done rest ih =>
    rw [List.map_cons, List.cons_append, total_launch, ih, List.count_cons, Nat.add_assoc]
    simp

/-- The tokens that have been taken. -/
def taken (log : List (Event τ)) : ℕ := total .acquired log + total .tried log

theorem taken_refill (event : Event τ) (h : ∀ t done, event ≠ .launch t done)
    (log : List (Event τ)) : taken (event :: log) = taken log := by
  rw [taken, total_refill event h, total_refill event h, taken]

/-- What has been counted has been counted in one cycle. -/
theorem total_counted (log : List (Event τ)) :
    total .counted log = (finished log).sum + current log := by
  induction log with
  | nil => simp [total, finished, current]
  | cons event log ih =>
    cases event with
    | post rate =>
      rw [total_refill (.post rate) (fun _ _ h => nomatch h)]
      exact ih
    | sample launches =>
      rw [total_refill (.sample launches) (fun _ _ h => nomatch h), ih, finished, current,
        List.sum_cons, Nat.add_comm]
      rfl
    | launch t mark =>
      rw [total_launch, ih]
      cases mark <;> rfl

end Total

end Launching

/-! ## One step of a thread

A thread takes a token, or counts the launch whose token it has taken, or neither. -/

namespace Launch

/-- The launches of a thread that are still to be counted. -/
def uncounted : Launch → ℕ
  | .counting => 1
  | _ => 0

/-- The launches of a thread that may still go to the driver. -/
def underway : Launch → ℕ
  | .idle => 0
  | _ => 1

/-- The launches to be counted are those of the threads between taking a token and counting it. -/
theorem sum_uncounted {τ : Type} [Fintype τ] (launch : τ → Launch) :
    ∑ t, (launch t).uncounted = (Finset.univ.filter fun t => launch t = .counting).card := by
  rw [Finset.card_filter]
  refine Finset.sum_congr rfl fun t _ => ?_
  cases launch t <;> rfl

namespace Move

variable {limiter after : Limiter} {launch turn : Launch} {marks : List Mark}

/-- A token that is gone from the bucket is noted as taken. -/
theorem tokens (h : Move limiter launch marks after turn) :
    after.bucket.tokens.toNat + (marks.count .acquired + marks.count .tried) =
      limiter.bucket.tokens.toNat := by
  cases h with
  | take htake => exact Bucket.tokens_take htake
  | tryTake htake => exact Bucket.tokens_take htake
  | _ => rfl

/-- What the counter goes up by is noted as counted. -/
theorem launches (h : Move limiter launch marks after turn) :
    after.launches = limiter.launches + UInt32.ofNat (marks.count .counted) := by
  cases h with
  | count => rfl
  | _ => exact (UInt32.add_zero _).symm

/-- A launch is counted once it is acquired. -/
theorem uncounted_eq (h : Move limiter launch marks after turn) :
    marks.count .acquired + launch.uncounted = marks.count .counted + turn.uncounted := by
  cases h <;> rfl

/-- A launch goes to the driver at most once, after it is acquired. -/
theorem underway_le (h : Move limiter launch marks after turn) :
    marks.count .forwarded + turn.underway ≤ marks.count .acquired + launch.underway := by
  cases h <;> decide

end Move

end Launch

namespace Launching

variable {τ : Type} [DecidableEq τ] [Fintype τ]

/-! ## All steps

Posts, cycles and threads are brought together: a post puts tokens in as far as the bucket has room,
and a cycle takes the counter as it is and sets it to zero. -/

/-- The limiter is in accord with the log, where the bucket had `limit` tokens at first. -/
structure Metered (limit : ℕ) (now : Launching τ) : Prop where
  /-- no token is there that was not put in -/
  tokens_le : now.limiter.bucket.tokens.toNat + taken now.log ≤ limit + posted now.log
  /-- none is lost while the bucket has room -/
  tokens_eq : limit + posted now.log < 2 ^ 64 →
    now.limiter.bucket.tokens.toNat + taken now.log = limit + posted now.log
  /-- The counter has the launches since the last sample. -/
  launches_eq : now.limiter.launches = UInt32.ofNat (current now.log)
  /-- Each sample has those of its own cycle. -/
  samples_eq : samples now.log = (finished now.log).map UInt32.ofNat
  /-- Each thread counts a launch for each token. -/
  acquired_eq : ∀ t, now.log.count (.launch t .acquired) =
    now.log.count (.launch t .counted) + (now.launch t).uncounted
  /-- No thread goes on to the driver without a token. -/
  forwarded_le : ∀ t, now.log.count (.launch t .forwarded) + (now.launch t).underway ≤
    now.log.count (.launch t .acquired)

variable {limit : ℕ} {now next : Launching τ}

namespace Metered

/-- A step of a thread. -/
theorem thread (h : now.Metered limit) {t : τ} {marks : List Mark} {limiter : Limiter}
    {turn : Launch} (hmove : Launch.Move now.limiter (now.launch t) marks limiter turn) :
    (now.put t marks limiter turn).Metered limit := by
  have htaken : taken (now.put t marks limiter turn).log =
      taken now.log + (marks.count .acquired + marks.count .tried) := by
    simp only [taken, put, total_marks]
    omega
  -- a thread posts nothing and ends no cycle
  obtain ⟨hposted, hsamples, hfinished⟩ := refill_marks t marks now.log
  have htokens := hmove.tokens
  refine ⟨?_, ?_, ?_, ?_, ?_, ?_⟩
  · have hle := h.tokens_le
    rw [htaken]
    dsimp only [put]
    rw [hposted]
    omega
  · intro hroom
    rw [htaken]
    dsimp only [put] at hroom ⊢
    rw [hposted] at hroom ⊢
    have heq := h.tokens_eq hroom
    omega
  · dsimp only [put]
    rw [hmove.launches, h.launches_eq, current_marks, UInt32.ofNat_add]
  · dsimp only [put]
    rw [hsamples, hfinished]
    exact h.samples_eq
  · intro other
    -- only its own marks and its own point change
    by_cases hother : other = t
    · subst hother
      have huncounted := hmove.uncounted_eq
      have heq := h.acquired_eq other
      simp only [put, count_marks, Function.update_self]
      omega
    · simp only [put, count_marks_of_ne _ _ _ _ hother, Function.update_of_ne hother]
      exact h.acquired_eq other
  · intro other
    by_cases hother : other = t
    · subst hother
      have hunderway := hmove.underway_le
      have hle := h.forwarded_le other
      simp only [put, count_marks, Function.update_self]
      omega
    · simp only [put, count_marks_of_ne _ _ _ _ hother, Function.update_of_ne hother]
      exact h.forwarded_le other

/-- The refill posts tokens. -/
theorem post (h : now.Metered limit) (rate : UInt32) (stage : Stage) :
    Metered limit { now with
      limiter.bucket := now.limiter.bucket.add rate.toUInt64
      stage
      log := .post rate :: now.log } := by
  have hbucket : (now.limiter.bucket.add rate.toUInt64).tokens.toNat =
      min (now.limiter.bucket.tokens.toNat + rate.toNat) (2 ^ 64 - 1) := by
    rw [Bucket.add, Number.toNat_saturatingAdd, UInt32.toNat_toUInt64]
    rfl
  have htaken : taken (.post rate :: now.log) = taken now.log :=
    taken_refill (.post rate) (fun _ _ h => nomatch h) now.log
  refine ⟨?_, ?_, h.launches_eq, h.samples_eq, ?_, ?_⟩
  · -- a bucket that is full only makes the left side smaller
    have hle := h.tokens_le
    dsimp only
    rw [hbucket, htaken, posted]
    omega
  · intro hroom
    dsimp only at hroom ⊢
    rw [posted] at hroom ⊢
    -- there was room for all that was posted before, so there is for these tokens
    have heq := h.tokens_eq (by omega)
    rw [hbucket, htaken]
    omega
  · intro t
    have heq := h.acquired_eq t
    simpa using heq
  · intro t
    have hle := h.forwarded_le t
    simpa using hle

/-- The refill takes the counter. -/
theorem sample (h : now.Metered limit) (stage : Stage) :
    Metered limit { now with
      limiter.launches := 0
      stage
      log := .sample now.limiter.launches :: now.log } := by
  have htaken : taken (.sample now.limiter.launches :: now.log) = taken now.log :=
    taken_refill (.sample now.limiter.launches) (fun _ _ h => nomatch h) now.log
  refine ⟨?_, ?_, rfl, ?_, ?_, ?_⟩
  · dsimp only
    rw [htaken]
    exact h.tokens_le
  · dsimp only
    rw [htaken]
    exact h.tokens_eq
  · rw [samples, finished, List.map_cons, h.launches_eq, h.samples_eq]
  · intro t
    have heq := h.acquired_eq t
    simpa using heq
  · intro t
    have hle := h.forwarded_le t
    simpa using hle

/-- **Every step keeps the limiter in accord with the log.** -/
theorem step (h : now.Metered limit) (hstep : Step now next) : next.Metered limit := by
  cases hstep with
  | thread t hmove => exact h.thread hmove
  | refresh loaded _ =>
    exact ⟨h.tokens_le, h.tokens_eq, h.launches_eq, h.samples_eq, h.acquired_eq, h.forwarded_le⟩
  | post _ => exact h.post now.refill.rate .posted
  | sample _ => exact h.sample (.sampled now.limiter.launches)
  | record _ =>
    exact ⟨h.tokens_le, h.tokens_eq, h.launches_eq, h.samples_eq, h.acquired_eq, h.forwarded_le⟩

end Metered

/-- At the start the bucket holds its first tokens, and nothing is counted. -/
theorem metered_start {limiter : Limiter} (hlaunches : limiter.launches = 0) :
    (start limiter : Launching τ).Metered limiter.bucket.tokens.toNat := by
  have htaken : taken (start limiter : Launching τ).log = 0 := by
    simp [taken, total, start]
  refine ⟨?_, ?_, hlaunches, rfl, fun t => rfl, fun t => Nat.le_refl 0⟩
  · rw [htaken]
    exact Nat.le_refl _
  · intro _
    rw [htaken]
    rfl

/-- The meter is right after any steps. -/
theorem Reachable.metered {limiter : Limiter} (hlaunches : limiter.launches = 0)
    (h : Reachable limiter now) : now.Metered limiter.bucket.tokens.toNat := by
  induction h with
  | refl => exact metered_start hlaunches
  | tail _ hstep ih => exact ih.step hstep

/-! ## The result -/

/-- Words that the counter did not wrap for are the numbers that they are to be. -/
theorem toNat_ofNat_map {counts : List ℕ} (h : ∀ n ∈ counts, n < 2 ^ 32) :
    (counts.map UInt32.ofNat).map UInt32.toNat = counts := by
  rw [List.map_map]
  refine (List.map_congr_left fun n hn => ?_).trans (List.map_id counts)
  exact UInt32.toNat_ofNat_of_lt' (h n hn)

/-- A process that has entered a region starts with its limit, and has launched nothing. -/
theorem start_of_enter {region entered : TokenRegion} {config : Settings.ThrottleConfig}
    {quota : Settings.ComputeQuota} {limiter : Limiter}
    (h : Limiter.enter? region config quota = some (.ok (limiter, entered))) :
    limiter.bucket.tokens.toNat = entered.limit.toNat ∧ limiter.launches = 0 := by
  refine ⟨?_, ?_⟩
  · rw [Limiter.tokens_enter h, UInt32.toNat_toUInt64]
  · unfold Limiter.enter? at h
    split at h
    · cases h
    · obtain ⟨result, -, h⟩ := Option.map_eq_some_iff.1 h
      cases result with
      | error => cases h
      | ok region =>
        simp only [Except.ok.injEq, Prod.mk.injEq] at h
        obtain ⟨rfl, -⟩ := h
        rfl

/-- **Tokens are kept and launches are counted.** After any steps of any threads and the refill, no
more tokens are there or have been taken than the limit that the process started with and what the
refill has posted, and so no more launches have gone to the driver. While these are less than `2 ^
64` together, none is lost. While no cycle has as many as `2 ^ 32` launches, what a cycle samples is
what was counted in it, and what has been sampled, what the counter shows and the threads that are
about to count make up the launches that were acquired, where each thread counts each of its
launches once. -/
theorem Reachable.launches_metered {region entered : TokenRegion} {config : Settings.ThrottleConfig}
    {quota : Settings.ComputeQuota} {limiter : Limiter}
    (henter : Limiter.enter? region config quota = some (.ok (limiter, entered)))
    (h : Reachable limiter now) :
    now.limiter.bucket.tokens.toNat + taken now.log ≤ entered.limit.toNat + posted now.log ∧
    (entered.limit.toNat + posted now.log < 2 ^ 64 →
      now.limiter.bucket.tokens.toNat + taken now.log = entered.limit.toNat + posted now.log) ∧
    total .forwarded now.log ≤ entered.limit.toNat + posted now.log ∧
    ((∀ n ∈ current now.log :: finished now.log, n < 2 ^ 32) →
      (samples now.log).map UInt32.toNat = finished now.log ∧
      now.limiter.launches.toNat = current now.log ∧
      ((samples now.log).map UInt32.toNat).sum + now.limiter.launches.toNat +
          (Finset.univ.filter fun t => now.launch t = .counting).card =
        total .acquired now.log ∧
      ∀ t, now.log.count (.launch t .acquired) = now.log.count (.launch t .counted) +
        if now.launch t = .counting then 1 else 0) := by
  obtain ⟨hlimit, hlaunches⟩ := start_of_enter henter
  have hmetered := h.metered hlaunches
  rw [hlimit] at hmetered
  have hforwarded : total .forwarded now.log ≤ total .acquired now.log :=
    Finset.sum_le_sum fun t _ => Nat.le_of_add_right_le (hmetered.forwarded_le t)
  have hacquired : total .acquired now.log =
      total .counted now.log + ∑ t, (now.launch t).uncounted := by
    simp only [total, hmetered.acquired_eq, Finset.sum_add_distrib]
  have htokens := hmetered.tokens_le
  refine ⟨htokens, hmetered.tokens_eq, ?_, ?_⟩
  · rw [taken] at htokens
    omega
  -- the counter and the samples are words, which tell the counts as long as these are small
  intro hcycles
  have hsamples : (samples now.log).map UInt32.toNat = finished now.log := by
    rw [hmetered.samples_eq]
    exact toNat_ofNat_map fun n hn => hcycles n (List.mem_cons_of_mem _ hn)
  have hcounter : now.limiter.launches.toNat = current now.log := by
    rw [hmetered.launches_eq]
    exact UInt32.toNat_ofNat_of_lt' (hcycles _ List.mem_cons_self)
  refine ⟨hsamples, hcounter, ?_, ?_⟩
  · rw [hsamples, hcounter, hacquired, total_counted, Launch.sum_uncounted]
  · intro t
    rw [hmetered.acquired_eq]
    cases now.launch t <;> rfl

/-- Two threads launch with a limit of ten. One of them is through, and the other has taken its
token when the refill posts one more and samples. -/
theorem launches_metered_sampled :
    ∃ (limiter : Limiter) (now : Launching (Fin 2)), Reachable limiter now ∧
      now.limiter.bucket.tokens.toNat + taken now.log = 10 + posted now.log ∧
      samples now.log = [1] ∧ 1 + now.limiter.launches.toNat + 1 = total .acquired now.log := by
  let region : TokenRegion := { readiness := .ready, limitWord := 10 }
  let limiter : Limiter := { quota := ⟨0, 10⟩, bucket := ⟨10⟩, fallbackNs := 100000000 }
  have henter : Limiter.enter? region {} ⟨0, 10⟩ = some (.ok (limiter, region)) := by decide
  have hfirst : Bucket.take? ⟨10⟩ = some ⟨9⟩ := by decide
  have hnext : Bucket.take? ⟨9⟩ = some ⟨8⟩ := by decide
  have htaken : Reachable limiter _ := .single (.thread (0 : Fin 2) (.take hfirst))
  have hcounted : Reachable limiter _ := htaken.tail (.thread 0 .count)
  have hforwarded : Reachable limiter _ := hcounted.tail (.thread 0 .forward)
  have hsecond : Reachable limiter _ := hforwarded.tail (.thread 1 (.take hnext))
  have hposted : Reachable limiter _ := hsecond.tail (.post rfl)
  have hsampled : Reachable limiter _ := hposted.tail (.sample rfl)
  obtain ⟨-, hkept, -, hcounts⟩ := hsampled.launches_metered henter
  obtain ⟨-, -, hsum, -⟩ := hcounts (by decide)
  exact ⟨limiter, _, hsampled, hkept (by decide), rfl, hsum⟩

end Launching

end GpuQuota.Pacing
