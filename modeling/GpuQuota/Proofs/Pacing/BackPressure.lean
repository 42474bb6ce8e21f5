import GpuQuota.Proofs.Pacing.Regulating

/-!
# A monitor waits for its consumers

A monitor looks whether its last publication has been acknowledged, and does nothing before it has
been. Between the look and the next publication it gives way many times, and consumers acknowledge
versions that they have loaded long before. Still no rate is replaced that nobody has applied.

* `Tuning.Fits` says what the region must have come to for each point that the monitor can be at:
  from the look to the publication, nothing is pending;
* `Regulation.Paced` bounds the publications: the version repeats once at most, and then the monitor
  has stopped;
* `Regulation.Heeded` says of the log that nothing was stored over a rate that nobody had taken, and
  `Regulation.Stepwise` that a consumer which is alone is never more than one publication behind;
* `Regulation.Reachable.back_pressure` is the result.
-/

namespace GpuQuota.Pacing

open GpuQuota.Settings

/-! ## The monitor

A monitor enters a region by the steps of `Entry` and then feeds it samples by those of `Tuning`.
What has to be known of the region differs from point to point, so it is said by recursion on the
point. -/

theorem one_le_max (word : Int32) : 1 ≤ max word 1 := by
  change 1 ≤ if word ≤ 1 then 1 else word
  split
  · exact Int32.le_refl _
  · next h => exact Int32.le_of_lt (Int32.not_le.1 h)

/-- A rate that is at least one is read as it was stored. -/
theorem TokenRegion.rate_setRate (region : TokenRegion) (word : Int32) :
    (region.setRate (atLeast 1 word)).rate = atLeast 1 word := by
  have hone := one_le_max word
  simp only [rate, setRate, atLeast]
  generalize max word 1 = rate at hone
  have hstored : max rate.toUInt32 1 = rate.toUInt32 := by
    change (if rate.toUInt32 ≤ 1 then 1 else rate.toUInt32) = _
    split
    · next hle =>
      have hpos : rate.toUInt32.toNat ≠ 0 := by
        intro hzero
        have hword : rate.toUInt32 = 0 := UInt32.toNat_inj.1 hzero
        rw [← Int32.toInt32_toUInt32 rate, hword] at hone
        exact absurd hone (by decide)
      rw [UInt32.le_iff_toNat_le, show (1 : UInt32).toNat = 1 from rfl] at hle
      apply UInt32.toNat_inj.1
      change 1 = _
      omega
    · rfl
  have hread : max rate 1 = rate := by
    change (if rate ≤ 1 then 1 else rate) = _
    split
    · next hle => exact Int32.le_antisymm hone hle
    · rfl
  rw [hstored, Int32.toInt32_toUInt32, hread]

namespace Entry

/-- How often the first process of a region, a monitor, has published when it has come so far. -/
def Leads (readiness : Readiness) (published : ℕ) : Entry → Prop
  | .outside => readiness = .fresh ∧ published = 0
  | .laying _ => published = 0
  | .announcing => published = 0
  | .opening => published = 1
  | .republishing => published = 1
  | .attached => published = 2
  | .failed => published = 1
  | _ => False

variable {party : Party} {region after : TokenRegion} {entry turn : Entry} {deeds : List Deed}
variable {published : ℕ}

/-- A monitor that enters publishes twice, the first time after it has announced the region and the
second time after it has opened the gate. -/
theorem Move.leads (hmove : Move party region entry deeds after turn) (hmonitor : party.isMonitor)
    (h : entry.Leads region.readiness published) :
    (after.version = region.version ∧ turn.Leads after.readiness published) ∨
    (after = region.publish ∧ published ≤ 1 ∧ turn.Leads after.readiness (published + 1)) := by
  -- only a monitor claims, and it publishes at two points on its way
  cases hmove with
  | claim _ hclaim =>
    obtain ⟨-, rfl⟩ := readiness_claim hclaim
    exact .inl ⟨rfl, h.2⟩
  | lose _ hlost =>
    rw [TokenRegion.claim, h.1] at hlost
    cases hlost
  | come hplain =>
    rw [Party.claims, hmonitor] at hplain
    exact absurd rfl hplain
  | lay => exact .inl ⟨region.version_store _, h⟩
  | ready => exact .inl ⟨rfl, h⟩
  | announce =>
    obtain rfl : published = 0 := h
    exact .inr ⟨rfl, Nat.zero_le _, rfl⟩
  | openGate =>
    rw [if_pos hmonitor]
    exact .inl ⟨rfl, h⟩
  | jam => exact .inl ⟨rfl, h⟩
  | republish =>
    obtain rfl : published = 1 := h
    exact .inr ⟨rfl, Nat.le_refl _, rfl⟩
  | _ => exact h.elim

end Entry

namespace Tuning

/-- What the region must have come to, with a monitor at this point. -/
def Fits (region : TokenRegion) (published : ℕ) : Tuning → Prop
  | .entering entry => entry.Leads region.readiness published
  | .resting => True
  | .comparing version before => version = region.version ∧ region.parameters = before.parameters
  | .clear => region.version = region.acked
  | .rated _ => region.version = region.acked
  | .ticked _ _ => region.version = region.acked
  | .storing _ => region.version = region.acked
  | .publishing word => region.version = region.acked ∧ region.rate = atLeast 1 word

variable {monitor : Monitor} {config : ThrottleConfig} {region after : TokenRegion}
variable {tuning turn : Tuning} {acts : List Act} {published : ℕ}

/-- Others do not disturb a monitor: they do not write its words, and once nothing is pending they
acknowledge nothing newer. -/
theorem Fits.of_parameters (h : tuning.Fits region published)
    (hparameters : after.parameters = region.parameters)
    (hacked : region.version = region.acked → after.acked = region.acked) :
    tuning.Fits after published := by
  have hversion := TokenRegion.version_of_parameters hparameters
  have hclear : region.version = region.acked → after.version = after.acked := by
    intro hclear
    rw [hversion, hacked hclear, hclear]
  cases tuning with
  | entering entry =>
    rw [Fits, TokenRegion.readiness_of_parameters hparameters]
    exact h
  | resting => trivial
  | comparing version before => exact ⟨h.1.trans hversion.symm, hparameters.trans h.2⟩
  | publishing word =>
    refine ⟨hclear h.1, ?_⟩
    rw [TokenRegion.rate, TokenRegion.rateWord_of_parameters hparameters]
    exact h.2
  | _ => exact hclear h

/-- A monitor publishes twice when it takes the region over, and from then on only where nothing is
pending. -/
theorem Move.fits (hmove : Move monitor config region tuning acts after turn)
    (h : tuning.Fits region published) :
    (after.version = region.version ∧ turn.Fits after published) ∨
    (after = region.publish ∧ (published ≤ 1 ∨ region.version = region.acked) ∧
      turn.Fits after (published + 1)) := by
  cases hmove with
  | enter hmove =>
    exact (hmove.leads rfl h).imp_right fun ⟨hafter, hle, hleads⟩ => ⟨hafter, .inl hle, hleads⟩
  | settle => exact .inl ⟨rfl, trivial⟩
  | look => exact .inl ⟨rfl, rfl, rfl⟩
  | decline => exact .inl ⟨rfl, trivial⟩
  | pass hacked => exact .inl ⟨rfl, h.1.symm.trans hacked⟩
  | hold => exact .inl ⟨rfl, trivial⟩
  | store => exact .inl ⟨rfl, h, region.rate_setRate _⟩
  | publish => exact .inr ⟨rfl, .inr h.1, trivial⟩
  | _ => exact .inl ⟨rfl, h⟩

theorem Move.acked_eq (hmove : Move monitor config region tuning acts after turn) :
    after.acked = region.acked := by
  rcases hmove.written with ⟨rfl, -⟩ | ⟨-, hacked, -⟩
  · rfl
  · exact hacked

/-- What a monitor notes, and where. -/
theorem Move.acts_cases (hmove : Move monitor config region tuning acts after turn) :
    (acts = [] ∧ ((∃ entry, tuning = .entering entry) ∨
      (∀ entry, turn ≠ .entering entry) ∧ after.version = region.version ∧
        after.rate = region.rate)) ∨
    (∃ version before, tuning = .comparing version before ∧ acts = [.declined before region] ∧
      after = region ∧ turn = .resting) ∨
    (∃ word, tuning = .storing word ∧ acts = [.stored (atLeast 1 word)]) ∨
    ∃ word, tuning = .publishing word ∧
      acts = [.published region.publish.version (atLeast 1 word)] ∧ after = region.publish ∧
      turn = .resting := by
  cases hmove with
  | enter => exact .inl ⟨rfl, .inl ⟨_, rfl⟩⟩
  | decline => exact .inr (.inl ⟨_, _, rfl, rfl, rfl, rfl⟩)
  | store => exact .inr (.inr (.inl ⟨_, rfl, rfl⟩))
  | publish => exact .inr (.inr (.inr ⟨_, rfl, rfl, rfl, rfl⟩))
  | _ => exact .inl ⟨rfl, .inr ⟨nofun, rfl, rfl⟩⟩

end Tuning

namespace Regulation

variable {κ : Type} {monitor : Monitor} {config : ThrottleConfig} {now next : Regulation κ} {k : κ}
variable {region : TokenRegion} {refill : Refill} {reading : Reading} {tuning : Tuning}
variable {taken : List TokenUpdate} {acts : List Act}

/-! ## How often a monitor publishes

A monitor publishes twice as it enters, before anybody has acknowledged anything, and from then on
only after a look that found everything acknowledged. Once the version has come back to zero, that
never happens again: the acknowledged version stays at its greatest. -/

/-- The monitor fits, and it has stopped when the version is about to repeat. -/
structure Paced (now : Regulation κ) : Prop where
  /-- What the monitor is about to do fits the region. -/
  fits : now.tuning.Fits now.region now.published
  /-- The version comes back to zero once at most. -/
  published_le : now.published ≤ UInt64.size
  /-- Then the highest version has been acknowledged, and zero stays pending for good. -/
  full : now.published = UInt64.size → now.region.acked.toNat + 1 = UInt64.size

namespace Paced

/-- Where nothing is pending, everything that was published has been acknowledged. -/
theorem toNat_acked (h : now.Paced) (hcounted : now.handoff.Counted)
    (hclear : now.region.version = now.region.acked) :
    now.published < UInt64.size ∧ now.region.acked.toNat = now.published := by
  have hlt : now.published < UInt64.size := by
    refine Nat.lt_of_le_of_ne h.published_le fun hfull => ?_
    have hversion : now.region.version = UInt64.ofNat now.published := hcounted.version_eq
    have hacked := h.full hfull
    rw [← hclear, hversion, hfull] at hacked
    exact absurd hacked (by decide)
  refine ⟨hlt, ?_⟩
  rw [← hclear]
  exact hcounted.toNat_version hlt

theorem fresh (fallbackNs : κ → ℕ) : (Regulation.fresh fallbackNs).Paced where
  fits := ⟨rfl, rfl⟩
  published_le := Nat.zero_le _
  full := nofun

/-- The monitor's own steps keep its pace: it publishes for the last time with the greatest version
acknowledged. -/
theorem regulate (h : now.Paced) (hcounted : now.handoff.Counted)
    (hmove : Tuning.Move monitor config now.region now.tuning acts region tuning) :
    (now.regulate acts region tuning).Paced := by
  have hacked := hmove.acked_eq
  rcases hmove.fits h.fits with ⟨hversion, hfits⟩ | ⟨rfl, hcause, hfits⟩
  · have hpublished := now.published_regulate acts tuning hversion
    refine ⟨hpublished ▸ hfits, hpublished ▸ h.published_le, ?_⟩
    rw [hpublished]
    intro hfull
    exact hacked ▸ h.full hfull
  · have hpublished := now.published_publish acts tuning
    have hsmall : now.published + 1 < UInt64.size ∨
        now.published < UInt64.size ∧ now.region.acked.toNat = now.published := by
      rcases hcause with hle | hclear
      · exact .inl ((Nat.succ_le_succ hle).trans_lt (by decide))
      · exact .inr (h.toNat_acked hcounted hclear)
    refine ⟨hpublished ▸ hfits, ?_, ?_⟩
    · rw [hpublished]
      omega
    · rw [hpublished]
      change _ → now.region.acked.toNat + 1 = _
      omega

/-- What a consumer acknowledges is not newer than the last publication. -/
theorem acked_of_read (h : now.Paced) (hcounted : now.handoff.Counted)
    (hmove : Reading.Move now.region (now.refill k) (now.reading k) taken region refill reading)
    (hclear : now.region.version = now.region.acked) : region.acked = now.region.acked := by
  obtain ⟨-, rfl, -⟩ | ⟨version, rate, intervalNs, -, hpoint, -, rfl, -⟩ := hmove.taken_cases
  · rfl
  · have hle : version.toNat ≤ now.published := (hcounted.timed hpoint).1
    have hacked := (h.toNat_acked hcounted hclear).2
    apply UInt64.toNat_inj.1
    rw [toNat_max]
    omega

variable [DecidableEq κ]

/-- Consumers keep the pace: nothing newer is acknowledged once nothing is pending. -/
theorem read (h : now.Paced) (hcounted : now.handoff.Counted)
    (hmove : Reading.Move now.region (now.refill k) (now.reading k) taken region refill reading) :
    (now.read k taken region refill reading).Paced := by
  have hparameters : region.parameters = now.region.parameters := by
    obtain ⟨-, rfl, -⟩ | ⟨version, rate, intervalNs, -, -, -, rfl, -⟩ := hmove.taken_cases <;> rfl
  refine ⟨h.fits.of_parameters hparameters (h.acked_of_read hcounted hmove), h.published_le, ?_⟩
  intro hfull
  have hacked := h.full hfull
  obtain ⟨-, rfl, -⟩ | ⟨version, rate, intervalNs, -, -, -, rfl, -⟩ := hmove.taken_cases
  · exact hacked
  · have hword := version.toNat_lt_size
    change (max now.region.acked version).toNat + 1 = _
    rw [toNat_max]
    omega

/-- **Every step keeps the pace.** -/
theorem step (h : now.Paced) (hcounted : now.handoff.Counted)
    (hstep : Step monitor config now next) : next.Paced := by
  cases hstep with
  | regulate hmove => exact h.regulate hcounted hmove
  | read k hmove => exact h.read hcounted hmove
  | aside hparameters hacked =>
    exact ⟨h.fits.of_parameters hparameters fun _ => hacked, h.published_le, fun hfull =>
      hacked ▸ h.full hfull⟩

end Paced

/-- The pace is kept in whatever comes about. -/
theorem Reachable.paced [DecidableEq κ] (h : Reachable monitor config now) : now.Paced := by
  induction h with
  | fresh fallbackNs => exact .fresh fallbackNs
  | step hreach hstep ih => exact ih.step hreach.handoff.counted hstep

/-! ## What a monitor waits for

The log tells what the region cannot: by whom a rate was taken and from which publication. A
publication is outstanding by the log as long as it is pending by the region (`Heeded.outstanding`),
which holds because the first to acknowledge it has also loaded its rate (`Pending.read`). -/

/-- A rate has been published, and nobody has taken it from that publication. -/
def Outstanding (log : List (Note κ)) (version : UInt64) (rate : UInt32) : Prop :=
  ∃ later earlier, log = later ++ .monitor (.published version rate) :: earlier ∧
    ∀ k update, .taken k update ∈ later → ¬ (update.version = version ∧ update.rate = rate)

variable {log : List (Note κ)} {version : UInt64} {rate : UInt32}

/-- A note is the publication itself, or it comes later and is not of somebody who takes the rate.
-/
theorem outstanding_cons {note : Note κ} (h : Outstanding (note :: log) version rate) :
    note = .monitor (.published version rate) ∨
      Outstanding log version rate ∧
        ∀ k update, note = .taken k update → ¬ (update.version = version ∧ update.rate = rate) := by
  obtain ⟨later, earlier, hlog, huntaken⟩ := h
  cases later with
  | nil => exact .inl (List.cons.inj hlog).1
  | cons first later =>
    obtain ⟨rfl, hrest⟩ := List.cons.inj hlog
    refine .inr ⟨⟨later, earlier, hrest, fun k update hmem => ?_⟩, ?_⟩
    · exact huntaken k update (List.mem_cons_of_mem _ hmem)
    · rintro k update rfl
      exact huntaken k update List.mem_cons_self

/-- What is outstanding was so before the consumers took what they took, and is not among it. -/
theorem outstanding_taken
    (h : Outstanding (taken.map (.taken k) ++ log) version rate) :
    Outstanding log version rate ∧
      ∀ update ∈ taken, ¬ (update.version = version ∧ update.rate = rate) := by
  induction taken with
  | nil => exact ⟨h, nofun⟩
  | cons first taken ih =>
    rcases outstanding_cons h with heq | ⟨h, hfirst⟩
    · cases heq
    · obtain ⟨hlog, huntaken⟩ := ih h
      refine ⟨hlog, ?_⟩
      intro update hmem
      rcases List.mem_cons.1 hmem with rfl | hmem
      · exact hfirst k update rfl
      · exact huntaken update hmem

/-- What does not stand in the front part of a log stands behind it. -/
theorem suffix_of_append {α : Type} {entry : α} {front rest tail : List α}
    (h : entry :: tail <:+ front ++ rest) (hfront : entry ∉ front) : entry :: tail <:+ rest := by
  induction front with
  | nil => exact h
  | cons first front ih =>
    rcases List.suffix_cons_iff.1 h with heq | h
    · exact absurd ((List.cons.inj heq).1 ▸ List.mem_cons_self) hfront
    · exact ih h fun hmem => hfront (List.mem_cons_of_mem _ hmem)

/-- The rate was published last, and the publication is pending. -/
structure Pending (now : Regulation κ) (version : UInt64) (rate : UInt32) : Prop where
  /-- The monitor has entered the region. -/
  entered : ∀ entry, now.tuning ≠ .entering entry
  version_eq : version = now.region.version
  rate_eq : rate = now.region.rate
  /-- Nobody has acknowledged a version so new. -/
  acked_lt : now.region.acked.toNat < now.published

namespace Pending

/-- While a publication is pending the monitor has stored nothing. -/
theorem owes_eq_false (h : now.Pending version rate) (hpaced : now.Paced)
    (hcounted : now.handoff.Counted) : now.tuning.owes = false := by
  have hentered := h.entered
  have hlt := h.acked_lt
  have hfits := hpaced.fits
  generalize now.tuning = point at hentered hfits
  cases point with
  | entering entry => exact absurd rfl (hentered entry)
  | publishing word =>
    have hacked := (hpaced.toNat_acked hcounted hfits.1).2
    omega
  | _ => rfl

/-- **The first to acknowledge a publication takes its rate**: nothing has been stored since. So a
publication from which nobody has taken its rate stays pending. -/
theorem read [DecidableEq κ] (h : now.Pending version rate) (hpaced : now.Paced)
    (hreach : now.handoff.Reachable)
    (hmove : Reading.Move now.region (now.refill k) (now.reading k) taken region refill reading)
    (huntaken : ∀ update ∈ taken, ¬ (update.version = version ∧ update.rate = rate)) :
    (now.read k taken region refill reading).Pending version rate := by
  obtain ⟨-, rfl, -⟩ | ⟨loaded, found, intervalNs, rfl, hpoint, -, rfl, -⟩ := hmove.taken_cases
  · exact ⟨h.entered, h.version_eq, h.rate_eq, h.acked_lt⟩
  · refine ⟨h.entered, h.version_eq, h.rate_eq, ?_⟩
    change (max now.region.acked loaded).toNat < now.published
    rw [toNat_max, Nat.max_lt]
    refine ⟨h.acked_lt, ?_⟩
    by_contra! hle
    -- the consumer has loaded the last version, so it has loaded the rate that came with it
    have hlast : loaded.toNat = now.published :=
      Nat.le_antisymm (hreach.counted.timed hpoint).1 hle
    have hwrap : now.published < UInt64.size := hlast ▸ loaded.toNat_lt_size
    have hcoherent := hreach.coherent hwrap
    have hsound := hcoherent.sound k
    rw [show now.handoff.reading k = _ from hpoint] at hsound
    have hversion : loaded = now.region.version :=
      UInt64.toNat_inj.1 (hlast.trans hcoherent.version_eq.symm)
    have hrate : found = now.region.rate :=
      hsound.2 (fun _ => h.owes_eq_false hpaced hreach.counted) hlast
    exact huntaken _ List.mem_cons_self
      ⟨hversion.trans h.version_eq.symm, hrate.trans h.rate_eq.symm⟩

end Pending

/-- Nothing is written before the last publication has been taken, and a sample without effect
leaves the monitor's words as they are. -/
structure Heeded (now : Regulation κ) : Prop where
  /-- A publication of the monitor's that nobody has taken stands in the region. -/
  outstanding : ∀ version rate, Outstanding now.log version rate → now.Pending version rate
  /-- The monitor wrote when none was outstanding. -/
  written : ∀ act earlier, .monitor act :: earlier <:+ now.log → act.Writes →
    ∀ version rate, ¬ Outstanding earlier version rate
  /-- A sample that found one pending changed no parameter. -/
  declined : ∀ before after, .monitor (.declined before after) ∈ now.log →
    after.parameters = before.parameters

namespace Heeded

theorem fresh (fallbackNs : κ → ℕ) : (Regulation.fresh fallbackNs).Heeded where
  outstanding version rate h := by
    obtain ⟨later, earlier, hlog, -⟩ := h
    cases later <;> cases hlog
  written act earlier hsuffix := by
    cases List.suffix_nil.1 hsuffix
  declined before after hmem := nomatch hmem

/-- Where nothing is pending, nothing is outstanding. -/
theorem not_outstanding (h : now.Heeded) (hpaced : now.Paced) (hcounted : now.handoff.Counted)
    (hclear : now.region.version = now.region.acked) (version : UInt64) (rate : UInt32) :
    ¬ Outstanding now.log version rate := by
  intro houtstanding
  have hlt := (h.outstanding version rate houtstanding).acked_lt
  rw [(hpaced.toNat_acked hcounted hclear).2] at hlt
  exact Nat.lt_irrefl _ hlt

/-- An act of the monitor is noted. -/
theorem act (h : now.Heeded) {act : Act}
    (hwrites : act.Writes → ∀ version rate, ¬ Outstanding now.log version rate)
    (hdeclined : ∀ before after, act = .declined before after →
      after.parameters = before.parameters)
    (houtstanding : ∀ version rate, Outstanding (.monitor act :: now.log) version rate →
      (now.regulate [act] region tuning).Pending version rate) :
    (now.regulate [act] region tuning).Heeded where
  outstanding := houtstanding
  written other earlier hsuffix hother := by
    rcases List.suffix_cons_iff.1 hsuffix with heq | hsuffix
    · obtain ⟨hnote, rfl⟩ := List.cons.inj heq
      obtain rfl := Note.monitor.inj hnote
      exact hwrites hother
    · exact h.written other earlier hsuffix hother
  declined before after hmem := by
    rcases List.mem_cons.1 hmem with heq | hmem
    · exact hdeclined before after (Note.monitor.inj heq).symm
    · exact h.declined before after hmem

/-- **The monitor notes only what it may do**: it stores and publishes where nothing is pending, and
so nothing is outstanding. -/
theorem regulate (h : now.Heeded) (hpaced : now.Paced) (hcounted : now.handoff.Counted)
    (hmove : Tuning.Move monitor config now.region now.tuning acts region tuning) :
    (now.regulate acts region tuning).Heeded := by
  have hfits := hpaced.fits
  rcases hmove.acts_cases with ⟨rfl, hcause⟩ | ⟨version, before, hturn, rfl, rfl, rfl⟩ |
    ⟨word, hturn, rfl⟩ | ⟨word, hturn, rfl, rfl, rfl⟩
  · refine ⟨?_, h.written, h.declined⟩
    intro version rate houtstanding
    have hpending := h.outstanding version rate houtstanding
    rcases hcause with ⟨entry, hentering⟩ | ⟨hentered, hversion, hrate⟩
    · exact absurd hentering (hpending.entered entry)
    · refine ⟨hentered, hpending.version_eq.trans hversion.symm,
        hpending.rate_eq.trans hrate.symm, ?_⟩
      rw [now.published_regulate [] tuning hversion]
      exact (congrArg UInt64.toNat hmove.acked_eq).trans_lt hpending.acked_lt
  · -- a sample is declined
    rw [hturn] at hfits
    refine h.act (fun hwrites => hwrites.elim) ?_ ?_
    · rintro _ _ ⟨⟩
      exact hfits.2
    · intro other rate houtstanding
      rcases outstanding_cons houtstanding with heq | ⟨houtstanding, -⟩
      · cases heq
      · have hpending := h.outstanding other rate houtstanding
        refine ⟨nofun, hpending.version_eq, hpending.rate_eq, ?_⟩
        rw [now.published_regulate _ _ rfl]
        exact hpending.acked_lt
  · -- a rate is stored, while nothing is pending
    rw [hturn] at hfits
    have hnone := h.not_outstanding hpaced hcounted hfits
    refine h.act (fun _ => hnone) (fun _ _ => nofun) ?_
    intro version rate houtstanding
    rcases outstanding_cons houtstanding with heq | ⟨houtstanding, -⟩
    · cases heq
    · exact absurd houtstanding (hnone version rate)
  · -- the rate that is stored is published, and only this publication is pending then
    rw [hturn] at hfits
    have hnone := h.not_outstanding hpaced hcounted hfits.1
    refine h.act (fun _ => hnone) (fun _ _ => nofun) ?_
    intro version rate houtstanding
    rcases outstanding_cons houtstanding with heq | ⟨houtstanding, -⟩
    · cases heq
      refine ⟨nofun, rfl, hfits.2.symm, ?_⟩
      rw [now.published_publish]
      exact Nat.lt_succ_of_le hcounted.acked_le
    · exact absurd houtstanding (hnone version rate)

variable [DecidableEq κ]

/-- Consumers leave the monitor's notes alone, and a publication that nobody has taken stays
pending. -/
theorem read (h : now.Heeded) (hpaced : now.Paced) (hreach : now.handoff.Reachable)
    (hmove : Reading.Move now.region (now.refill k) (now.reading k) taken region refill reading) :
    (now.read k taken region refill reading).Heeded where
  outstanding version rate houtstanding := by
    obtain ⟨houtstanding, huntaken⟩ := outstanding_taken houtstanding
    exact (h.outstanding version rate houtstanding).read hpaced hreach hmove huntaken
  written act earlier hsuffix := h.written act earlier (suffix_of_append hsuffix (by simp))
  declined before after hmem := by
    rcases List.mem_append.1 hmem with hmem | hmem
    · simp at hmem
    · exact h.declined before after hmem

/-- Every step keeps what the log says. -/
theorem step (h : now.Heeded) (hpaced : now.Paced) (hreach : now.handoff.Reachable)
    (hstep : Step monitor config now next) : next.Heeded := by
  cases hstep with
  | regulate hmove => exact h.regulate hpaced hreach.counted hmove
  | read k hmove => exact h.read hpaced hreach hmove
  | @aside region hparameters hacked =>
    refine ⟨?_, h.written, h.declined⟩
    intro version rate houtstanding
    have hpending := h.outstanding version rate houtstanding
    have hversion := TokenRegion.version_of_parameters hparameters
    have hrate : region.rate = now.region.rate :=
      congrArg (atLeast 1) (TokenRegion.rateWord_of_parameters hparameters)
    exact ⟨hpending.entered, hpending.version_eq.trans hversion.symm,
      hpending.rate_eq.trans hrate.symm, hacked ▸ hpending.acked_lt⟩

end Heeded

/-- What the log says holds in whatever comes about. -/
theorem Reachable.heeded [DecidableEq κ] (h : Reachable monitor config now) : now.Heeded := by
  induction h with
  | fresh fallbackNs => exact .fresh fallbackNs
  | step hreach hstep ih => exact ih.step hreach.paced hreach.handoff hstep

/-! ## A consumer that is alone

With several consumers one may acknowledge for another that sleeps through many publications. With
one, the monitor waits for it every time, apart from the two publications of its entry. -/

/-- Somebody has taken something. -/
def Begun (log : List (Note κ)) : Prop := ∃ k update, .taken k update ∈ log

/-- A consumer that nobody else acknowledges for is one publication behind at most, once it has
taken something. -/
structure Stepwise (now : Regulation κ) (k : κ) : Prop where
  /-- It has taken nothing, and only what is published on entering can be waiting for it. -/
  before : ¬ Begun now.log →
    (now.refill k).seen = 0 ∧ now.region.acked = 0 ∧ now.published ≤ 2
  /-- Once something is taken, it has seen a version. -/
  seen_pos : Begun now.log → now.published < UInt64.size → 0 < (now.refill k).seen.toNat
  /-- The region is at what it has seen, or one ahead. -/
  version_le : Begun now.log → now.region.version.toNat ≤ (now.refill k).seen.toNat + 1
  /-- So is what it has loaded. -/
  loaded_le : Begun now.log → ∀ version, (now.reading k).version? = some version →
    version.toNat ≤ (now.refill k).seen.toNat + 1
  /-- Only this consumer acknowledges. -/
  acked_eq : now.published < UInt64.size → now.region.acked = (now.refill k).seen
  /-- Since its first update it has left none out. -/
  unskipped : ∀ j update earlier, .taken j update :: earlier <:+ now.log → Begun earlier →
    update.skipped = 0

/-- The notes of a monitor are not of somebody who has taken something. -/
theorem begun_append (acts : List Act) (log : List (Note κ)) :
    Begun (acts.map .monitor ++ log) ↔ Begun log := by
  simp [Begun]

namespace Stepwise

theorem fresh (fallbackNs : κ → ℕ) (k : κ) : (Regulation.fresh fallbackNs).Stepwise k where
  before _ := ⟨rfl, rfl, Nat.zero_le _⟩
  seen_pos hbegun := by
    obtain ⟨_, _, hmem⟩ := hbegun
    cases hmem
  version_le _ := Nat.zero_le _
  loaded_le _ := nofun
  acked_eq _ := rfl
  unskipped _ _ _ hsuffix := by
    cases List.suffix_nil.1 hsuffix

/-- Nothing was published and nothing taken. The consumer may have loaded the version. -/
theorem of_eq (h : now.Stepwise k) (hversion : next.region.version = now.region.version)
    (hacked : next.region.acked = now.region.acked) (hpublished : next.published = now.published)
    (hrefill : next.refill k = now.refill k)
    (hreading : ∀ version, (next.reading k).version? = some version →
      version = now.region.version ∨ (now.reading k).version? = some version)
    (hlog : ∃ acts : List Act, next.log = acts.map .monitor ++ now.log) : next.Stepwise k := by
  obtain ⟨acts, hlog⟩ := hlog
  have hbegun : Begun next.log ↔ Begun now.log := hlog ▸ begun_append acts now.log
  constructor
  case before =>
    rw [hbegun, hrefill, hacked, hpublished]
    exact h.before
  case seen_pos =>
    rw [hbegun, hrefill, hpublished]
    exact h.seen_pos
  case version_le =>
    rw [hbegun, hrefill, hversion]
    exact h.version_le
  case loaded_le =>
    rw [hbegun, hrefill]
    intro hbegun version hloaded
    rcases hreading version hloaded with rfl | hloaded
    · exact h.version_le hbegun
    · exact h.loaded_le hbegun version hloaded
  case acked_eq =>
    rw [hrefill, hacked, hpublished]
    exact h.acked_eq
  case unskipped =>
    intro j update earlier hsuffix
    rw [hlog] at hsuffix
    exact h.unskipped j update earlier (suffix_of_append hsuffix (by simp))

/-- The consumer is not more than one publication late after the monitor has published, either: the
monitor has waited for it, or this is the first or the second publication. -/
theorem publish (h : now.Stepwise k) (hpaced : now.Paced) (hcounted : now.handoff.Counted)
    (hcause : now.published ≤ 1 ∨ now.region.version = now.region.acked) (tuning : Tuning)
    (acts : List Act) : (now.regulate acts now.region.publish tuning).Stepwise k := by
  have hpublished := now.published_publish acts tuning
  -- the version does not repeat by this publication
  have hlt : now.published < UInt64.size := by
    rcases hcause with hle | hclear
    · exact hle.trans_lt (by decide)
    · exact (hpaced.toNat_acked hcounted hclear).1
  have hacked := h.acked_eq hlt
  constructor
  case before =>
    rw [hpublished, regulate, begun_append]
    intro hbegun
    obtain ⟨hseen, hzero, -⟩ := h.before hbegun
    refine ⟨hseen, hzero, ?_⟩
    rcases hcause with hle | hclear
    · omega
    · have hnone := (hpaced.toNat_acked hcounted hclear).2
      rw [hzero, show (0 : UInt64).toNat = 0 from rfl] at hnone
      omega
  case seen_pos =>
    rw [regulate, begun_append]
    exact fun hbegun _ => h.seen_pos hbegun hlt
  case version_le =>
    rw [regulate, begun_append]
    intro hbegun
    have hpos := h.seen_pos hbegun hlt
    have hversion : (now.region.version + 1).toNat ≤ now.published + 1 := by
      rw [UInt64.toNat_add, show now.region.version.toNat = now.published from
        hcounted.toNat_version hlt]
      exact Nat.mod_le _ _
    change (now.region.version + 1).toNat ≤ (now.refill k).seen.toNat + 1
    rcases hcause with hle | hclear
    · omega
    · have hall := (hpaced.toNat_acked hcounted hclear).2
      rw [hacked] at hall
      omega
  case loaded_le =>
    rw [regulate, begun_append]
    exact h.loaded_le
  case acked_eq =>
    exact fun _ => hacked
  case unskipped =>
    intro j update earlier hsuffix
    exact h.unskipped j update earlier (suffix_of_append hsuffix (by simp))

/-- The monitor keeps its only consumer close behind. -/
theorem regulate (h : now.Stepwise k) (hpaced : now.Paced) (hcounted : now.handoff.Counted)
    (hmove : Tuning.Move monitor config now.region now.tuning acts region tuning) :
    (now.regulate acts region tuning).Stepwise k := by
  rcases hmove.fits hpaced.fits with ⟨hversion, -⟩ | ⟨rfl, hcause, -⟩
  · exact h.of_eq hversion hmove.acked_eq (now.published_regulate acts tuning hversion) rfl
      (fun _ hloaded => .inr hloaded) ⟨acts, rfl⟩
  · exact h.publish hpaced hcounted hcause tuning acts

variable [DecidableEq κ]

/-- **What a consumer takes after its first update is the next publication.** -/
theorem read (h : now.Stepwise k) (hpaced : now.Paced) (hcounted : now.handoff.Counted)
    (hmove : Reading.Move now.region (now.refill k) (now.reading k) taken region refill reading) :
    (now.read k taken region refill reading).Stepwise k := by
  have hrefill : (now.read k taken region refill reading).refill k = refill :=
    Function.update_self _ _ _
  have hreading : (now.read k taken region refill reading).reading k = reading :=
    Function.update_self _ _ _
  obtain ⟨rfl, rfl, rfl⟩ | ⟨version, rate, intervalNs, rfl, hpoint, rfl, rfl, rfl⟩ :=
    hmove.taken_cases
  · refine h.of_eq rfl rfl rfl hrefill ?_ ⟨[], rfl⟩
    rw [hreading]
    exact fun version => hmove.version_cases
  · have hloaded : (now.reading k).version? = some version := by
      rw [hpoint]
      rfl
    have hnewer : now.published < UInt64.size → (now.refill k).seen.toNat < version.toNat :=
      fun hwrap => UInt64.lt_iff_toNat_lt.1 ((hcounted.timed hpoint).2 hwrap)
    have hversion : now.published < UInt64.size → now.region.version.toNat = now.published :=
      hcounted.toNat_version
    constructor
    case before =>
      exact fun hbegun => absurd ⟨k, _, List.mem_cons_self⟩ hbegun
    case seen_pos =>
      rw [hrefill]
      exact fun _ hwrap => (Nat.zero_le _).trans_lt (hnewer hwrap)
    case version_le =>
      rw [hrefill]
      intro _
      change now.region.version.toNat ≤ version.toNat + 1
      rcases Nat.lt_or_eq_of_le hpaced.published_le with hwrap | hfull
      · have hpos := hnewer hwrap
        have hlast := hversion hwrap
        by_cases hbegun : Begun now.log
        · have hclose := h.version_le hbegun
          omega
        · have hfew := (h.before hbegun).2.2
          omega
      · -- the version has just repeated
        rw [show now.region.version = UInt64.ofNat now.published from hcounted.version_eq, hfull]
        exact Nat.zero_le _
    case loaded_le =>
      rw [hreading]
      exact fun _ => nofun
    case acked_eq =>
      rw [hrefill]
      intro hwrap
      change max now.region.acked version = version
      rw [h.acked_eq hwrap]
      apply UInt64.toNat_inj.1
      rw [toNat_max]
      exact Nat.max_eq_right (Nat.le_of_lt (hnewer hwrap))
    case unskipped =>
      intro j update earlier hsuffix hbegun
      rcases List.suffix_cons_iff.1 hsuffix with heq | hsuffix
      · obtain ⟨hnote, rfl⟩ := List.cons.inj heq
        obtain ⟨-, rfl⟩ := Note.taken.inj hnote
        apply UInt64.toNat_inj.1
        rw [TokenUpdate.toNat_skipped_since]
        have hnext := h.loaded_le hbegun version hloaded
        change _ = 0
        omega
      · exact h.unskipped j update earlier hsuffix hbegun

/-- Every step keeps the only consumer close behind. -/
theorem step (h : now.Stepwise k) (honly : ∀ j, j = k) (hpaced : now.Paced)
    (hcounted : now.handoff.Counted) (hstep : Step monitor config now next) : next.Stepwise k := by
  cases hstep with
  | regulate hmove => exact h.regulate hpaced hcounted hmove
  | read j hmove =>
    obtain rfl := honly j
    exact h.read hpaced hcounted hmove
  | aside hparameters hacked =>
    exact h.of_eq (TokenRegion.version_of_parameters hparameters) hacked rfl rfl
      (fun _ hloaded => .inr hloaded) ⟨[], rfl⟩

end Stepwise

/-- The only consumer is close behind in whatever comes about. -/
theorem Reachable.stepwise [DecidableEq κ] (h : Reachable monitor config now) (k : κ)
    (honly : ∀ j, j = k) : now.Stepwise k := by
  induction h with
  | fresh fallbackNs => exact .fresh fallbackNs k
  | step hreach hstep ih => exact ih.step honly hreach.paced hreach.handoff.counted hstep

/-! ## The result -/

/-- **A monitor waits for its consumers.** What has been acknowledged has been published, so the
acknowledged version is not ahead of the version. (There are so many versions that they never repeat
in practice; should they, the monitor would publish nothing from then on.) Before a rate is stored
or published, somebody has taken the rate that was published before, from that publication. A sample
that finds a publication pending leaves the words of the monitor as they are, the ticks among them.
And a consumer that is the only one skips nothing after its first update. -/
theorem Reachable.back_pressure [DecidableEq κ] (h : Reachable monitor config now) :
    (now.region.acked.toNat ≤ now.published ∧ now.published ≤ UInt64.size ∧
      (now.published < UInt64.size → now.region.version.toNat = now.published ∧
        now.region.acked ≤ now.region.version)) ∧
    (∀ later middle earlier act version rate,
      now.log = later ++ .monitor act ::
        (middle ++ .monitor (.published version rate) :: earlier) → act.Writes →
      ∃ k update, .taken k update ∈ middle ∧ update.version = version ∧ update.rate = rate) ∧
    (∀ before after, .monitor (.declined before after) ∈ now.log →
      after.parameters = before.parameters) ∧
    ((∀ i j : κ, i = j) → ∀ later k update earlier, now.log = later ++ .taken k update :: earlier →
      (∃ j first, .taken j first ∈ earlier) → update.skipped = 0) := by
  have hcounted := h.handoff.counted
  refine ⟨⟨hcounted.acked_le, h.paced.published_le, ?_⟩, ?_, h.heeded.declined, ?_⟩
  · intro hwrap
    have hversion := hcounted.toNat_version hwrap
    refine ⟨hversion, UInt64.le_iff_toNat_le.2 ?_⟩
    exact hcounted.acked_le.trans (Nat.le_of_eq hversion.symm)
  · intro later middle earlier act version rate hlog hwrites
    by_contra! huntaken
    refine h.heeded.written act _ ⟨later, hlog.symm⟩ hwrites version rate ⟨middle, earlier, rfl, ?_⟩
    rintro k update hmem ⟨hversion, hrate⟩
    exact huntaken k update hmem hversion hrate
  · intro honly later k update earlier hlog hbegun
    exact (h.stepwise k fun j => honly j k).unskipped k update earlier ⟨later, hlog.symm⟩ hbegun

/-- A monitor takes a region over and finds its publication pending; the only consumer takes it, and
has skipped the one before. Then the rates 2 and 3 are published, and in between the consumer takes
the first of them. -/
theorem back_pressure_of_climbing :
    ∃ (monitor : Monitor) (config : ThrottleConfig) (now : Regulation (Fin 1))
      (middle earlier : List (Note (Fin 1))),
      Reachable monitor config now ∧
      now.log = .monitor (.published 4 3) :: (middle ++ .monitor (.published 3 2) :: earlier) ∧
      (∃ first, .taken 0 first ∈ earlier ∧ first.skipped = 1) ∧
      (∃ before, .monitor (.declined before before) ∈ earlier) ∧
      now.region.acked ≤ now.region.version ∧
      ∃ k update, .taken k update ∈ middle ∧ update.version = 3 ∧ update.rate = 2 := by
  let monitor : Monitor := ⟨⟨0, 50⟩, "group", ⟨10, 5⟩⟩
  let config : ThrottleConfig := {}
  let ready : TokenRegion := (TokenRegion.justSetUp 50 (ThrottleConfig.waitIntervalNs {})).publish
  have hattach : Entry.Moves (monitor.party config) ({}, .outside) (ready, .attached) :=
    .attach rfl rfl
  have hentered : Tuning.Moves monitor config {} (.entering .outside) [] ready .resting :=
    (Tuning.Moves.enter hattach).tail .settle
  obtain ⟨_, hsteps⟩ := (fresh fun _ : Fin 1 => 0).steps_of_tuning hentered
  have hone := (Reachable.fresh _).steps hsteps
  -- the second publication is pending
  have hpending : monitor.controller.feed ready 10 50 = (none, ready) :=
    Controller.feed_of_isPending rfl
  obtain ⟨_, htwo⟩ := hone.feed rfl 10 50 hpending
  let first : TokenUpdate := ⟨2, 1, 1, ready.intervalNs⟩
  have hfirst : ready.consume 0 = (some first, { ready with acked := 2 }) := by decide
  have hthree := htwo.consume 0 rfl hfirst
  -- it has been taken, so rates are published, with the consumer in between
  let twofold : TokenRegion := { ready with acked := 2, rateWord := 2, ticks := 1, version := 3 }
  have htwofold : monitor.controller.feed { ready with acked := 2 } 10 50 = (some 2, twofold) := by
    decide
  obtain ⟨_, hfour⟩ := hthree.feed rfl 10 50 htwofold
  let second : TokenUpdate := ⟨3, 0, 2, ready.intervalNs⟩
  have hsecond : twofold.consume 2 = (some second, { twofold with acked := 3 }) := by
    decide
  have hfive := hfour.consume 0 rfl hsecond
  let threefold : TokenRegion :=
    { twofold with acked := 3, rateWord := 3, ticks := 2, version := 4 }
  have hthreefold : monitor.controller.feed { twofold with acked := 3 } 10 50 =
      (some 3, threefold) := by decide
  obtain ⟨_, hsix⟩ := hfive.feed rfl 10 50 hthreefold
  obtain ⟨-, hanswered, -⟩ := hsix.back_pressure
  refine ⟨monitor, config, _, [.monitor (.stored 3), .taken 0 second],
    [.monitor (.stored 2), .taken 0 first, .monitor (.declined ready ready)],
    hsix, rfl, ⟨first, .tail _ (.head _), rfl⟩, ⟨ready, .tail _ (.tail _ (.head _))⟩,
    (by decide : (3 : UInt64) ≤ 4), ?_⟩
  exact hanswered [] _ _ (.published 4 3) 3 2 rfl trivial

end Regulation

end GpuQuota.Pacing
