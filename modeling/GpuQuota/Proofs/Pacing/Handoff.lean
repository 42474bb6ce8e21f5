import GpuQuota.Pacing.Feedback
import GpuQuota.Pacing.Limiter
import Mathlib.Data.Nat.Notation
import Mathlib.Logic.Function.Basic
import Mathlib.Logic.Relation

/-!
# The last rate is never lost

A rate and its version are two words, and nothing locks them together. A writer stores the rate and
then raises the version; a refill loads the version and then the rate. Any number of both do so at
once, one access at a time (`Handoff.Step`), so a refill may pair an old version with a newer rate,
and a rate may be overwritten before anybody has read it.

What cannot happen is that a refill holds the version of the last publication with an older rate: a
rate is always loaded after its version, so what is stored later is also published later
(`Handoff.Covers`). So once every writer has published what it stored, a refill either holds the
rate that is stored or sees a version that it does not know (`Handoff.Reachable.rate_eq_or_stale`).

Versions are words; nothing is said once so many publications have been made that they repeat.
-/

namespace GpuQuota.Pacing

/-- How far a refill has come with taking a publication. -/
inductive Reading where
  /-- nothing is loaded -/
  | resting
  /-- the version is loaded, and is not the one seen last -/
  | looked (version : UInt64)
  /-- the rate is loaded too -/
  | rated (version : UInt64) (rate : UInt32)
  /-- everything is loaded and nothing is acknowledged yet -/
  | timed (version : UInt64) (rate : UInt32) (intervalNs : UInt64)
  deriving DecidableEq

/-- A region with its writers (`ω`) and its consumers (`κ`). -/
structure Handoff (ω κ : Type) where
  region : TokenRegion
  /-- whether a writer has stored a rate that it has not published -/
  owing : ω → Bool
  /-- what each consumer has seen and applies -/
  refill : κ → Refill
  /-- how far each consumer has come -/
  reading : κ → Reading
  /-- how many publications there have been -/
  published : ℕ

namespace Handoff

variable {ω κ : Type} [DecidableEq ω] [DecidableEq κ]

/-- A fresh region, and consumers that have seen nothing. -/
def fresh (fallbackNs : κ → ℕ) : Handoff ω κ where
  region := {}
  owing _ := false
  refill k := { intervalNs := fallbackNs k }
  reading _ := .resting
  published := 0

/-- A consumer has come to another point of its reading. -/
def turn (now : Handoff ω κ) (k : κ) (reading : Reading) : Handoff ω κ :=
  { now with reading := Function.update now.reading k reading }

/-- One access to the region. -/
inductive Step : Handoff ω κ → Handoff ω κ → Prop where
  /-- A writer stores a rate. -/
  | store {now : Handoff ω κ} (w : ω) (word : Int32) :
      Step now { now with
        region.rateWord := word, owing := Function.update now.owing w true }
  /-- A writer raises the version, whether or not it has stored anything. -/
  | publish {now : Handoff ω κ} (w : ω) :
      Step now { now with
        region := now.region.publish, owing := Function.update now.owing w false,
        published := now.published + 1 }
  /-- Somebody changes other words. -/
  | aside {now : Handoff ω κ} {region : TokenRegion} : region.version = now.region.version →
      region.rateWord = now.region.rateWord → region.acked = now.region.acked →
      Step now { now with region }
  /-- A consumer finds a version that it has not seen last. -/
  | look {now : Handoff ω κ} (k : κ) : now.reading k = .resting →
      now.region.version ≠ (now.refill k).seen →
      Step now (now.turn k (.looked now.region.version))
  /-- It loads the rate. -/
  | loadRate {now : Handoff ω κ} (k : κ) {version : UInt64} : now.reading k = .looked version →
      Step now (now.turn k (.rated version now.region.rate))
  /-- It loads the interval. -/
  | loadInterval {now : Handoff ω κ} (k : κ) {version : UInt64} {rate : UInt32} :
      now.reading k = .rated version rate →
      Step now (now.turn k (.timed version rate now.region.intervalNs))
  /-- A consumer acknowledges what it has loaded and applies it. -/
  | acknowledge {now : Handoff ω κ} (k : κ) {version : UInt64} {rate : UInt32}
      {intervalNs : UInt64} : now.reading k = .timed version rate intervalNs →
      Step now { now.turn k .resting with
        region.acked := max now.region.acked version,
        refill := Function.update now.refill k
          ((now.refill k).apply (.since (now.refill k).seen version rate intervalNs)) }

/-- What can come about on a fresh region. -/
inductive Reachable : Handoff ω κ → Prop where
  | fresh (fallbackNs : κ → ℕ) : Reachable (.fresh fallbackNs)
  | step {now next : Handoff ω κ} : Reachable now → Step now next → Reachable next

/-! ## Versions and rates

A consumer that has loaded a version is judged by what it has loaded since: a rate, if it has one,
must be the last or be followed by another publication. -/

/-- A version and a rate that were loaded in this order: unless something that is stored is still to
be published, the last version comes with the rate that is stored. -/
def Covers (now : Handoff ω κ) (version : UInt64) (rate : UInt32) : Prop :=
  version.toNat ≤ now.published ∧
    ((∀ w, now.owing w = false) → version.toNat = now.published → rate = now.region.rate)

/-- What a consumer has loaded fits together. -/
def Sound (now : Handoff ω κ) : Reading → Prop
  | .resting => True
  | .looked version => version.toNat ≤ now.published
  | .rated version rate => now.Covers version rate
  | .timed version rate _ => now.Covers version rate

/-- Everything that anybody has loaded fits together. -/
structure Coherent (now : Handoff ω κ) : Prop where
  /-- The version counts the publications. -/
  version_eq : now.region.version.toNat = now.published
  /-- The version that a consumer has seen and the rate that it applies belong together. -/
  covers : ∀ k, now.Covers (now.refill k).seen (now.refill k).rate
  /-- So does what it has loaded since. -/
  sound : ∀ k, now.Sound (now.reading k)

/-- The step keeps every pair of a version and a rate that fits together. -/
def Keeps (now next : Handoff ω κ) : Prop :=
  now.published ≤ next.published ∧
    ∀ version rate, now.Covers version rate → next.Covers version rate

variable {now next : Handoff ω κ}

section Keeps

omit [DecidableEq ω] [DecidableEq κ]

/-- What a consumer has loaded stays sound through a step that keeps it. -/
theorem Keeps.sound (h : Keeps now next) {reading : Reading} (hsound : now.Sound reading) :
    next.Sound reading := by
  cases reading with
  | resting => trivial
  | looked version => exact Nat.le_trans hsound h.1
  | rated version rate => exact h.2 version rate hsound
  | timed version rate intervalNs => exact h.2 version rate hsound

/-- While a writer owes its publication, nothing is claimed of what is stored. -/
theorem keeps_of_owing {w : ω} (hpublished : next.published = now.published)
    (howing : next.owing w = true) : Keeps now next := by
  refine ⟨Nat.le_of_eq hpublished.symm, ?_⟩
  rintro version rate ⟨hle, -⟩
  refine ⟨hpublished ▸ hle, ?_⟩
  intro hquiet
  rw [hquiet w] at howing
  cases howing

/-- After a publication no version that was loaded before is the last one. -/
theorem keeps_of_published (h : now.published < next.published) : Keeps now next := by
  refine ⟨Nat.le_of_lt h, ?_⟩
  rintro version rate ⟨hle, -⟩
  refine ⟨by omega, ?_⟩
  intro _ hlast
  omega

/-- What happens to other words does not matter. -/
theorem keeps_of_eq (hpublished : next.published = now.published) (howing : next.owing = now.owing)
    (hrate : next.region.rateWord = now.region.rateWord) : Keeps now next := by
  refine ⟨Nat.le_of_eq hpublished.symm, ?_⟩
  intro version rate hcovers
  have hread : next.region.rate = now.region.rate := by
    rw [TokenRegion.rate, TokenRegion.rate, hrate]
  rw [Covers, hpublished, howing, hread]
  exact hcovers

/-- What is new in a state has to fit; the rest is kept. -/
theorem Coherent.of_keeps (h : now.Coherent) (hkeeps : Keeps now next)
    (hversion : next.region.version.toNat = next.published)
    (hrefill : ∀ k, next.refill k = now.refill k ∨
      next.Covers (next.refill k).seen (next.refill k).rate)
    (hreading : ∀ k, next.reading k = now.reading k ∨ next.Sound (next.reading k)) :
    next.Coherent where
  version_eq := hversion
  covers k := by
    rcases hrefill k with heq | hcovers
    · rw [heq]
      exact hkeeps.2 _ _ (h.covers k)
    · exact hcovers
  sound k := by
    rcases hreading k with heq | hsound
    · rw [heq]
      exact hkeeps.sound (h.sound k)
    · exact hsound

end Keeps

/-- An entry of a family that was updated is the new one or an old one. -/
theorem update_cases {ι α : Type} [DecidableEq ι] (family : ι → α) (i j : ι) (member : α) :
    Function.update family i member j = family j ∨ Function.update family i member j = member := by
  by_cases h : j = i
  · subst h
    exact .inr (Function.update_self _ _ _)
  · exact .inl (Function.update_of_ne h _ _)

omit [DecidableEq ω] in
/-- A consumer that goes on keeps everything together if what it has loaded fits. -/
theorem Coherent.turn (h : now.Coherent) (k : κ) {reading : Reading} (hsound : now.Sound reading) :
    (now.turn k reading).Coherent := by
  refine h.of_keeps (keeps_of_eq rfl rfl rfl) h.version_eq (fun _ => .inl rfl) ?_
  intro other
  rcases update_cases now.reading k other reading with heq | heq
  · exact .inl heq
  · refine .inr ?_
    change now.Sound (Function.update now.reading k reading other)
    rw [heq]
    exact hsound

/-- **Every access keeps versions and rates together**, as long as versions do not repeat. -/
theorem Coherent.step (h : now.Coherent) (hstep : Step now next)
    (hwrap : next.published < UInt64.size) : next.Coherent := by
  cases hstep with
  | store w word =>
    exact h.of_keeps (keeps_of_owing rfl (Function.update_self w _ _)) h.version_eq
      (fun _ => .inl rfl) fun _ => .inl rfl
  | publish w =>
    have hversion : (now.region.version + 1).toNat = now.published + 1 := by
      rw [UInt64.toNat_add, h.version_eq]
      exact Nat.mod_eq_of_lt hwrap
    exact h.of_keeps (keeps_of_published (Nat.lt_succ_self _)) hversion (fun _ => .inl rfl)
      fun _ => .inl rfl
  | @aside region hversion hrate hacked =>
    have hkept : region.version.toNat = now.published := by
      rw [hversion, h.version_eq]
    exact h.of_keeps (keeps_of_eq rfl rfl hrate) hkept (fun _ => .inl rfl) fun _ => .inl rfl
  | look k hreading hnew => exact h.turn k (Nat.le_of_eq h.version_eq)
  | @loadRate k version hreading =>
    -- the rate is the one that is stored, whatever the version is by now
    have hlooked := h.sound k
    rw [hreading] at hlooked
    exact h.turn k ⟨hlooked, fun _ _ => rfl⟩
  | @loadInterval k version rate hreading =>
    have hrated := h.sound k
    rw [hreading] at hrated
    exact h.turn k hrated
  | @acknowledge k version rate intervalNs hreading =>
    have htimed := h.sound k
    rw [hreading] at htimed
    have hrested : (now.turn k .resting).Coherent := h.turn k trivial
    refine hrested.of_keeps (keeps_of_eq rfl rfl rfl) h.version_eq ?_ fun _ => .inl rfl
    intro other
    rcases update_cases now.refill k other
      ((now.refill k).apply (.since (now.refill k).seen version rate intervalNs)) with heq | heq
    · exact .inl heq
    · refine .inr ?_
      dsimp only
      rw [heq]
      exact htimed

omit [DecidableEq ω] [DecidableEq κ] in
theorem coherent_fresh (fallbackNs : κ → ℕ) : (fresh fallbackNs : Handoff ω κ).Coherent where
  version_eq := rfl
  covers _ := ⟨Nat.le_refl _, fun _ _ => rfl⟩
  sound _ := trivial

theorem published_le (hstep : Step now next) : now.published ≤ next.published := by
  cases hstep with
  | publish => exact Nat.le_succ _
  | _ => exact Nat.le_refl _

/-- Whatever comes about is coherent until versions repeat. -/
theorem Reachable.coherent (h : Reachable now) (hwrap : now.published < UInt64.size) :
    now.Coherent := by
  induction h with
  | fresh fallbackNs => exact coherent_fresh fallbackNs
  | step _ hstep ih =>
    exact (ih (Nat.lt_of_le_of_lt (published_le hstep) hwrap)).step hstep hwrap

/-! ## Without interruption

The program's own operations are runs of steps: what a writer stores and publishes, and what a
refill loads. -/

theorem Reachable.steps (h : Reachable now) (hsteps : Relation.ReflTransGen Step now next) :
    Reachable next := by
  induction hsteps with
  | refl => exact h
  | tail _ hstep ih => exact ih.step hstep

/-- A writer has left a region with what it wrote, published. -/
def written (now : Handoff ω κ) (w : ω) (region : TokenRegion) : Handoff ω κ :=
  { now with
    region, owing := Function.update now.owing w false, published := now.published + 1 }

/-- A consumer has refreshed its refill. -/
def refreshed (now : Handoff ω κ) (k : κ) : Handoff ω κ :=
  { now with
    region := ((now.refill k).refresh now.region).2.2
    refill := Function.update now.refill k ((now.refill k).refresh now.region).2.1 }

section Steps

variable (now)

/-- A writer that nobody interrupts leaves what it wrote, published. -/
theorem steps_write (w : ω) {region : TokenRegion} (hversion : region.version = now.region.version)
    (hacked : region.acked = now.region.acked) :
    Relation.ReflTransGen Step now (now.written w region.publish) := by
  have hstored : Step now _ := .store w region.rateWord
  have hwritten := (Relation.ReflTransGen.single hstored).tail (.aside hversion rfl hacked)
  have hpublished := hwritten.tail (.publish w)
  simp only [Function.update_idem] at hpublished
  exact hpublished

/-- This is how the controller announces a rate. -/
theorem steps_announce (w : ω) (rate : Int32) :
    Relation.ReflTransGen Step now (now.written w (Controller.announce now.region rate).2) :=
  now.steps_write w rfl rfl

/-- This is how a monitor adopts a limit. -/
theorem steps_retarget (w : ω) (limit : UInt32) :
    Relation.ReflTransGen Step now
      (now.written w (now.region.retarget limit).2.publish) := by
  refine now.steps_write w ?_ ?_ <;> rw [TokenRegion.retarget] <;> split <;> rfl

/-- This is how a process writes the first parameters, before it opens the gate. -/
theorem steps_setUp (w : ω) (limit : UInt32) (intervalNs : ℕ) :
    Relation.ReflTransGen Step now (now.written w (TokenRegion.publish
      { now.region.layParameters limit intervalNs with readiness := .ready })) :=
  now.steps_write w rfl rfl

/-- A consumer that nobody interrupts refreshes its refill. -/
theorem steps_refresh {k : κ} (hrest : now.reading k = .resting) :
    Relation.ReflTransGen Step now (now.refreshed k) := by
  by_cases hnew : now.region.version = (now.refill k).seen
  · -- the version is known, so nothing is done
    have hsame : now.refreshed k = now := by
      simp only [refreshed, Refill.refresh, TokenRegion.consume, if_pos hnew,
        Function.update_eq_self]
    rw [hsame]
  · have hlooked : Step now (now.turn k (.looked now.region.version)) := .look k hrest hnew
    have hrated := (Relation.ReflTransGen.single hlooked).tail
      (.loadRate k (Function.update_self _ _ _))
    have htimed := hrated.tail (.loadInterval k (Function.update_self _ _ _))
    have hdone := htimed.tail (.acknowledge k (Function.update_self _ _ _))
    have hreading : Function.update now.reading k .resting = now.reading := by
      rw [← hrest, Function.update_eq_self]
    simp only [turn, Function.update_idem, hreading] at hdone
    simp only [refreshed, Refill.refresh, TokenRegion.consume, if_neg hnew]
    exact hdone

end Steps

/-! ## Between the accesses

A stale pair can come about, and it is seen to be stale as soon as the writer has published. -/

/-- **The last rate is never lost.** Where no writer has yet to publish what it stored, a consumer
that has seen the last version holds the rate that is stored. So one that holds another rate sees a
version that it does not know, and refreshing gives it the rate that is stored. -/
theorem Reachable.rate_eq_or_stale (h : Reachable now) (hwrap : now.published < UInt64.size)
    (hquiet : ∀ w, now.owing w = false) (k : κ) :
    ((now.refill k).seen = now.region.version → (now.refill k).rate = now.region.rate) ∧
    ((now.refill k).rate ≠ now.region.rate →
      (now.refill k).seen ≠ now.region.version ∧
      ((now.refill k).refresh now.region).1 = true ∧
      ((now.refill k).refresh now.region).2.1.rate = now.region.rate) := by
  have hcoherent := h.coherent hwrap
  have hcurrent : (now.refill k).seen = now.region.version →
      (now.refill k).rate = now.region.rate := by
    intro hseen
    refine (hcoherent.covers k).2 hquiet ?_
    rw [hseen, hcoherent.version_eq]
  refine ⟨hcurrent, ?_⟩
  intro hrate
  have hseen : (now.refill k).seen ≠ now.region.version := fun heq => hrate (hcurrent heq)
  refine ⟨hseen, ?_⟩
  simp only [Refill.refresh, TokenRegion.consume, if_neg hseen.symm, Refill.apply,
    TokenUpdate.since, and_self]

/-- A rate of 7 is published and consumed, then 9 is published: the consumer sees a new version. -/
theorem rate_eq_or_stale_of_overwritten :
    ∃ now : Handoff (Fin 1) (Fin 1), Reachable now ∧ now.published < UInt64.size ∧
      (∀ w, now.owing w = false) ∧ (now.refill 0).rate = 7 ∧ now.region.rate = 9 ∧
      (now.refill 0).seen ≠ now.region.version := by
  let start : Handoff (Fin 1) (Fin 1) := fresh fun _ => 0
  let seven := start.written 0 (Controller.announce start.region 7).2
  let applied := seven.refreshed 0
  let nine := applied.written 0 (Controller.announce applied.region 9).2
  have happlied : Reachable applied :=
    ((Reachable.fresh _).steps (start.steps_announce 0 7)).steps (seven.steps_refresh rfl)
  have hnine : Reachable nine := happlied.steps (applied.steps_announce 0 9)
  have hquiet : ∀ w, nine.owing w = false := by decide
  have hstale := (hnine.rate_eq_or_stale (by decide) hquiet 0).2 (by decide)
  exact ⟨nine, hnine, by decide, hquiet, rfl, rfl, hstale.1⟩

end Handoff

end GpuQuota.Pacing
