import GpuQuota.Proofs.Pacing.Deciding
import GpuQuota.Proofs.Pacing.SignedWords

/-!
# The bootstrap

In the first window, the bootstrap, a small rate climbs with every tick; from then on rates are
decided on at the end of each window. Nothing but a new limit resets the ticks, so the bootstrap is
left once, as long as the ticks count. They are a word with a sign, and `2 ^ 31` ticks on they are
as low as can be: then the controller is back in the bootstrap (`bootstrap_reentered`).

* `Watch.Traced.ticks_later` counts the ticks from one decision to a later one;
* `Watch.Steps.bootstrapped_once` is the result: no decision is in the bootstrap again if and only
  if fewer follow than the counter has ticks left.
-/

namespace GpuQuota.Pacing

open GpuQuota.Settings

/-- A region that has been ticked so often. -/
theorem TokenRegion.iterate_tick (region : TokenRegion) (n : ℕ) :
    tick^[n] region = { region with ticks := region.ticks + Int32.ofNat n } := by
  induction n with
  | zero => simp
  | succ n ih =>
    rw [Function.iterate_succ_apply', ih, tick, Int32.ofNat_add, ← Int32.add_assoc]
    rfl

/-- An entry of a list with so many behind it. -/
theorem exists_split {α : Type} {entries : List α} {n : ℕ} (h : n < entries.length) :
    ∃ front entry rest, entries = front ++ entry :: rest ∧ rest.length = n := by
  have hindex : entries.length - (n + 1) < entries.length := by omega
  refine ⟨entries.take (entries.length - (n + 1)), entries[entries.length - (n + 1)],
    entries.drop (entries.length - (n + 1) + 1), ?_, ?_⟩
  · rw [← List.drop_eq_getElem_cons hindex, List.take_append_drop]
  · rw [List.length_drop]
    omega

namespace Watch

variable {controller : Controller} {monitor : Monitor} {config : ThrottleConfig}
variable {first : TokenRegion} {now : Watch} {later between earlier : List Verdict}
variable {verdict seen : Verdict}

/-- The ticks from one decision to a later one. -/
theorem Traced.ticks_later (h : now.Traced controller first)
    (hlog : now.verdicts = later ++ verdict :: (between ++ seen :: earlier)) :
    verdict.ticks = seen.ticks + Int32.ofNat (between.length + 1) := by
  have hverdict := h.follows verdict _ ⟨later, hlog.symm⟩
  have hseen := h.follows seen earlier ⟨later ++ verdict :: between, by simp [hlog]⟩
  rw [hverdict.ticks_eq, hseen.ticks_eq, Int32.add_assoc, ← Int32.ofNat_add, List.length_append,
    List.length_cons]
  congr 2
  omega

/-- A decision that comes before the ticks are at their end is after the bootstrap too. -/
theorem Traced.not_bootstraps (h : now.Traced controller first)
    (hlog : now.verdicts = later ++ verdict :: (between ++ seen :: earlier))
    (hseen : controller.window < seen.ticks)
    (hroom : seen.ticks.toInt + (between.length + 1 : ℕ) < 2 ^ 31) :
    ¬ verdict.Bootstraps controller := by
  have hticks := toInt_add_ofNat hroom
  rw [← h.ticks_later hlog] at hticks
  rw [Int32.lt_iff_toInt_lt] at hseen
  rw [Verdict.Bootstraps, Int32.le_iff_toInt_le]
  omega

/-- The decision that comes just at their end is in the bootstrap. -/
theorem Traced.bootstraps (h : now.Traced controller first)
    (hlog : now.verdicts = later ++ verdict :: (between ++ seen :: earlier))
    (hend : seen.ticks.toInt + (between.length + 1 : ℕ) = 2 ^ 31) :
    verdict.Bootstraps controller := by
  rw [Verdict.Bootstraps, h.ticks_later hlog, add_ofNat_of_end hend]
  exact Int32.minValue_le _

/-- **The bootstrap is left once, as long as the ticks count.** Once the controller has decided on a
sample after the bootstrap, no later decision is in it if and only if fewer follow than the counter
has ticks left. A decision after the bootstrap publishes a rate if and only if its ticks are a
positive multiple of the window and its sample is not on target; one in the bootstrap does if and
only if the rate before it is small, so it may although the sample is on target. Nothing else
changes the rate and the version. -/
theorem Steps.bootstrapped_once {window bootstrapMax : Int32}
    (hcontroller : monitor.controller = .create window bootstrapMax)
    (h : Steps monitor config (.start first) now)
    (hlog : now.verdicts = later ++ seen :: earlier)
    (hseen : monitor.controller.window < seen.ticks) :
    ((∀ verdict ∈ later, ¬ verdict.Bootstraps monitor.controller) ↔
      seen.ticks.toInt + later.length < 2 ^ 31) ∧
    (∀ after verdict between, later = after ++ verdict :: between →
      (¬ verdict.Bootstraps monitor.controller → 0 < verdict.ticks.toInt ∧
        (verdict.answer.isSome ↔
          monitor.controller.window.toInt ∣ verdict.ticks.toInt ∧ verdict.util ≠ verdict.limit)) ∧
      (verdict.Bootstraps monitor.controller →
        (verdict.answer.isSome ↔
          (rateAfter first.rate (between ++ seen :: earlier)).toInt32 ≤
            monitor.controller.bootstrapMax))) ∧
    (now.tuning = .resting →
      now.region.version = first.version + UInt64.ofNat (publications now.verdicts) ∧
      now.region.rate = rateAfter first.rate now.verdicts) := by
  have htraced := h.traced
  have hwindow : 1 ≤ monitor.controller.window := by
    rw [hcontroller]
    exact Controller.one_le_window_create window bootstrapMax
  have hsplit : ∀ {after verdict between}, later = after ++ verdict :: between →
      now.verdicts = after ++ verdict :: (between ++ seen :: earlier) := by
    rintro after verdict between rfl
    rw [hlog, List.append_assoc, List.cons_append]
  refine ⟨⟨?_, ?_⟩, ?_, ?_⟩
  · -- were there as many, one of them would come just at the end
    intro hnone
    by_contra hlong
    have hticks := seen.ticks.toInt_lt
    obtain ⟨after, verdict, between, hlater, hlength⟩ :=
      exists_split (show (2 ^ 31 - seen.ticks.toInt - 1).toNat < later.length by omega)
    have hmem : verdict ∈ later := hlater ▸ List.mem_append_right _ List.mem_cons_self
    exact hnone verdict hmem (htraced.bootstraps (hsplit hlater) (by omega))
  · intro hroom verdict hmem
    obtain ⟨after, between, hlater⟩ := List.append_of_mem hmem
    refine htraced.not_bootstraps (hsplit hlater) hseen ?_
    rw [hlater, List.length_append, List.length_cons] at hroom
    omega
  · intro after verdict between hlater
    have hfollows := htraced.follows verdict _ ⟨after, (hsplit hlater).symm⟩
    refine ⟨fun hafter => ⟨?_, hfollows.isSome_iff hafter⟩, hfollows.isSome_iff_of_bootstraps⟩
    rw [Verdict.Bootstraps, Int32.not_le, Int32.lt_iff_toInt_lt] at hafter
    rw [Int32.le_iff_toInt_le, Int32.toInt_one] at hwindow
    omega
  · intro hrest
    exact (htraced.at_rest hrest).2

/-- With a window of one tick, the second and the third sample are decided on after the bootstrap,
and each is the end of a window. -/
theorem bootstrapped_once_of_retuned :
    ∃ (monitor : Monitor) (config : ThrottleConfig) (first : TokenRegion) (now : Watch)
      (seen later : Verdict) (earlier : List Verdict),
      monitor.controller = .create 1 3 ∧ Steps monitor config (.start first) now ∧
      now.verdicts = [later] ++ seen :: earlier ∧ monitor.controller.window < seen.ticks ∧
      ¬ later.Bootstraps monitor.controller ∧ 0 < later.ticks.toInt ∧ later.answer = some 4 ∧
      (monitor.controller.window.toInt ∣ later.ticks.toInt ∧ later.util ≠ later.limit) ∧
      now.region.version = first.version + 3 := by
  let monitor : Monitor := ⟨⟨0, 50⟩, "group", .create 1 3⟩
  let first : TokenRegion :=
    { TokenRegion.justSetUp 50 100000000 with acked := 1 }
  let twofold : TokenRegion := { first with rateWord := 2, ticks := 1, version := 2 }
  let threefold : TokenRegion := { first with acked := 2, rateWord := 3, ticks := 2, version := 3 }
  let fourfold : TokenRegion := { first with acked := 3, rateWord := 4, ticks := 3, version := 4 }
  let seen : Verdict := ⟨10, 50, 2, some 3⟩
  let later : Verdict := ⟨10, 50, 3, some 4⟩
  have hone : Steps monitor {} (.start first) ⟨twofold, .resting, [⟨10, 50, 1, some 2⟩]⟩ :=
    Steps.feed .refl rfl rfl (by decide) (by decide)
  have htwo : Steps monitor {} (.start first) ⟨threefold, .resting, [seen, ⟨10, 50, 1, some 2⟩]⟩ :=
    (hone.consume 1 rfl).feed rfl rfl (by decide) (by decide +kernel)
  have hthree : Steps monitor {} (.start first)
      ⟨fourfold, .resting, [later] ++ seen :: [⟨10, 50, 1, some 2⟩]⟩ :=
    (htwo.consume 2 rfl).feed rfl rfl (by decide) (by decide +kernel)
  have hseen : monitor.controller.window < seen.ticks := by decide
  obtain ⟨honce, hlater, hrest⟩ := hthree.bootstrapped_once rfl rfl hseen
  have hafter := honce.2 (by decide) later (.head [])
  obtain ⟨hpositive, hpublished⟩ := (hlater [] later [] rfl).1 hafter
  exact ⟨monitor, {}, first, _, seen, later, _, rfl, hthree, rfl, hseen, hafter, hpositive, rfl,
    hpublished.1 rfl, (hrest rfl).1⟩

/-- A region that has been set up has counted almost all ticks there are. The last one is after the
bootstrap; with the next, the rate climbs again, though both samples are on target. -/
theorem bootstrap_reentered :
    ∃ (monitor : Monitor) (config : ThrottleConfig) (ready first : TokenRegion) (now : Watch)
      (seen later : Verdict),
      monitor.controller = .create 50 3 ∧
      ({} : TokenRegion).setUp 50 100000000 = (.ok true, ready) ∧
      first = TokenRegion.tick^[2147483646] (ready.consume 0).2 ∧
      Steps monitor config (.start first) now ∧ now.verdicts = [later, seen] ∧
      monitor.controller.window < seen.ticks ∧ later.Bootstraps monitor.controller ∧
      later.util = later.limit ∧ later.answer = some 2 := by
  let monitor : Monitor := ⟨⟨0, 50⟩, "group", .create 50 3⟩
  let ready : TokenRegion := .justSetUp 50 100000000
  let first : TokenRegion := { ready with acked := 1, ticks := 2147483646 }
  have hfirst : TokenRegion.tick^[2147483646] (ready.consume 0).2 = first :=
    (ready.consume 0).2.iterate_tick _ |>.trans (by decide)
  let seen : Verdict := ⟨50, 50, 2147483647, none⟩
  let later : Verdict := ⟨50, 50, Int32.minValue, some 2⟩
  have hone : Steps monitor {} (.start first)
      ⟨{ first with ticks := 2147483647 }, .resting, [seen]⟩ :=
    Steps.feed .refl rfl rfl (by decide) (by decide)
  let last : TokenRegion := { first with rateWord := 2, ticks := Int32.minValue, version := 2 }
  have htwo : Steps monitor {} (.start first) ⟨last, .resting, [later, seen]⟩ :=
    hone.feed rfl rfl (by decide) (by decide)
  exact ⟨monitor, {}, ready, first, _, seen, later, rfl, TokenRegion.setUp_untouched 50 100000000,
    hfirst.symm, htwo, rfl, by decide, Int32.minValue_le _, rfl, rfl⟩

end Watch

end GpuQuota.Pacing
