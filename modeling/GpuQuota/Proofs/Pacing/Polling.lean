import GpuQuota.Pacing.Monitor
import Mathlib.Data.List.Forall2

/-!
# Whose samples count

The device library reports samples of all processes on a device, old ones among them. A monitor is
to go by those of its own group. Two runs of a monitor in which the group has the same samples are
the same, whatever other groups have done.

* `Monitor.IsOwn` says which samples are a group's own at a poll, by the time they were taken, the
  process and its group. Those are the ones that count (`Monitor.counts_iff`), so what is left out
  is a sample that is too old, a process without a group, or another group's process
  (`Monitor.not_isOwn_iff`);
* `Monitor.own` are the samples of the group, in their order, and `Monitor.turn_eq` is all that a
  poll does with them;
* `Monitor.own_insert`, `Monitor.own_swap`: samples that are not the group's may come in and move;
* `Monitor.polled_of_sameOwn` is the result for any run.
-/

namespace GpuQuota.Pacing

open GpuQuota.Device

/-- One poll: what there is to look at, and what others do to the region before it. -/
structure Poll where
  /-- the group of a process, where it has one -/
  groupOf : UInt32 → Option String
  /-- the time from which on samples are asked for -/
  sinceUs : UInt64
  /-- the samples of all processes, or an error -/
  answer : Except DeviceFault (List Sample)
  /-- what others have done to the region since the last poll -/
  meanwhile : TokenRegion → TokenRegion

namespace Monitor

/-- A sample is the group's own at a poll: it is not older than the poll asks for, and its process
belongs to the group. -/
def IsOwn (monitor : Monitor) (poll : Poll) (sample : Sample) : Prop :=
  poll.sinceUs ≤ sample.timestampUs ∧ poll.groupOf sample.pid = some monitor.group

instance (monitor : Monitor) (poll : Poll) : DecidablePred (monitor.IsOwn poll) :=
  fun _ => inferInstanceAs (Decidable (_ ∧ _))

/-- The group's own samples at a poll. Where the device library has none to give there are none. -/
def own (monitor : Monitor) (poll : Poll) : List Sample :=
  match poll.answer with
  | .ok samples => samples.filter (monitor.IsOwn poll)
  | .error _ => []

/-- The rate that a poll publishes, if it does, and the region after it. -/
def turn (monitor : Monitor) (region : TokenRegion) (poll : Poll) : Option UInt32 × TokenRegion :=
  let (rate, after, _) := monitor.poll poll.groupOf poll.sinceUs poll.answer (poll.meanwhile region)
  (rate, after)

/-- What the polls of a run leave, one after another. -/
def polled (monitor : Monitor) (region : TokenRegion) :
    List Poll → List (Option UInt32 × TokenRegion)
  | [] => []
  | poll :: later => monitor.turn region poll :: monitor.polled (monitor.turn region poll).2 later

/-- Two polls that differ in nothing but samples that are not the group's. -/
structure SameOwn (monitor : Monitor) (poll other : Poll) : Prop where
  /-- They have the same samples of the group, or the same error. -/
  own : monitor.own other = monitor.own poll
  /-- The others do the same. -/
  meanwhile : other.meanwhile = poll.meanwhile

variable {monitor : Monitor}

/-! ## Samples that do not count

The filter is compared with the three conditions, so that a sample is left out for failing one of
them, whatever else is in it. -/

/-- The samples that count are the group's own. -/
theorem counts_iff {poll : Poll} {sample : Sample} :
    monitor.counts poll.groupOf poll.sinceUs sample = true ↔ monitor.IsOwn poll sample := by
  rw [counts, Sample.isFresh, Bool.and_eq_true, decide_eq_true_iff, beq_iff_eq, IsOwn]

/-- What does not count is too old, or of a process without a group or in another one. -/
theorem not_isOwn_iff {poll : Poll} {sample : Sample} :
    ¬ monitor.IsOwn poll sample ↔
      sample.timestampUs < poll.sinceUs ∨ poll.groupOf sample.pid = none ∨
        ∃ group ≠ monitor.group, poll.groupOf sample.pid = some group := by
  rw [IsOwn, Decidable.not_and_iff_or_not, UInt64.not_le]
  refine or_congr Iff.rfl ?_
  cases poll.groupOf sample.pid with
  | none => simp
  | some group => simp

/-- Who is the group's own does not depend on what else there is. -/
theorem own_ok (monitor : Monitor) (poll : Poll) (samples : List Sample) :
    monitor.own { poll with answer := .ok samples } =
      samples.filter fun sample => monitor.IsOwn poll sample :=
  rfl

/-- A sample that is not the group's may come in anywhere. -/
theorem own_insert {poll : Poll} {before after : List Sample} {sample : Sample}
    (h : ¬ monitor.IsOwn poll sample) :
    monitor.own { poll with answer := .ok (before ++ sample :: after) } =
      monitor.own { poll with answer := .ok (before ++ after) } := by
  rw [own_ok, own_ok, List.filter_append, List.filter_cons_of_neg (by simpa using h),
    List.filter_append]

/-- It may also move past its neighbour. -/
theorem own_swap {poll : Poll} {before after : List Sample} {sample other : Sample}
    (h : ¬ monitor.IsOwn poll sample) :
    monitor.own { poll with answer := .ok (before ++ sample :: other :: after) } =
      monitor.own { poll with answer := .ok (before ++ other :: sample :: after) } := by
  have hpast : before ++ other :: sample :: after = (before ++ [other]) ++ sample :: after := by
    simp
  rw [hpast, own_insert h, own_insert h]
  simp

/-! ## One poll

What a poll does depends on the samples by the mean of those that count, and by whether there are
any. -/

/-- **A poll goes by the first sample of its own group.** Without one it leaves the region as it is.
-/
theorem turn_eq (monitor : Monitor) (region : TokenRegion) (poll : Poll) :
    monitor.turn region poll =
      match (monitor.own poll).head? with
      | none => (none, poll.meanwhile region)
      | some sample =>
        monitor.controller.feed (poll.meanwhile region) sample.compute monitor.quota.percent := by
  have hcounts : monitor.counts poll.groupOf poll.sinceUs =
      fun sample => decide (monitor.IsOwn poll sample) :=
    funext fun _ => Bool.eq_iff_iff.2 (counts_iff.trans decide_eq_true_iff.symm)
  simp only [turn, own, Monitor.poll]
  cases poll.answer with
  | error fault => cases fault <;> rfl
  | ok samples =>
    simp only [List.head?_filter, targetSample, hcounts]
    cases samples.find? fun sample => decide (monitor.IsOwn poll sample) with
    | none => rfl
    | some sample => rfl

/-- Without a sample of the group not even the tick counts. -/
theorem turn_of_own_nil {region : TokenRegion} {poll : Poll} (h : monitor.own poll = []) :
    monitor.turn region poll = (none, poll.meanwhile region) := by
  rw [turn_eq, h]
  rfl

/-- A poll does not tell apart what its own group does not tell apart. -/
theorem SameOwn.turn_eq {poll other : Poll} (h : monitor.SameOwn poll other)
    (region : TokenRegion) : monitor.turn region other = monitor.turn region poll := by
  rw [Monitor.turn_eq, Monitor.turn_eq, h.own, h.meanwhile]

/-! ## All polls

The time since which samples count is the monitor's own, so it is the same in two runs that differ
in other samples. -/

theorem polled_congr {polls others : List Poll} (h : List.Forall₂ monitor.SameOwn polls others)
    (region : TokenRegion) : monitor.polled region others = monitor.polled region polls := by
  -- after equal polls both runs are in one region again, whichever that is
  induction h generalizing region with
  | nil => rfl
  | cons hpoll _ ih => rw [polled, polled, hpoll.turn_eq, ih]

/-- **Other groups have no influence.** In two runs from the same region, in which the group has the
same samples at every poll and others do the same in between, every poll publishes the same rate and
leaves the same region. And a poll at which the group has no sample, or that fails, publishes
nothing and leaves the region as it finds it. -/
theorem polled_of_sameOwn {polls others : List Poll}
    (h : List.Forall₂ monitor.SameOwn polls others) :
    (∀ region, monitor.polled region others = monitor.polled region polls) ∧
    (∀ region poll, monitor.own poll = [] →
      monitor.turn region poll = (none, poll.meanwhile region)) ∧
    ∀ region poll fault, poll.answer = .error fault →
      monitor.turn region poll = (none, poll.meanwhile region) := by
  refine ⟨polled_congr h, fun _ _ hown => turn_of_own_nil hown, fun _ poll fault hfault => ?_⟩
  apply turn_of_own_nil
  rw [own, hfault]

/-- A neighbour that is busy, a sample that is too old and a process without a group: the group's
rate climbs as if it were alone on the device. -/
theorem polled_of_sameOwn_of_neighbour :
    ∃ (monitor : Monitor) (region : TokenRegion) (polls others : List Poll),
      List.Forall₂ monitor.SameOwn polls others ∧
      (others.map Poll.answer =
        [.ok [⟨8, 10, 99, 0⟩, ⟨7, 4, 99, 0⟩, ⟨7, 10, 20, 0⟩, ⟨9, 10, 99, 0⟩],
          .ok [⟨8, 20, 99, 0⟩], .ok [⟨7, 30, 20, 0⟩]]) ∧
      monitor.polled region others = monitor.polled region polls ∧
      (monitor.polled region others).map Prod.fst = [some 2, none, some 3] := by
  let groupOf : UInt32 → Option String :=
    fun pid => if pid = 7 then some "a" else if pid = 8 then some "b" else none
  let consumed : TokenRegion → TokenRegion := fun region => (region.consume 0).2
  let monitor : Monitor := ⟨⟨0, 50⟩, "a", .create 5 3⟩
  let polls : List Poll := [⟨groupOf, 5, .ok [⟨7, 10, 20, 0⟩], consumed⟩,
    ⟨groupOf, 15, .error .noSamples, consumed⟩, ⟨groupOf, 25, .ok [⟨7, 30, 20, 0⟩], consumed⟩]
  let others : List Poll := [⟨groupOf, 5,
      .ok [⟨8, 10, 99, 0⟩, ⟨7, 4, 99, 0⟩, ⟨7, 10, 20, 0⟩, ⟨9, 10, 99, 0⟩], consumed⟩,
    ⟨groupOf, 15, .ok [⟨8, 20, 99, 0⟩], consumed⟩, ⟨groupOf, 25, .ok [⟨7, 30, 20, 0⟩], consumed⟩]
  have hsame : List.Forall₂ monitor.SameOwn polls others :=
    .cons ⟨by decide, rfl⟩ (.cons ⟨by decide, rfl⟩ (.cons ⟨by decide, rfl⟩ .nil))
  have hpolled := (polled_of_sameOwn hsame).1 (TokenRegion.setUp {} 50 100000000).2
  refine ⟨monitor, _, polls, others, hsame, rfl, hpolled, ?_⟩
  rw [hpolled]
  decide

end Monitor

end GpuQuota.Pacing
