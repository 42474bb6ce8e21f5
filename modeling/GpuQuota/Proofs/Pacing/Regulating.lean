import GpuQuota.Proofs.Pacing.Consumption
import GpuQuota.Proofs.Pacing.Readiness

/-!
# A monitor and the consumers of its region

`Controller.feed` takes in a sample as if the region stood still. In truth the processes of the
group consume and record while it does, and the monitor gives way to them between any two accesses:

* `Tuning.Move` is one access of the monitor, from the taking over of the region (`Entry.Move`) to
  the publication of a rate, with a note of what it did; what it decides in between is
  `Controller.choose?` of what it has loaded;
* `Regulation` holds the region with its monitor and its consumers, and `Regulation.Step` lets one
  of them move.

A monitor that nobody interrupts does what `Controller.feed` does (`Tuning.Moves.feed`). And the
accesses of a monitor are those of a writer (`Regulation.Step.handoff`), so whatever holds of every
`Handoff` holds here.
-/

namespace GpuQuota.Pacing

open GpuQuota.Settings

/-! ## The monitor

Each point of the monitor holds what it has loaded so far and still needs. The words that only the
monitor writes are its parameters; nobody else changes them while it works. -/

namespace TokenRegion

/-- The region with nothing in the words that the processes of the group write; what remains is the
monitor's. -/
def parameters (region : TokenRegion) : TokenRegion :=
  { region with gate := ⟨0⟩, acked := 0, evenSlot := 0, oddSlot := 0, recorded := 0 }

theorem version_publish_ne (region : TokenRegion) : region.publish.version ≠ region.version := by
  simp [publish]

section Parameters

variable {region after : TokenRegion} (h : after.parameters = region.parameters)

include h

theorem version_of_parameters : after.version = region.version := by
  change after.parameters.version = region.parameters.version
  rw [h]

theorem rateWord_of_parameters : after.rateWord = region.rateWord := by
  change after.parameters.rateWord = region.parameters.rateWord
  rw [h]

theorem readiness_of_parameters : after.readiness = region.readiness := by
  change after.parameters.readiness = region.parameters.readiness
  rw [h]

end Parameters

end TokenRegion

/-- The monitor as a party that enters. -/
def Monitor.party (monitor : Monitor) (config : ThrottleConfig) : Party :=
  ⟨true, config, monitor.quota⟩

/-- How far a monitor has come. -/
inductive Tuning where
  /-- it takes the region over -/
  | entering (entry : Entry)
  /-- between two samples -/
  | resting
  /-- a sample came when the region was `before`, and the version is loaded -/
  | comparing (version : UInt64) (before : TokenRegion)
  /-- nothing is pending -/
  | clear
  /-- the rate is loaded -/
  | rated (rate : UInt32)
  /-- the tick is counted -/
  | ticked (rate : UInt32) (ticks : Int32)
  /-- a rate is decided on, and still to be stored -/
  | storing (word : Int32)
  /-- the rate is stored, and still to be published -/
  | publishing (word : Int32)

/-- What is noted of a monitor. -/
inductive Act where
  /-- it found a publication pending; the region was `before` when the sample came and is `after` -/
  | declined (before after : TokenRegion)
  /-- it stored a rate -/
  | stored (rate : UInt32)
  /-- it published a version, which stands for the rate -/
  | published (version : UInt64) (rate : UInt32)

namespace Act

/-- The act changes what consumers read. -/
def Writes : Act → Prop
  | .declined _ _ => False
  | .stored _ => True
  | .published _ _ => True

/-- What is noted of a sample that is taken in without interruption, with this answer. -/
def ofAnswer (region : TokenRegion) (answer : Option UInt32) : List Act :=
  if region.isPending then [.declined region region]
  else
    match answer with
    | none => []
    | some rate => [.published region.publish.version rate, .stored rate]

end Act

namespace Tuning

/-- One access of a monitor to the region. The averages are loaded while others record theirs, so
they may be anything. -/
inductive Move (monitor : Monitor) (config : ThrottleConfig) :
    TokenRegion → Tuning → List Act → TokenRegion → Tuning → Prop where
  /-- The monitor is still entering the region. -/
  | enter {region after : TokenRegion} {entry turn : Entry} {deeds : List Deed} :
      Entry.Move (monitor.party config) region entry deeds after turn →
      Move monitor config region (.entering entry) [] after (.entering turn)
  /-- It has entered. -/
  | settle {region : TokenRegion} :
      Move monitor config region (.entering .attached) [] region .resting
  /-- A sample comes, and the version is loaded. -/
  | look {region : TokenRegion} :
      Move monitor config region .resting [] region (.comparing region.version region)
  /-- It is not the acknowledged one, and the sample goes without effect. -/
  | decline {region before : TokenRegion} {version : UInt64} : version ≠ region.acked →
      Move monitor config region (.comparing version before) [.declined before region] region
        .resting
  /-- Nothing is pending. -/
  | pass {region before : TokenRegion} {version : UInt64} : version = region.acked →
      Move monitor config region (.comparing version before) [] region .clear
  /-- The rate is loaded. -/
  | loadRate {region : TokenRegion} :
      Move monitor config region .clear [] region (.rated region.rate)
  /-- The sample is counted. -/
  | tick {region : TokenRegion} {rate : UInt32} :
      Move monitor config region (.rated rate) [] region.tick (.ticked rate region.tick.ticks)
  /-- The controller leaves the rate as it is. -/
  | hold {region : TokenRegion} {rate : UInt32} {ticks : Int32}
      (util limit newest previous : UInt32) :
      monitor.controller.choose? rate.toInt32 ticks util limit newest previous = none →
      Move monitor config region (.ticked rate ticks) [] region .resting
  /-- It decides on another one. -/
  | choose {region : TokenRegion} {rate : UInt32} {ticks word : Int32}
      (util limit newest previous : UInt32) :
      monitor.controller.choose? rate.toInt32 ticks util limit newest previous = some word →
      Move monitor config region (.ticked rate ticks) [] region (.storing word)
  /-- The new rate is stored. -/
  | store {region : TokenRegion} {word : Int32} :
      Move monitor config region (.storing word) [.stored (atLeast 1 word)]
        (region.setRate (atLeast 1 word)) (.publishing word)
  /-- It is published. -/
  | publish {region : TokenRegion} {word : Int32} :
      Move monitor config region (.publishing word)
        [.published region.publish.version (atLeast 1 word)] region.publish .resting

/-- What a monitor comes to by itself. -/
inductive Moves (monitor : Monitor) (config : ThrottleConfig) (region : TokenRegion)
    (tuning : Tuning) : List Act → TokenRegion → Tuning → Prop where
  | refl : Moves monitor config region tuning [] region tuning
  | tail {middle after : TokenRegion} {turn last : Tuning} {acts more : List Act} :
      Moves monitor config region tuning acts middle turn →
      Move monitor config middle turn more after last →
      Moves monitor config region tuning (more ++ acts) after last

namespace Moves

variable {monitor : Monitor} {config : ThrottleConfig} {region after : TokenRegion}

/-- The steps of an entry are steps of the monitor, and it notes nothing by them. -/
theorem enter {entry turn : Entry}
    (h : Entry.Moves (monitor.party config) (region, entry) (after, turn)) :
    Moves monitor config region (.entering entry) [] after (.entering turn) := by
  generalize hnext : (after, turn) = next at h
  induction h generalizing after turn with
  | refl =>
    obtain ⟨rfl, rfl⟩ := Prod.mk.inj hnext
    exact .refl
  | tail _ hmove ih =>
    subst hnext
    obtain ⟨deeds, hmove⟩ := hmove
    exact (ih rfl).tail (.enter hmove)

/-- **A monitor that nobody interrupts takes a sample in.** -/
theorem feed (monitor : Monitor) (config : ThrottleConfig) (region : TokenRegion)
    (util limit : UInt32) :
    Moves monitor config region .resting
      (Act.ofAnswer region (monitor.controller.feed region util limit).1)
      (monitor.controller.feed region util limit).2 .resting := by
  have hlooked : Moves monitor config region .resting [] region
      (.comparing region.version region) := .tail .refl .look
  cases hpending : region.isPending with
  | true =>
    have hne : region.version ≠ region.acked := by
      simpa [TokenRegion.isPending] using hpending
    simp only [Act.ofAnswer, Controller.feed, hpending, if_true]
    exact hlooked.tail (.decline hne)
  | false =>
    have heq : region.version = region.acked := by simpa [TokenRegion.isPending] using hpending
    have hticked := ((hlooked.tail (.pass heq)).tail .loadRate).tail .tick
    simp only [Act.ofAnswer, monitor.controller.feed_eq hpending, hpending]
    cases hword : monitor.controller.choose? region.rate.toInt32 region.tick.ticks util limit
      region.tick.averages.1 region.tick.averages.2 with
    | none => exact hticked.tail (.hold util limit _ _ hword)
    | some word => exact ((hticked.tail (.choose util limit _ _ hword)).tail .store).tail .publish

end Moves

end Tuning

/-! ## The monitor and its consumers

The log is no part of the program. It is there to state what happened before what, and no step reads
it. -/

/-- What is noted of a monitor and of its consumers. -/
inductive Note (κ : Type) where
  /-- something that the monitor did -/
  | monitor (act : Act)
  /-- an update that a consumer took -/
  | taken (k : κ) (update : TokenUpdate)

/-- A region with its monitor and its consumers (`κ`). -/
structure Regulation (κ : Type) where
  region : TokenRegion
  /-- how far the monitor has come -/
  tuning : Tuning
  /-- what each consumer has seen and applies -/
  refill : κ → Refill
  /-- how far each consumer has come -/
  reading : κ → Reading
  /-- how many publications there have been -/
  published : ℕ
  /-- what has been done, the newest first -/
  log : List (Note κ)

namespace Regulation

variable {κ : Type}

/-- A fresh region that the monitor is about to take over, and consumers that have seen nothing. -/
def fresh (fallbackNs : κ → ℕ) : Regulation κ where
  region := {}
  tuning := .entering .outside
  refill k := { intervalNs := fallbackNs k }
  reading _ := .resting
  published := 0
  log := []

/-- The monitor has moved. -/
def regulate (now : Regulation κ) (acts : List Act) (region : TokenRegion) (tuning : Tuning) :
    Regulation κ :=
  { now with
    region, tuning, log := acts.map .monitor ++ now.log,
    published := if region.version = now.region.version then now.published else now.published + 1 }

section Published

variable (now : Regulation κ) (acts : List Act) {region : TokenRegion} (tuning : Tuning)

theorem published_regulate (h : region.version = now.region.version) :
    (now.regulate acts region tuning).published = now.published := if_pos h

theorem published_publish :
    (now.regulate acts now.region.publish tuning).published = now.published + 1 :=
  if_neg now.region.version_publish_ne

end Published

variable [DecidableEq κ]

/-- A consumer has moved. -/
def read (now : Regulation κ) (k : κ) (taken : List TokenUpdate) (region : TokenRegion)
    (refill : Refill) (reading : Reading) : Regulation κ :=
  { now with
    region, refill := Function.update now.refill k refill,
    reading := Function.update now.reading k reading,
    log := taken.map (.taken k) ++ now.log }

/-- One access to the region. -/
inductive Step (monitor : Monitor) (config : ThrottleConfig) :
    Regulation κ → Regulation κ → Prop where
  /-- The monitor moves. -/
  | regulate {now : Regulation κ} {acts : List Act} {region : TokenRegion} {tuning : Tuning} :
      Tuning.Move monitor config now.region now.tuning acts region tuning →
      Step monitor config now (now.regulate acts region tuning)
  /-- A consumer moves. -/
  | read {now : Regulation κ} (k : κ) {taken : List TokenUpdate} {region : TokenRegion}
      {refill : Refill} {reading : Reading} :
      Reading.Move now.region (now.refill k) (now.reading k) taken region refill reading →
      Step monitor config now (now.read k taken region refill reading)
  /-- A process of the group writes its own words. -/
  | aside {now : Regulation κ} {region : TokenRegion} :
      region.parameters = now.region.parameters → region.acked = now.region.acked →
      Step monitor config now { now with region }

/-- What can come about on a fresh region. -/
inductive Reachable (monitor : Monitor) (config : ThrottleConfig) : Regulation κ → Prop where
  | fresh (fallbackNs : κ → ℕ) : Reachable monitor config (.fresh fallbackNs)
  | step {now next : Regulation κ} : Reachable monitor config now → Step monitor config now next →
      Reachable monitor config next

variable {monitor : Monitor} {config : ThrottleConfig} {now next : Regulation κ} {k : κ}
variable {region : TokenRegion} {refill : Refill} {reading : Reading} {tuning : Tuning}
variable {taken : List TokenUpdate} {acts : List Act}

theorem Reachable.steps (h : Reachable monitor config now)
    (hsteps : Relation.ReflTransGen (Step monitor config) now next) :
    Reachable monitor config next := by
  induction hsteps with
  | refl => exact h
  | tail _ hstep ih => exact ih.step hstep

/-- What a monitor comes to by itself happens beside its consumers. -/
theorem steps_of_tuning (now : Regulation κ)
    (h : Tuning.Moves monitor config now.region now.tuning acts region tuning) :
    ∃ published, Relation.ReflTransGen (Step monitor config) now
      { now with region, tuning, published, log := acts.map .monitor ++ now.log } := by
  induction h with
  | refl => exact ⟨now.published, .refl⟩
  | tail _ hmove ih =>
    obtain ⟨published, hsteps⟩ := ih
    have hmoved := hsteps.tail (.regulate hmove)
    rw [regulate, ← List.append_assoc, ← List.map_append] at hmoved
    exact ⟨_, hmoved⟩

/-- What a consumer comes to by itself happens beside the monitor. -/
theorem steps_of_readings (now : Regulation κ) (k : κ)
    (h : Reading.Moves now.region (now.refill k) (now.reading k) taken region refill reading) :
    Relation.ReflTransGen (Step monitor config) now (now.read k taken region refill reading) := by
  induction h with
  | refl =>
    have hsame : now.read k [] now.region (now.refill k) (now.reading k) = now := by
      simp only [read, Function.update_eq_self, List.map_nil, List.nil_append]
    rw [hsame]
  | @tail middle after kept last turn point taken more _ hmove ih =>
    have hread : Reading.Move (now.read k taken middle kept turn).region
        ((now.read k taken middle kept turn).refill k)
        ((now.read k taken middle kept turn).reading k) more after last point := by
      simpa only [read, Function.update_self] using hmove
    have hstep := ih.tail (.read k hread)
    simpa only [read, Function.update_idem, List.map_append, List.append_assoc] using hstep

/-- A sample is taken in without interruption. -/
theorem Reachable.feed (h : Reachable monitor config now) (hrest : now.tuning = .resting)
    (util limit : UInt32) {answer : Option UInt32}
    (hfeed : monitor.controller.feed now.region util limit = (answer, region)) :
    ∃ published, Reachable monitor config
      { now with
        region, published, log := (Act.ofAnswer now.region answer).map .monitor ++ now.log } := by
  have hmoves := Tuning.Moves.feed monitor config now.region util limit
  rw [hfeed, ← hrest] at hmoves
  obtain ⟨published, hsteps⟩ := now.steps_of_tuning hmoves
  exact ⟨published, h.steps hsteps⟩

/-- A publication is consumed without interruption. -/
theorem Reachable.consume (h : Reachable monitor config now) (k : κ)
    (hrest : now.reading k = .resting)
    {update : TokenUpdate}
    (hconsume : now.region.consume (now.refill k).seen = (some update, region)) :
    Reachable monitor config
      (now.read k [update] region ((now.refill k).apply update) .resting) := by
  refine h.steps (now.steps_of_readings k ?_)
  rw [hrest]
  exact .consume hconsume

end Regulation

/-! ## The monitor as a writer

A handoff knows writers by what they do to a region, and so a monitor is one: what it stores between
two publications is what it owes. -/

/-- What a writer does to a region by one access: it publishes, and owes nothing then; or it stores
something, and unless it owes the publication from then on, that was not the rate. -/
def TokenRegion.Written (region : TokenRegion) (owed : Bool) (after : TokenRegion) (owes : Bool) :
    Prop :=
  after = region.publish ∧ owes = false ∨
    after.version = region.version ∧ after.acked = region.acked ∧
      (owes = false → owed = false ∧ after.rateWord = region.rateWord)

@[simp] theorem TokenRegion.version_store (region : TokenRegion) (word : Word) :
    (region.store word).version = region.version := by
  cases word <;> rfl

@[simp] theorem TokenRegion.acked_store (region : TokenRegion) (word : Word) :
    (region.store word).acked = region.acked := by
  cases word <;> rfl

/-- Whether a process may have stored a rate that it has not published. -/
def Entry.owes : Entry → Bool
  | .laying _ => true
  | .announcing => true
  | .adopting _ => true
  | .republishing => true
  | _ => false

/-- A party that enters writes as a writer does. -/
theorem Entry.Move.written {party : Party} {region after : TokenRegion} {entry turn : Entry}
    {deeds : List Deed} (h : Entry.Move party region entry deeds after turn) :
    region.Written entry.owes after turn.owes := by
  cases h with
  | claim _ hclaim =>
    obtain ⟨-, rfl⟩ := readiness_claim hclaim
    exact .inr ⟨rfl, rfl, nofun⟩
  | lay => exact .inr ⟨region.version_store _, region.acked_store _, nofun⟩
  | adopt => exact .inr ⟨region.version_store _, region.acked_store _, nofun⟩
  | ready => exact .inr ⟨rfl, rfl, nofun⟩
  | adopted => exact .inr ⟨rfl, rfl, nofun⟩
  | announce => exact .inl ⟨rfl, rfl⟩
  | republish => exact .inl ⟨rfl, rfl⟩
  | _ => exact .inr ⟨rfl, rfl, fun _ => ⟨rfl, rfl⟩⟩

namespace Tuning

/-- Whether a monitor may have stored a rate that it has not published. -/
def owes : Tuning → Bool
  | .entering entry => entry.owes
  | .publishing _ => true
  | _ => false

/-- **A monitor writes as a writer does**: after the rate it stores nothing before it publishes. -/
theorem Move.written {monitor : Monitor} {config : ThrottleConfig} {region after : TokenRegion}
    {tuning turn : Tuning} {acts : List Act}
    (h : Move monitor config region tuning acts after turn) :
    region.Written tuning.owes after turn.owes := by
  cases h with
  | enter hmove => exact hmove.written
  | store => exact .inr ⟨rfl, rfl, nofun⟩
  | publish => exact .inl ⟨rfl, rfl⟩
  | _ => exact .inr ⟨rfl, rfl, fun _ => ⟨rfl, rfl⟩⟩

end Tuning

/-- An access of the only writer of a handoff. -/
theorem Handoff.steps_written {κ : Type} [DecidableEq κ] (now : Handoff Unit κ)
    {after : TokenRegion} {owes : Bool} (h : now.region.Written (now.owing ()) after owes) :
    Relation.ReflTransGen Step now
      { now with
        region := after, owing := fun _ => owes,
        published := if after.version = now.region.version then now.published
          else now.published + 1 } := by
  have howing : ∀ owing, Function.update now.owing () owing = fun _ => owing := fun _ => rfl
  rcases h with ⟨rfl, rfl⟩ | ⟨hversion, hacked, hquiet⟩
  · have hstep : Step now _ := .publish ()
    rw [howing] at hstep
    rw [if_neg now.region.version_publish_ne]
    exact .single hstep
  · rw [if_pos hversion]
    -- a store after which the writer owes a publication may be one of the rate
    cases owes with
    | true =>
      have hstep : Step now _ := .store () after.rateWord
      rw [howing] at hstep
      exact (Relation.ReflTransGen.single hstep).tail (.aside hversion rfl hacked)
    | false =>
      obtain ⟨howed, hrate⟩ := hquiet rfl
      have hsame : now.owing = fun _ => false := by
        funext
        exact howed
      rw [← hsame]
      exact .single (.aside hversion hrate hacked)

namespace Regulation

variable {κ : Type}

/-- The monitor as the writer of a handoff. -/
def handoff (now : Regulation κ) : Handoff Unit κ where
  region := now.region
  owing _ := now.tuning.owes
  refill := now.refill
  reading := now.reading
  published := now.published

variable [DecidableEq κ] {monitor : Monitor} {config : ThrottleConfig} {now next : Regulation κ}

theorem Step.handoff (h : Step monitor config now next) :
    Relation.ReflTransGen Handoff.Step now.handoff next.handoff := by
  cases h with
  | regulate hmove => exact now.handoff.steps_written hmove.written
  | read k hmove => exact .single (Handoff.step_read hmove)
  | aside hparameters hacked =>
    exact .single (.aside (TokenRegion.version_of_parameters hparameters)
      (TokenRegion.rateWord_of_parameters hparameters) hacked)

theorem Reachable.handoff (h : Reachable monitor config now) : now.handoff.Reachable := by
  induction h with
  | fresh fallbackNs => exact .fresh fallbackNs
  | step _ hstep ih => exact ih.steps hstep.handoff

end Regulation

end GpuQuota.Pacing
