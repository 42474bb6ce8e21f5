import GpuQuota.Governor
import GpuQuota.Pacing.Monitor

/-!
# A control group at work

The region of one control group on one device, with the processes that joined it, their refills
and its monitors. Whoever comes before the region has its first parameters waits, and is let in
by the step that writes them.
-/

namespace GpuQuota

open GpuQuota.Device GpuQuota.Pacing GpuQuota.Settings

/-- The state of a control group. -/
structure Group where
  config : Config
  name : String
  /-- the device -/
  minor : UInt32
  /-- what the processes and the monitors share -/
  region : TokenRegion := {}
  /-- the processes, by number -/
  governors : Array Governor := #[]
  /-- each refill with the process it works for -/
  refills : Array (Refill × Nat) := #[]
  monitors : Array Monitor := #[]
  /-- who waits for the first parameters -/
  waiting : List (ThrottleConfig × ComputeQuota) := []
  /-- the tokens of those who waited and were let in -/
  admitted : List UInt64 := []

namespace Group

/-- The quota of the group's device. -/
def quota (group : Group) (percent : UInt32) : ComputeQuota := ⟨group.minor, percent⟩

/-- The settings of a process that may differ from the group in whether it stands alone. -/
def throttle (group : Group) (standalone : Option Bool) : ThrottleConfig :=
  (group.config.withStandalone standalone).throttle

/-- Lets in who waits, as far as that is possible. -/
def letIn (group : Group) : Group :=
  group.waiting.foldl (fun group (config, quota) =>
    match Limiter.enter? group.region config quota with
    | some (.ok (limiter, region)) =>
      { group with region, admitted := group.admitted ++ [limiter.bucket.tokens] }
    | _ => { group with waiting := group.waiting ++ [(config, quota)] })
    { group with waiting := [] }

/-- A monitor takes the region over. There is no answer where it waits. -/
def attach? (group : Group) (percent : UInt32) : Option (Except RegionFault Group) :=
  let quota := group.quota percent
  (Monitor.takeOver? group.region group.config.throttle quota).map fun result =>
    result.map fun region =>
      { group with
        region, monitors := group.monitors.push (.create group.config quota group.name) }

/-- A process enters; the answer is how many tokens it starts with. There is none where it
waits. -/
def enter? (group : Group) (percent : UInt32) (standalone : Option Bool) :
    Option (Except RegionFault (UInt64 × Group)) :=
  (Limiter.enter? group.region (group.throttle standalone) (group.quota percent)).map fun result =>
    result.map fun (limiter, region) =>
      (limiter.bucket.tokens,
        { group with region, governors := group.governors.push { limiter := some limiter } })

/-- A process that nothing limits. -/
def enterUnlimited (group : Group) : Group :=
  { group with governors := group.governors.push .disabled }

/-- A process enters as soon as it can. -/
def enterLater (group : Group) (percent : UInt32) (standalone : Option Bool) : Group :=
  { group with
    waiting := group.waiting ++ [(group.throttle standalone, group.quota percent)] }

/-- The governor of a process. Nothing limits one that has not entered. -/
def governor (group : Group) (who : Nat) : Governor :=
  (group.governors[who]?).getD .disabled

/-- A process launches up to `n` times and stops before it would block. -/
def launch (group : Group) (who n : Nat) : Nat × Group :=
  let (granted, governor) := (group.governor who).launchUpTo n
  (granted, { group with governors := group.governors.setIfInBounds who governor })

/-- Takes a token without a launch; the answer is whether there was one. -/
def take (group : Group) (who : Nat) : Option Bool × Group :=
  match (group.governor who).limiter with
  | none => (none, group)
  | some limiter =>
    let taken := limiter.bucket.take?
    let limiter := { limiter with bucket := taken.getD limiter.bucket }
    (some taken.isSome,
      { group with governors :=
          group.governors.modify who fun governor => { governor with limiter := some limiter } })

/-- Starts a refill for a process. -/
def startRefill (group : Group) (who : Nat) : Option Refill × Group :=
  match (group.governor who).limiter with
  | none => (none, group)
  | some limiter =>
    let (refill, region) := Refill.start limiter group.region
    (some refill, { group with region, refills := group.refills.push (refill, who) })

/-- A refill looks for a publication, and says whether there was one. -/
def refresh (group : Group) (who : Nat) : Option (Bool × Refill) × Group :=
  match group.refills[who]? with
  | none => (none, group)
  | some (refill, owner) =>
    let (applied, refill, region) := refill.refresh group.region
    (some (applied, refill),
      { group with region, refills := group.refills.setIfInBounds who (refill, owner) })

/-- A refill runs `n` cycles. -/
def cycle (group : Group) (who n : Nat) : Option Refill × Group :=
  match group.refills[who]? with
  | none => (none, group)
  | some (refill, owner) =>
    let limiter := (group.governor owner).limiter.getD default
    let (refill, limiter, region) := n.fold
      (fun _ _ (refill, limiter, region) => refill.cycle limiter region)
      (refill, limiter, group.region)
    (some refill,
      { group with
        region
        refills := group.refills.setIfInBounds who (refill, owner)
        governors := group.governors.modify owner fun governor =>
          { governor with limiter := some limiter } })

end Group

end GpuQuota
