import GpuQuota.Pacing.Bucket
import GpuQuota.Pacing.LaunchWindow
import GpuQuota.Pacing.TokenRegion

/-!
# The limiter of a process

A process under a compute quota joins the token region of its control group. Its launches take
tokens from a bucket of its own, which starts with as many as the limit in the region; a refill
adds the published rate once a cycle and reports how much was launched.

* `tokens_enter`: with how many tokens a process starts.
* `launches_launch`: every admitted launch is counted.
* `launchUpTo_succ`: several launches are admitted one by one.
-/

namespace GpuQuota.Pacing

open GpuQuota.Settings

/-- One process's side of a compute quota. -/
structure Limiter where
  quota : ComputeQuota
  /-- the tokens for launches -/
  bucket : Bucket
  /-- launches since the last refill cycle -/
  launches : UInt32 := 0
  /-- the length of a cycle where the region gives none -/
  fallbackNs : Nat
  deriving DecidableEq, Repr, Inhabited

namespace Limiter

/-- A standalone process writes the first parameters itself if nobody has. -/
def prepare (region : TokenRegion) (config : ThrottleConfig) (quota : ComputeQuota) :
    Except RegionFault TokenRegion :=
  if config.standalone then
    match region.setUp quota.percent config.waitIntervalNs with
    | (.ok _, after) => .ok after
    | (.error error, _) => .error (.semaphore error)
  else .ok region

/-- Enters a region. There is no answer as long as the process waits for the first parameters. -/
def enter? (region : TokenRegion) (config : ThrottleConfig) (quota : ComputeQuota) :
    Option (Except RegionFault (Limiter × TokenRegion)) :=
  match prepare region config quota with
  | .error fault => some (.error fault)
  | .ok prepared =>
    prepared.waitReady?.map fun
      | .error error => .error (.semaphore error)
      | .ok region =>
        .ok ({ quota, bucket := ⟨region.limit.toUInt64⟩, fallbackNs := config.waitIntervalNs },
          region)

/-- Admits one launch; there is no limiter afterwards where the launch blocks. -/
def launch? (limiter : Limiter) : Option Limiter :=
  limiter.bucket.take?.map fun bucket =>
    { limiter with bucket, launches := limiter.launches + 1 }

/-- Admits up to `n` launches without blocking; the answer is how many. -/
def launchUpTo (limiter : Limiter) (n : Nat) : Nat × Limiter :=
  let (granted, bucket) := limiter.bucket.takeUpTo n
  (granted, { limiter with bucket, launches := limiter.launches + UInt32.ofNat granted })

theorem tokens_enter {region after : TokenRegion} {config : ThrottleConfig} {quota : ComputeQuota}
    {limiter : Limiter} (h : enter? region config quota = some (.ok (limiter, after))) :
    limiter.bucket.tokens = after.limit.toUInt64 := by
  unfold enter? at h
  split at h
  · simp at h
  · rw [Option.map_eq_some_iff] at h
    obtain ⟨result, _, h⟩ := h
    cases result with
    | error => simp at h
    | ok region =>
      simp only [Except.ok.injEq, Prod.mk.injEq] at h
      obtain ⟨rfl, rfl⟩ := h
      rfl

theorem launches_launch {limiter after : Limiter} (h : limiter.launch? = some after) :
    after.launches = limiter.launches + 1 := by
  obtain ⟨bucket, _, rfl⟩ := Option.map_eq_some_iff.1 h
  rfl

theorem launchUpTo_succ {limiter after : Limiter} (n : Nat) (h : limiter.launch? = some after) :
    limiter.launchUpTo (n + 1) = ((after.launchUpTo n).1 + 1, (after.launchUpTo n).2) := by
  obtain ⟨bucket, hbucket, rfl⟩ := Option.map_eq_some_iff.1 h
  simp only [launchUpTo, Bucket.takeUpTo_succ n hbucket, UInt32.ofNat_add]
  congr 2
  grind

end Limiter

/-- The refill of a limiter: what it last consumed, and the launches of the last cycles. -/
structure Refill where
  /-- the version consumed last -/
  seen : UInt64 := 0
  /-- the tokens of a cycle -/
  rate : UInt32 := 1
  /-- the length of a cycle -/
  intervalNs : Nat
  /-- the launches of the last cycles -/
  window : LaunchWindow := .empty
  deriving DecidableEq, Repr, Inhabited

namespace Refill

/-- Applies a publication. An interval of zero stands for none. -/
def apply (refill : Refill) (update : TokenUpdate) : Refill :=
  { refill with
    seen := update.version
    rate := update.rate
    intervalNs :=
      if update.intervalNs = 0 then refill.intervalNs else update.intervalNs.toNat }

/-- Consumes a newer publication, if there is one, and says whether. -/
def refresh (refill : Refill) (region : TokenRegion) : Bool × Refill × TokenRegion :=
  match region.consume refill.seen with
  | (some update, after) => (true, refill.apply update, after)
  | (none, after) => (false, refill, after)

/-- A refill that has consumed what is published. -/
def start (limiter : Limiter) (region : TokenRegion) : Refill × TokenRegion :=
  (Refill.refresh { intervalNs := limiter.fallbackNs } region).2

/-- One cycle: posts tokens and reports the launches since the last cycle. -/
def cycle (refill : Refill) (limiter : Limiter) (region : TokenRegion) :
    Refill × Limiter × TokenRegion :=
  let window := refill.window.record limiter.launches
  ({ refill with window },
    { limiter with bucket := limiter.bucket.add refill.rate.toUInt64, launches := 0 },
    region.recordAverage window.average)

end Refill

end GpuQuota.Pacing
