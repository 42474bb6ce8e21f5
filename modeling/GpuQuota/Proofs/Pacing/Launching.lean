import GpuQuota.Pacing.Limiter
import Mathlib.Logic.Function.Basic
import Mathlib.Logic.Relation

/-!
# Launching step by step

The threads of a process launch at once, while a refill posts tokens and samples how much has been
launched. `Limiter.launch?` and `Refill.cycle` are several steps each: a launch takes a token and is
counted afterwards, and a cycle adds to the bucket, takes the counter and records it. All of them
come in between each other.

The region belongs to others as well, so a refill may load anything from it, also a rate that is
newer than its version.

* `Launch.Move` is a step of a thread, and `Launching.Step` lets a thread or the refill move;
* `Launching.log` notes what has been done, and `Launching.Reachable` is what any steps lead to;
* `Launching.launch_uninterrupted` and `Launching.cycle_uninterrupted`: without interruption a
  launch and a cycle are those of the limiter.
-/

namespace GpuQuota.Pacing

/-- How far a thread has come with a launch. -/
inductive Launch where
  /-- no launch is under way -/
  | idle
  /-- a token is taken, and the launch is not counted yet -/
  | counting
  /-- the launch is counted, and the thread may go on to the driver -/
  | admitted
  deriving DecidableEq

/-- What is noted of the steps of a thread. -/
inductive Mark where
  /-- it took a token for a launch -/
  | acquired
  /-- it took a token that was there, without a launch -/
  | tried
  /-- it counted its launch -/
  | counted
  /-- its launch went to the driver -/
  | forwarded
  deriving DecidableEq

/-- How far a refill has come with a cycle. -/
inductive Stage where
  /-- a cycle is over -/
  | resting
  /-- the tokens are posted -/
  | posted
  /-- so many launches were in the counter, which starts again -/
  | sampled (launches : UInt32)
  deriving DecidableEq

/-- An entry of the log, of a thread (`τ`) or of the refill. -/
inductive Event (τ : Type) where
  /-- a thread has done something -/
  | launch (t : τ) (mark : Mark)
  /-- so many tokens were posted -/
  | post (rate : UInt32)
  /-- so many launches were found in the counter -/
  | sample (launches : UInt32)
  deriving DecidableEq

/-- One step of a thread. A thread that wants a token to launch does not move while there is none.
-/
inductive Launch.Move : Limiter → Launch → List Mark → Limiter → Launch → Prop where
  /-- A thread that waits gets a token. -/
  | take {limiter : Limiter} {bucket : Bucket} : limiter.bucket.take? = some bucket →
      Move limiter .idle [.acquired] { limiter with bucket } .counting
  /-- It counts its launch. -/
  | count {limiter : Limiter} :
      Move limiter .counting [.counted] { limiter with launches := limiter.launches + 1 } .admitted
  /-- It goes on to the driver. -/
  | forward {limiter : Limiter} : Move limiter .admitted [.forwarded] limiter .idle
  /-- The launch is admitted for somebody who does not go on to the driver. -/
  | leave {limiter : Limiter} : Move limiter .admitted [] limiter .idle
  /-- A thread that does not wait gets a token, and no launch is counted for it. -/
  | tryTake {limiter : Limiter} {bucket : Bucket} : limiter.bucket.take? = some bucket →
      Move limiter .idle [.tried] { limiter with bucket } .idle
  /-- It gets none. -/
  | tryInVain {limiter : Limiter} : limiter.bucket.take? = none →
      Move limiter .idle [] limiter .idle

/-- A limiter with its threads (`τ`) and its refill. -/
structure Launching (τ : Type) where
  /-- the bucket and the counter of launches -/
  limiter : Limiter
  /-- how far each thread has come -/
  launch : τ → Launch
  /-- what the refill knows -/
  refill : Refill
  /-- how far it has come with a cycle -/
  stage : Stage
  /-- what has been done, the newest first -/
  log : List (Event τ)

namespace Launching

variable {τ : Type} [DecidableEq τ]

/-- Nobody has launched, and the refill has not loaded anything. -/
def start (limiter : Limiter) : Launching τ where
  limiter := limiter
  launch _ := .idle
  refill := { intervalNs := limiter.fallbackNs }
  stage := .resting
  log := []

/-- A thread has made a step. -/
def put (now : Launching τ) (t : τ) (marks : List Mark) (limiter : Limiter) (turn : Launch) :
    Launching τ :=
  { now with
    limiter
    launch := Function.update now.launch t turn
    log := marks.map (.launch t) ++ now.log }

/-- A thread or the refill moves. -/
inductive Step : Launching τ → Launching τ → Prop where
  /-- A thread moves. -/
  | thread {now : Launching τ} (t : τ) {marks : List Mark} {limiter : Limiter} {turn : Launch} :
      Launch.Move now.limiter (now.launch t) marks limiter turn →
      Step now (now.put t marks limiter turn)
  /-- The refill consumes a publication, if what it loads is new. -/
  | refresh {now : Launching τ} (loaded : TokenRegion) : now.stage = .resting →
      Step now { now with refill := (now.refill.refresh loaded).2.1 }
  /-- The refill puts tokens into the bucket, at the rate that it knows. -/
  | post {now : Launching τ} : now.stage = .resting →
      Step now { now with
        limiter.bucket := now.limiter.bucket.add now.refill.rate.toUInt64
        stage := .posted
        log := .post now.refill.rate :: now.log }
  /-- It reads the counter of launches, which starts again. -/
  | sample {now : Launching τ} : now.stage = .posted →
      Step now { now with
        limiter.launches := 0
        stage := .sampled now.limiter.launches
        log := .sample now.limiter.launches :: now.log }
  /-- It records what it has read. -/
  | record {now : Launching τ} {launches : UInt32} : now.stage = .sampled launches →
      Step now { now with
        refill.window := now.refill.window.record launches
        stage := .resting }

/-- What any number of steps lead to. -/
def Steps : Launching τ → Launching τ → Prop := Relation.ReflTransGen Step

/-- What can come about with a limiter. -/
def Reachable (limiter : Limiter) (now : Launching τ) : Prop := Steps (start limiter) now

variable {now : Launching τ}

/-- **A launch that nobody interrupts is that of the limiter.** -/
theorem launch_uninterrupted {t : τ} (hidle : now.launch t = .idle) {after : Limiter}
    (h : now.limiter.launch? = some after) :
    ∃ next, Steps now next ∧ next.limiter = after ∧ next.launch t = .admitted := by
  obtain ⟨bucket, htake, rfl⟩ := Option.map_eq_some_iff.1 h
  have htaken : Launch.Move now.limiter (now.launch t) [.acquired] { now.limiter with bucket }
      .counting := by
    rw [hidle]
    exact .take htake
  have hcounting : (now.put t [.acquired] { now.limiter with bucket } .counting).launch t =
      .counting := Function.update_self _ _ _
  have hcounted : Launch.Move { now.limiter with bucket }
      ((now.put t [.acquired] { now.limiter with bucket } .counting).launch t) [.counted]
      { now.limiter with bucket, launches := now.limiter.launches + 1 } .admitted := by
    rw [hcounting]
    exact .count
  exact ⟨_, (Relation.ReflTransGen.single (.thread t htaken)).tail (.thread t hcounted), rfl,
    Function.update_self _ _ _⟩

/-- **A cycle that nobody interrupts is that of the refill.** -/
theorem cycle_uninterrupted (hresting : now.stage = .resting) (region : TokenRegion) :
    ∃ next, Steps now next ∧ next.refill = (now.refill.cycle now.limiter region).1 ∧
      next.limiter = (now.refill.cycle now.limiter region).2.1 ∧ next.stage = .resting := by
  have hposted := Relation.ReflTransGen.single (Step.post hresting)
  have hsampled := hposted.tail (.sample rfl)
  exact ⟨_, hsampled.tail (.record rfl), rfl, rfl, rfl⟩

end Launching

end GpuQuota.Pacing
