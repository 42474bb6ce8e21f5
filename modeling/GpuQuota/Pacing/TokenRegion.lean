import GpuQuota.Fault
import GpuQuota.Number.Word
import GpuQuota.Settings.Config
import GpuQuota.Shared.Semaphore
import GpuQuota.Shared.Store

/-!
# The token region

The processes of one control group and their monitor meet in a shared region. The monitor writes
a rate there, how many launch tokens each refill cycle posts, and publishes it by raising the
version; the processes consume a publication and acknowledge its version; in the other direction
they record how much they launched.

The region starts fresh. Exactly one process claims it, writes the first parameters and opens the
gate; whoever came earlier waits at the gate, and passes it on open.

The parameters are 32-bit words with a sign, as they lie in shared memory, and what does not fit
wraps. The readers `limit` and `rate` answer unsigned words.

* `version_publish`, `consume_self`, `acked_consume`: what the steps of a handoff do.
-/

namespace GpuQuota.Pacing

open GpuQuota.Number GpuQuota.Settings GpuQuota.Shared

/-- How far the first writer has come. -/
inductive Readiness where
  /-- nobody has begun -/
  | fresh
  /-- the first parameters are being written -/
  | preparing
  /-- they are all there -/
  | ready
  deriving DecidableEq, Repr, Inhabited

/-- A word with a sign as an unsigned number that is at least `least`. -/
def atLeast (least word : Int32) : UInt32 := (max word least).toUInt32

/-- The region of one control group on one device. -/
structure TokenRegion where
  readiness : Readiness := .fresh
  /-- where processes wait for the first parameters -/
  gate : Semaphore := ⟨0⟩
  /-- the length of a refill cycle -/
  intervalNs : UInt64 := 0
  /-- how often parameters have been published -/
  version : UInt64 := 0
  /-- the latest version that somebody has consumed -/
  acked : UInt64 := 0
  /-- the limit, as it is stored -/
  limitWord : Int32 := 0
  /-- the tokens of a refill cycle, as they are stored -/
  rateWord : Int32 := 0
  /-- the controller's ticks since the limit last changed -/
  ticks : Int32 := 0
  /-- the last average that was recorded with an even number -/
  evenSlot : Int32 := 0
  /-- the last average that was recorded with an odd number -/
  oddSlot : Int32 := 0
  /-- how many averages have been recorded; the next goes to the slot of its parity -/
  recorded : UInt32 := 0
  deriving DecidableEq, Repr, Inhabited

/-- What a consumer takes from a publication. -/
structure TokenUpdate where
  /-- the version that is acknowledged with it -/
  version : UInt64
  /-- publications since the one seen last that this consumer never saw -/
  skipped : UInt64
  /-- the tokens of a cycle from now on -/
  rate : UInt32
  /-- the length of a cycle from now on -/
  intervalNs : UInt64
  deriving DecidableEq, Repr

/-- What a consumer that has seen a version takes, once it has loaded a newer one and then the
rate and the interval. -/
def TokenUpdate.since (seen version : UInt64) (rate : UInt32) (intervalNs : UInt64) :
    TokenUpdate where
  version := version
  skipped := saturatingSub (saturatingSub version seen) 1
  rate := rate
  intervalNs := intervalNs

namespace TokenRegion

/-- Whether the first parameters are there. -/
def isReady (region : TokenRegion) : Bool := region.readiness == .ready

/-- The share of compute time that the region was set up for. -/
def limit (region : TokenRegion) : UInt32 := atLeast 0 region.limitWord

/-- Tokens for each refill cycle. -/
def rate (region : TokenRegion) : UInt32 := atLeast 1 region.rateWord

/-- Whether the last publication has not been consumed. -/
def isPending (region : TokenRegion) : Bool := region.version != region.acked

/-- Joins the region of a control group on a device by its name. -/
def join (store : Store TokenRegion) (config : RegionConfig) (minor : UInt32) (group : String) :
    Except RegionFault Joined × Store TokenRegion :=
  store.join (config.tokenName minor group) {}

/-! ## Single steps

Each of these is one store, or stores of words that nobody else looks at yet. -/

/-- Claims a fresh region; `false` where somebody else was faster. -/
def claim (region : TokenRegion) : Bool × TokenRegion :=
  match region.readiness with
  | .fresh => (true, { region with readiness := .preparing })
  | _ => (false, region)

/-- The parameters of a claimed region: one token a cycle, nothing counted or recorded yet. -/
def layParameters (region : TokenRegion) (limit : UInt32) (intervalNs : Nat) : TokenRegion :=
  { region with
    limitWord := limit.toInt32
    rateWord := 1
    ticks := 0
    evenSlot := 0
    oddSlot := 0
    recorded := 0
    intervalNs := UInt64.ofNat intervalNs }

/-- Announces the parameters. -/
def publish (region : TokenRegion) : TokenRegion :=
  { region with version := region.version + 1 }

/-- Writes a rate without announcing it. -/
def setRate (region : TokenRegion) (rate : UInt32) : TokenRegion :=
  { region with rateWord := (max rate 1).toInt32 }

/-- Counts one tick of the controller. -/
def tick (region : TokenRegion) : TokenRegion :=
  { region with ticks := region.ticks + 1 }

/-! ## Becoming ready

A region goes from fresh to preparing by an exchange that only one process can win, and from there
to ready. The gate is opened after that, for those that came too early. -/

/-- Writes the first parameters, announces them and opens the gate. The answer is whether this
process was the one to do so. -/
def setUp (region : TokenRegion) (limit : UInt32) (intervalNs : Nat) :
    Except OsError Bool × TokenRegion :=
  match region.claim with
  | (false, _) => (.ok false, region)
  | (true, claimed) =>
    let ready := publish { claimed.layParameters limit intervalNs with readiness := .ready }
    match ready.gate.post with
    | .ok gate => (.ok true, { ready with gate })
    | .error error => (.error error, ready)

/-- A region that has been set up, and that nobody has used since. -/
def justSetUp (limit : UInt32) (intervalNs : Nat) : TokenRegion :=
  { readiness := .ready
    gate := ⟨1⟩
    intervalNs := UInt64.ofNat intervalNs
    version := 1
    limitWord := limit.toInt32
    rateWord := 1 }

theorem setUp_untouched (limit : UInt32) (intervalNs : Nat) :
    setUp {} limit intervalNs = (.ok true, justSetUp limit intervalNs) := rfl

/-- Passes the gate: at once where the region is ready, else by taking the gate's token and
putting it back for the next one. There is no answer where the wait blocks. -/
def waitReady? (region : TokenRegion) : Option (Except OsError TokenRegion) :=
  if region.isReady then some (.ok region)
  else region.gate.wait?.map fun taken => taken.post.map fun gate => { region with gate }

/-! ## The monitor's side

The monitor keeps what has been learned when its limit changes, in proportion. -/

/-- The rate for a new limit, in proportion to the old one. -/
def rescaledRate (rate old new : Int32) : Int :=
  max (if 0 < old then (rate.toInt * new.toInt).tdiv old.toInt else rate.toInt) 1

/-- Adopts a limit without announcing it; the answer is whether it differs from the old one. -/
def retarget (region : TokenRegion) (limit : UInt32) : Bool × TokenRegion :=
  let new := limit.toInt32
  if region.limitWord = new then (false, region)
  else
    (true, { region with
      rateWord := Int32.ofInt (rescaledRate region.rateWord region.limitWord new)
      limitWord := new
      ticks := 0 })

/-- The last two recorded averages, the newest first. -/
def averages (region : TokenRegion) : UInt32 × UInt32 :=
  let even := atLeast 0 region.evenSlot
  let odd := atLeast 0 region.oddSlot
  if region.recorded % 2 = 0 then (odd, even) else (even, odd)

/-! ## The side of the processes

A process remembers the version that it has seen last, and a region the greatest version that any
process has acknowledged. -/

/-- Takes the parameters if they are newer than the version seen last, and acknowledges them. -/
def consume (region : TokenRegion) (seen : UInt64) : Option TokenUpdate × TokenRegion :=
  if region.version = seen then (none, region)
  else
    (some (.since seen region.version region.rate region.intervalNs),
     { region with acked := max region.acked region.version })

/-- Records a rolling average of launches. -/
def recordAverage (region : TokenRegion) (average : UInt32) : TokenRegion :=
  if region.recorded % 2 = 0 then
    { region with evenSlot := average.toInt32, recorded := region.recorded + 1 }
  else
    { region with oddSlot := average.toInt32, recorded := region.recorded + 1 }

theorem version_publish (region : TokenRegion) :
    region.publish.version = region.version + 1 := rfl

theorem acked_consume {region : TokenRegion} {seen : UInt64} (h : region.version ≠ seen) :
    (region.consume seen).2.acked = max region.acked region.version := by
  simp [consume, h]

theorem consume_self (region : TokenRegion) : region.consume region.version = (none, region) := by
  simp [consume]

end TokenRegion

end GpuQuota.Pacing
