import GpuQuota.Pacing.Limiter
import GpuQuota.Pacing.Monitor
import Mathlib.Data.Nat.Notation
import Mathlib.Logic.Function.Basic
import Mathlib.Logic.Relation

/-!
# Many processes enter one token region

`Monitor.takeOver?` and `Limiter.enter?` let a process enter a token region as if it were alone. In
truth any number of processes enter at once, and a process gives way to others between any two
accesses to the region:

* `Word` is one word of the region with its new content; the first parameters and the adoption of a
  limit are lists of words that are stored one after the other;
* `Entry.Move` is one access of one process: the claim of a fresh region, the storing of one word,
  the opening, the publications, and the operations on the gate;
* `Opening` holds the region, how far each process has come, and a log of what they have done;
  `Opening.Step` lets one process move, and `Opening.Reachable` is what any number of steps lead to.

A process that nobody interrupts ends where `Monitor.takeOver?` (`Entry.Moves.takeOver`) or
`Limiter.enter?` (`Entry.Moves.enter`) end.
-/

namespace GpuQuota.Pacing

open GpuQuota.Settings GpuQuota.Shared

/-! ## Words

Processes see a set-up or an adoption half done, so both are lists of words here, each stored by an
access of its own. Stored without interruption they come to what `layParameters` and `retarget` do.
-/

/-- A word of the region with its new content. -/
inductive Word where
  /-- the limit that the rate is for -/
  | limit (word : Int32)
  /-- the rate -/
  | rate (word : Int32)
  /-- the samples that were decided on -/
  | ticks (word : Int32)
  /-- the last average with an even number -/
  | evenSlot (word : Int32)
  /-- the last average with an odd number -/
  | oddSlot (word : Int32)
  /-- the number of averages -/
  | recorded (word : UInt32)
  /-- how long a cycle is -/
  | intervalNs (word : UInt64)
  deriving DecidableEq, Repr

namespace TokenRegion

/-- Stores one word. -/
def store (region : TokenRegion) : Word → TokenRegion
  | .limit word => { region with limitWord := word }
  | .rate word => { region with rateWord := word }
  | .ticks word => { region with ticks := word }
  | .evenSlot word => { region with evenSlot := word }
  | .oddSlot word => { region with oddSlot := word }
  | .recorded word => { region with recorded := word }
  | .intervalNs word => { region with intervalNs := word }

end TokenRegion

/-- A process that is about to enter: a monitor, or one under a quota, which may have to write the
first parameters itself. -/
structure Party where
  /-- whether it adopts its own limit in a region that it finds -/
  isMonitor : Bool
  config : ThrottleConfig
  quota : ComputeQuota

namespace Party

/-- Whether the process writes the first parameters if it is the first. -/
def claims (party : Party) : Bool := party.isMonitor || party.config.standalone

/-- The limit as it is stored. -/
def limitWord (party : Party) : Int32 := party.quota.percent.toInt32

/-- The first parameters in the order in which they are stored. -/
def first (party : Party) : List Word :=
  [.limit party.limitWord, .rate 1, .ticks 0, .evenSlot 0, .oddSlot 0, .recorded 0,
    .intervalNs (UInt64.ofNat party.config.waitIntervalNs)]

/-- What is stored to adopt the limit, where `rate` and `old` were loaded. -/
def adoption (party : Party) (rate old : Int32) : List Word :=
  [.rate (Int32.ofInt (TokenRegion.rescaledRate rate old party.limitWord)),
    .limit party.limitWord, .ticks 0]

/-- The first parameters, word by word, are what a set-up lays. -/
theorem foldl_first (party : Party) (region : TokenRegion) :
    party.first.foldl TokenRegion.store region =
      region.layParameters party.quota.percent party.config.waitIntervalNs := by
  cases region
  rfl

/-- The adoption of a new limit, word by word, is a retarget. -/
theorem foldl_adoption (party : Party) {region : TokenRegion}
    (h : region.limitWord ≠ party.limitWord) :
    (party.adoption region.rateWord region.limitWord).foldl TokenRegion.store region =
      (region.retarget party.quota.percent).2 := by
  have hne : ¬ region.limitWord = party.quota.percent.toInt32 := h
  simp only [TokenRegion.retarget, if_neg hne]
  rfl

end Party

/-! ## One process

Only a process that writes the first parameters claims the region; the exchange of the readiness
decides who of them is the first. All others wait. -/

/-- How far a process has come with entering. -/
inductive Entry where
  /-- nothing has been done -/
  | outside
  /-- the region is claimed, and these words of the first parameters are still to be stored -/
  | laying (rest : List Word)
  /-- the region is marked as ready and not published -/
  | announcing
  /-- published, and the gate still to be opened -/
  | opening
  /-- about to look whether the region is ready -/
  | checking
  /-- at the gate -/
  | waiting
  /-- the gate's token is taken and still to be put back -/
  | passing
  /-- the parameters may be used -/
  | inside
  /-- a monitor has found another limit -/
  | rescaling (old : Int32)
  /-- these words are still to be stored to adopt the limit -/
  | adopting (rest : List Word)
  /-- a monitor is about to publish once more -/
  | republishing
  /-- a monitor is done -/
  | attached
  /-- a process under a quota is done, with so many tokens -/
  | joined (tokens : UInt32)
  /-- the gate gave an error -/
  | failed
  deriving DecidableEq

/-- What is noted of the steps of a process. -/
inductive Deed where
  /-- it claimed the region -/
  | claimed
  /-- it stored a word of the parameters -/
  | stored (word : Word)
  /-- its set-up returned that it was the first -/
  | setUp
  /-- its wait for the first parameters returned -/
  | passed
  deriving DecidableEq

namespace Entry

/-- One access of a process to the region. -/
inductive Move (party : Party) : TokenRegion → Entry → List Deed → TokenRegion → Entry → Prop where
  /-- The region is fresh, and it is claimed. -/
  | claim {region claimed : TokenRegion} : party.claims → region.claim = (true, claimed) →
      Move party region .outside [.claimed] claimed (.laying party.first)
  /-- Somebody else has claimed it. -/
  | lose {region : TokenRegion} : party.claims → region.claim.1 = false →
      Move party region .outside [] region .checking
  /-- A process that lays nothing out looks at the region as it is. -/
  | come {region : TokenRegion} : ¬ party.claims → Move party region .outside [] region .checking
  /-- The next word of the first parameters is stored. -/
  | lay {region : TokenRegion} {word : Word} {rest : List Word} :
      Move party region (.laying (word :: rest)) [.stored word] (region.store word) (.laying rest)
  /-- All of them are, and the region is marked. -/
  | ready {region : TokenRegion} :
      Move party region (.laying []) [] { region with readiness := .ready } .announcing
  /-- The first parameters are published. -/
  | announce {region : TokenRegion} : Move party region .announcing [] region.publish .opening
  /-- The gate is opened, and a process under a quota goes through it as well. -/
  | openGate {region : TokenRegion} {gate : Semaphore} : region.gate.post = .ok gate →
      Move party region .opening [.setUp] { region with gate }
        (if party.isMonitor then .republishing else .checking)
  /-- The gate cannot be opened. -/
  | jam {region : TokenRegion} {error : OsError} : region.gate.post = .error error →
      Move party region .opening [] region .failed
  /-- The region is ready, and the gate is left alone. -/
  | pass {region : TokenRegion} : region.isReady →
      Move party region .checking [.passed] region .inside
  /-- The region is not ready. -/
  | wait {region : TokenRegion} : ¬ region.isReady → Move party region .checking [] region .waiting
  /-- The gate gives its token. -/
  | take {region : TokenRegion} {gate : Semaphore} : region.gate.wait? = some gate →
      Move party region .waiting [] { region with gate } .passing
  /-- The token goes back, for the next one. -/
  | putBack {region : TokenRegion} {gate : Semaphore} : region.gate.post = .ok gate →
      Move party region .passing [.passed] { region with gate } .inside
  /-- It cannot be put back. -/
  | spill {region : TokenRegion} {error : OsError} : region.gate.post = .error error →
      Move party region .passing [] region .failed
  /-- A monitor finds its own limit. -/
  | keep {region : TokenRegion} : party.isMonitor → region.limitWord = party.limitWord →
      Move party region .inside [] region .republishing
  /-- A monitor finds another limit. -/
  | compare {region : TokenRegion} : party.isMonitor → region.limitWord ≠ party.limitWord →
      Move party region .inside [] region (.rescaling region.limitWord)
  /-- The rate is brought into proportion with the monitor's limit. -/
  | rescale {region : TokenRegion} {old : Int32} :
      Move party region (.rescaling old) [] region
        (.adopting (party.adoption region.rateWord old))
  /-- The next word for that limit is stored. -/
  | adopt {region : TokenRegion} {word : Word} {rest : List Word} :
      Move party region (.adopting (word :: rest)) [.stored word] (region.store word)
        (.adopting rest)
  /-- All of them are. -/
  | adopted {region : TokenRegion} : Move party region (.adopting []) [] region .republishing
  /-- A monitor publishes what there is, in any case. -/
  | republish {region : TokenRegion} : Move party region .republishing [] region.publish .attached
  /-- A process under a quota starts with the limit as its tokens. -/
  | join {region : TokenRegion} : ¬ party.isMonitor →
      Move party region .inside [] region (.joined region.limit)

/-! ### Without interruption

By itself a process comes to the result of the whole operation, or to the failure that it ends with.
-/

/-- What a process comes to by itself. -/
def Moves (party : Party) : TokenRegion × Entry → TokenRegion × Entry → Prop :=
  Relation.ReflTransGen fun now next => ∃ deeds, Move party now.1 now.2 deeds next.1 next.2

namespace Moves

variable {party : Party} {region middle after : TokenRegion} {entry turn last : Entry}
variable {deeds : List Deed}

theorem single (h : Move party region entry deeds after turn) :
    Moves party (region, entry) (after, turn) :=
  Relation.ReflTransGen.single ⟨deeds, h⟩

theorem tail (h : Moves party (region, entry) (middle, turn))
    (hmove : Move party middle turn deeds after last) :
    Moves party (region, entry) (after, last) :=
  Relation.ReflTransGen.tail h ⟨deeds, hmove⟩

theorem trans (h : Moves party (region, entry) (middle, turn))
    (hrest : Moves party (middle, turn) (after, last)) :
    Moves party (region, entry) (after, last) :=
  Relation.ReflTransGen.trans h hrest

/-- By itself a process lays whatever words it has left. -/
theorem lay (region : TokenRegion) (words : List Word) :
    Moves party (region, .laying words) (words.foldl TokenRegion.store region, .laying []) := by
  induction words generalizing region with
  | nil => exact .refl
  | cons word rest ih => exact (single .lay).trans (ih (region.store word))

/-- By itself a process stores whatever it has left of an adoption. -/
theorem adopt (region : TokenRegion) (words : List Word) :
    Moves party (region, .adopting words) (words.foldl TokenRegion.store region, .adopting []) := by
  induction words generalizing region with
  | nil => exact .refl
  | cons word rest ih => exact (single .adopt).trans (ih (region.store word))

/-- A process that may claim does what `TokenRegion.setUp` does. -/
theorem setUp (hclaims : party.claims) (region : TokenRegion) :
    (∃ after, region.setUp party.quota.percent party.config.waitIntervalNs = (.ok true, after) ∧
      Moves party (region, .outside)
        (after, if party.isMonitor then .republishing else .checking)) ∨
    (region.setUp party.quota.percent party.config.waitIntervalNs = (.ok false, region) ∧
      Moves party (region, .outside) (region, .checking)) ∨
    ∃ error after,
      region.setUp party.quota.percent party.config.waitIntervalNs = (.error error, after) ∧
      Moves party (region, .outside) (after, .failed) := by
  rw [TokenRegion.setUp]
  rcases hclaim : region.claim with ⟨mine, claimed⟩
  cases mine with
  | false =>
    refine .inr (.inl ⟨rfl, single (.lose hclaims ?_)⟩)
    rw [hclaim]
  | true =>
    have hlaid : Moves party (region, .outside) (claimed.layParameters party.quota.percent
        party.config.waitIntervalNs, .laying []) := by
      rw [← party.foldl_first claimed]
      exact (single (.claim hclaims hclaim)).trans (lay claimed party.first)
    have hpublished := (hlaid.tail .ready).tail .announce
    dsimp only
    split
    · next gate hgate => exact .inl ⟨_, rfl, hpublished.tail (.openGate hgate)⟩
    · next error hgate => exact .inr (.inr ⟨error, _, rfl, hpublished.tail (.jam hgate)⟩)

/-- A process at the gate does what `TokenRegion.waitReady?` does. -/
theorem waitReady {answer : Except OsError TokenRegion} (h : region.waitReady? = some answer) :
    (∃ after, answer = .ok after ∧ Moves party (region, .checking) (after, .inside)) ∨
    ∃ error after, answer = .error error ∧ Moves party (region, .checking) (after, .failed) := by
  rw [TokenRegion.waitReady?] at h
  split at h
  · next hready =>
    obtain rfl := Option.some.inj h
    exact .inl ⟨region, rfl, single (.pass hready)⟩
  · next hready =>
    obtain ⟨gate, hgate, rfl⟩ := Option.map_eq_some_iff.1 h
    have htaken : Moves party (region, .checking) ({ region with gate }, .passing) :=
      (single (.wait hready)).tail (.take hgate)
    cases hpost : gate.post with
    | ok put => exact .inl ⟨{ region with gate := put }, rfl, htaken.tail (.putBack hpost)⟩
    | error error => exact .inr ⟨error, _, rfl, htaken.tail (.spill hpost)⟩

/-- A monitor that is inside does what `TokenRegion.retarget` does. -/
theorem retarget (hmonitor : party.isMonitor) (region : TokenRegion) :
    Moves party (region, .inside) ((region.retarget party.quota.percent).2, .republishing) := by
  by_cases hlimit : region.limitWord = party.limitWord
  · have hsame : (region.retarget party.quota.percent).2 = region :=
      congrArg Prod.snd (if_pos hlimit)
    rw [hsame]
    exact single (.keep hmonitor hlimit)
  · rw [← party.foldl_adoption hlimit]
    have hrescaled := (single (.compare hmonitor hlimit)).tail .rescale
    exact (hrescaled.trans (adopt region _)).tail .adopted

/-- **A monitor that nobody interrupts takes a region over.** -/
theorem takeOver (hmonitor : party.isMonitor) {answer : Except RegionFault TokenRegion}
    (h : Monitor.takeOver? region party.config party.quota = some answer) :
    (∃ after, answer = .ok after ∧ Moves party (region, .outside) (after, .attached)) ∨
    ∃ fault after, answer = .error fault ∧ Moves party (region, .outside) (after, .failed) := by
  have hclaims : party.claims := by
    rw [Party.claims, hmonitor, Bool.true_or]
  rcases setUp hclaims region with
    ⟨ready, hsetUp, hmoves⟩ | ⟨hsetUp, hmoves⟩ | ⟨error, after, hsetUp, hmoves⟩
  · rw [Monitor.takeOver?, hsetUp] at h
    rw [if_pos hmonitor] at hmoves
    obtain rfl := Option.some.inj h
    exact .inl ⟨_, rfl, hmoves.tail .republish⟩
  · rw [Monitor.takeOver?, hsetUp] at h
    obtain ⟨result, hwait, rfl⟩ := Option.map_eq_some_iff.1 h
    rcases waitReady hwait with ⟨ready, rfl, hinside⟩ | ⟨error, after, rfl, hfailed⟩
    · have hadopted := (hmoves.trans hinside).trans (retarget hmonitor ready)
      exact .inl ⟨_, rfl, hadopted.tail .republish⟩
    · exact .inr ⟨_, after, rfl, hmoves.trans hfailed⟩
  · rw [Monitor.takeOver?, hsetUp] at h
    obtain rfl := Option.some.inj h
    exact .inr ⟨_, after, rfl, hmoves⟩

/-- A monitor that is alone is attached. -/
theorem attach (hmonitor : party.isMonitor)
    (h : Monitor.takeOver? region party.config party.quota = some (.ok after)) :
    Moves party (region, .outside) (after, .attached) := by
  obtain ⟨next, heq, hmoves⟩ | ⟨fault, _, heq, _⟩ := takeOver hmonitor h
  · obtain rfl := Except.ok.inj heq
    exact hmoves
  · cases heq

/-- A process under a quota comes to the gate as `Limiter.prepare` says. -/
theorem prepare (hplain : ¬ party.isMonitor) (region : TokenRegion) :
    (∃ after, Limiter.prepare region party.config party.quota = .ok after ∧
      Moves party (region, .outside) (after, .checking)) ∨
    ∃ fault after, Limiter.prepare region party.config party.quota = .error fault ∧
      Moves party (region, .outside) (after, .failed) := by
  rw [Limiter.prepare]
  by_cases hstandalone : party.config.standalone
  · have hclaims : party.claims := by
      rw [Party.claims, hstandalone, Bool.or_true]
    rw [if_pos hstandalone]
    rcases setUp hclaims region with
      ⟨ready, hsetUp, hmoves⟩ | ⟨hsetUp, hmoves⟩ | ⟨error, after, hsetUp, hmoves⟩
    · rw [if_neg hplain] at hmoves
      rw [hsetUp]
      exact .inl ⟨ready, rfl, hmoves⟩
    · rw [hsetUp]
      exact .inl ⟨region, rfl, hmoves⟩
    · rw [hsetUp]
      exact .inr ⟨_, after, rfl, hmoves⟩
  · have hclaims : ¬ party.claims := by
      rw [Party.claims, Bool.or_eq_true]
      exact not_or.2 ⟨hplain, hstandalone⟩
    rw [if_neg hstandalone]
    exact .inl ⟨region, rfl, single (.come hclaims)⟩

/-- **A process under a quota that nobody interrupts enters a region**, and starts with as many
tokens as its bucket has. -/
theorem enter (hplain : ¬ party.isMonitor) {answer : Except RegionFault (Limiter × TokenRegion)}
    (h : Limiter.enter? region party.config party.quota = some answer) :
    (∃ limiter after, answer = .ok (limiter, after) ∧
      limiter.bucket.tokens = after.limit.toUInt64 ∧
      Moves party (region, .outside) (after, .joined after.limit)) ∨
    ∃ fault after, answer = .error fault ∧ Moves party (region, .outside) (after, .failed) := by
  rcases prepare hplain region with ⟨prepared, hprepare, hmoves⟩ | ⟨fault, after, hprepare, hmoves⟩
  · rw [Limiter.enter?, hprepare] at h
    obtain ⟨result, hwait, rfl⟩ := Option.map_eq_some_iff.1 h
    rcases waitReady hwait with ⟨ready, rfl, hinside⟩ | ⟨error, after, rfl, hfailed⟩
    · exact .inl ⟨_, ready, rfl, rfl, (hmoves.trans hinside).tail (.join hplain)⟩
    · exact .inr ⟨_, after, rfl, hmoves.trans hfailed⟩
  · rw [Limiter.enter?, hprepare] at h
    obtain rfl := Option.some.inj h
    exact .inr ⟨fault, after, rfl, hmoves⟩

end Moves

end Entry

/-! ## All processes

Steps of different processes follow one another in any order, and a process that stops is one that
is not chosen any more. -/

/-- A region with all the processes (`π`) that enter it. -/
structure Opening (π : Type) where
  /-- what they share -/
  region : TokenRegion
  /-- how far each process has come -/
  entry : π → Entry
  /-- what has been done by whom, the newest first -/
  log : List (π × Deed)

namespace Opening

variable {π : Type} [DecidableEq π]

/-- A fresh region, and everybody outside. -/
def fresh : Opening π where
  region := {}
  entry _ := .outside
  log := []

/-- A process has made a step. -/
def put (now : Opening π) (i : π) (deeds : List Deed) (region : TokenRegion) (entry : Entry) :
    Opening π where
  region := region
  entry := Function.update now.entry i entry
  log := deeds.map (Prod.mk i) ++ now.log

/-- One process moves. -/
inductive Step (party : π → Party) : Opening π → Opening π → Prop where
  | move {now : Opening π} (i : π) {deeds : List Deed} {region : TokenRegion} {entry : Entry} :
      Entry.Move (party i) now.region (now.entry i) deeds region entry →
      Step party now (now.put i deeds region entry)

/-- What can come about on a fresh region. -/
inductive Reachable (party : π → Party) : Opening π → Prop where
  | fresh : Reachable party .fresh
  | step {now next : Opening π} : Reachable party now → Step party now next → Reachable party next

section Put

variable (now : Opening π) (i : π) (deeds : List Deed) (region : TokenRegion) (entry : Entry)

@[simp] theorem entry_put : (now.put i deeds region entry).entry i = entry :=
  Function.update_self _ _ _

variable {i}

theorem entry_put_of_ne {other : π} (h : other ≠ i) :
    (now.put i deeds region entry).entry other = now.entry other :=
  Function.update_of_ne h _ _

theorem mem_log_put {j : π} {deed : Deed} :
    (j, deed) ∈ (now.put i deeds region entry).log ↔
      j = i ∧ deed ∈ deeds ∨ (j, deed) ∈ now.log := by
  simp only [put, List.mem_append, List.mem_map, Prod.mk.injEq]
  refine or_congr ?_ Iff.rfl
  constructor
  · rintro ⟨_, hmem, rfl, rfl⟩
    exact ⟨rfl, hmem⟩
  · rintro ⟨rfl, hmem⟩
    exact ⟨deed, hmem, rfl, rfl⟩

end Put

variable {party : π → Party}

theorem Reachable.steps {now next : Opening π} (h : Reachable party now)
    (hsteps : Relation.ReflTransGen (Step party) now next) : Reachable party next := by
  induction hsteps with
  | refl => exact h
  | tail _ hstep ih => exact ih.step hstep

/-- What a process comes to by itself happens among all processes. -/
theorem steps_of_moves (now : Opening π) (i : π) {after : TokenRegion × Entry}
    (h : Entry.Moves (party i) (now.region, now.entry i) after) :
    ∃ next, Relation.ReflTransGen (Step party) now next ∧ next.region = after.1 ∧
      next.entry = Function.update now.entry i after.2 := by
  induction h with
  | refl => exact ⟨now, .refl, rfl, (Function.update_eq_self _ _).symm⟩
  | @tail middle last _ hmove ih =>
    obtain ⟨next, hsteps, hregion, hentry⟩ := ih
    obtain ⟨deeds, hmove⟩ := hmove
    have hturn : next.entry i = middle.2 := by
      rw [hentry, Function.update_self]
    rw [← hregion, ← hturn] at hmove
    refine ⟨next.put i deeds last.1 last.2, hsteps.tail (.move i hmove), rfl, ?_⟩
    rw [put, hentry, Function.update_idem]

end Opening

end GpuQuota.Pacing
