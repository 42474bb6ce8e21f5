import GpuQuota.Accounting.Interception
import GpuQuota.Proofs.Accounting.Verdict
import Mathlib.Logic.Function.Basic
import Mathlib.Logic.Relation

/-!
# Calls of many threads

`intercept` carries one call out as if nobody else were there. In truth any number of processes draw
on one budget, each with any number of threads, and a call gives way to others between any two of
its steps. Here a call is cut into these steps:

* `Move` is one step of one thread, on the budget and on the account of its process;
* `World` holds the budget, the account of every process and the phase of every thread, and
  `World.Step` lets one thread move;
* `Reachable` are the worlds that any number of steps lead to from an unused budget. A thread or a
  process that stops for ever is one that is not chosen any more.

What the driver may do is a parameter: a predicate on what was asked, the return code and the memory
that is left.

The steps are those of `intercept`: a thread that nobody interrupts ends where `intercept` ends
(`World.steps_intercept`).
-/

namespace GpuQuota.Accounting

open GpuQuota.Driver GpuQuota.Settings

/-- A call that is looked into: the minor number of its device and what the caller passed. -/
structure Visit where
  minor : UInt32
  request : Request
  /-- the address of the parameters -/
  args : UInt64
  /-- the caller's memory before the driver -/
  space : Space

/-- What a driver may return and leave in memory. -/
abbrev Conduct : Type := Visit → Int32 → Space → Prop

namespace Visit

/-- The visit asks for an allocation. -/
def IsAllocation (visit : Visit) : Prop :=
  HeapRequest visit.minor visit.request visit.args ∧
    (HeapBlock.read visit.space visit.args).function = heapAllocSize

/-- The driver leaves the function word of a heap block as it was. -/
def KeepsFunction : Conduct := fun visit _ after =>
  HeapRequest visit.minor visit.request visit.args →
    (HeapBlock.read after visit.args).function = (HeapBlock.read visit.space visit.args).function

/-- The call for `size` bytes with a block at `address` whose other words are zero. -/
def allocation (address size : UInt64) : Visit where
  minor := controlMinor
  request := .readWrite heapNumber 152
  args := address
  space := (Space.blank.setWord32 (address + HeapBlock.functionOffset) heapAllocSize).setWord64
    (address + 88) size

/-- What an answer calls for. -/
def verdict (visit : Visit) (account : Account) (admission : Admission) (ret : Int32)
    (after : Space) : Settlement :=
  if ret = 0 then account.settlement visit.minor visit.request visit.args after admission
  else admission.refund

end Visit

/-- How far a thread has come with a call. -/
inductive Phase where
  /-- in no call that is looked into -/
  | idle
  /-- the demand is known and not yet reserved -/
  | asking (visit : Visit) (demand : Option UInt64)
  /-- the call is with the driver -/
  | away (visit : Visit) (admission : Admission)
  /-- the driver has answered -/
  | back (visit : Visit) (admission : Admission) (ret : Int32) (after : Space)
  /-- the settlement is known and not yet booked -/
  | settling (settlement : Settlement)
  /-- bytes are on their way back to the budget -/
  | crediting (bytes : Option UInt64)

/-- One step of one thread, on the holding of its process. -/
inductive Move (conduct : Conduct) : Holding → Phase → Holding → Phase → Prop where
  /-- A call that is not looked into goes to the driver and changes nothing here. -/
  | handOn {held : Holding} (device : Option DeviceNumber) (raw : UInt64) :
      relevantMinor? (Request.decode raw) device = none → Move conduct held .idle held .idle
  /-- A call comes in, and its demand is looked up. -/
  | enter {held : Holding} {minor : UInt32} (device : Option DeviceNumber) (raw args : UInt64)
      (space : Space) : relevantMinor? (Request.decode raw) device = some minor →
      Move conduct held .idle held (.asking ⟨minor, Request.decode raw, args, space⟩
        (held.account.demand minor (Request.decode raw) args space))
  /-- The demand does not fit and the call is answered at once. -/
  | reject {held : Holding} {visit : Visit} {demand : Option UInt64} {bytes free : UInt64}
      {budget : Budget} : held.budget.serve demand = (.rejected bytes free, budget) →
      Move conduct held (.asking visit demand) { held with budget } .idle
  /-- The demand is reserved, if there is one, and the call goes to the driver. -/
  | grant {held : Holding} {visit : Visit} {demand : Option UInt64} {admission : Admission}
      {budget : Budget} : held.budget.serve demand = (admission, budget) →
      (∀ bytes free, admission ≠ .rejected bytes free) →
      Move conduct held (.asking visit demand) { held with budget } (.away visit admission)
  /-- The driver answers. -/
  | answer {held : Holding} {visit : Visit} {admission : Admission} (ret : Int32) (after : Space) :
      conduct visit ret after →
      Move conduct held (.away visit admission) held (.back visit admission ret after)
  /-- The answer is looked at. -/
  | judge {held : Holding} {visit : Visit} {admission : Admission} {ret : Int32} {after : Space} :
      Move conduct held (.back visit admission ret after) held
        (.settling (visit.verdict held.account admission ret after))
  /-- The ledger is changed, in one step under its lock. -/
  | book {held : Holding} {settlement : Settlement} :
      Move conduct held (.settling settlement)
        { held with account.ledger := (held.account.ledger.book settlement).2 }
        (.crediting (held.account.ledger.book settlement).1)
  /-- What is owed is released. -/
  | release {held : Holding} {bytes : Option UInt64} :
      Move conduct held (.crediting bytes)
        { held with budget := Holding.giveBack held.budget bytes } .idle

/-! ## A call without interruption

The steps of one thread in a row come to what `intercept` says, whatever it is: a refusal, a refund
or an answer that is settled. -/

/-- What a holding and a thread can come to in any number of steps of that thread. -/
def Moves (conduct : Conduct) : Holding × Phase → Holding × Phase → Prop :=
  Relation.ReflTransGen fun before after => Move conduct before.1 before.2 after.1 after.2

namespace Moves

variable {conduct : Conduct}

theorem refl (now : Holding × Phase) : Moves conduct now now := Relation.ReflTransGen.refl

theorem tail {start : Holding × Phase} {held after : Holding} {phase turn : Phase}
    (h : Moves conduct start (held, phase)) (hmove : Move conduct held phase after turn) :
    Moves conduct start (after, turn) :=
  Relation.ReflTransGen.tail h hmove

theorem trans {start middle finish : Holding × Phase} (h : Moves conduct start middle)
    (hrest : Moves conduct middle finish) : Moves conduct start finish :=
  Relation.ReflTransGen.trans h hrest

/-- From the driver's answer on, a call is its settlement. -/
theorem settle (held : Holding) (visit : Visit) (admission : Admission) (ret : Int32)
    (after : Space) (alive : Int32 → Bool) :
    Moves conduct (held, .back visit admission ret after)
      ((held.settle alive visit.args after (visit.verdict held.account admission ret after)).1,
        .idle) := by
  rw [Holding.settle_eq]
  exact (((refl _).tail .judge).tail .book).tail .release

/-- From its admission on, a call that goes to the driver is the answer and its settlement. -/
theorem forward {held : Holding} {visit : Visit} {demand : Option UInt64} {admission : Admission}
    {budget : Budget} (hserve : held.budget.serve demand = (admission, budget))
    (hpass : ∀ bytes free, admission ≠ .rejected bytes free) {ret : Int32} {after : Space}
    (hconduct : conduct visit ret after) (alive : Int32 → Bool) :
    Moves conduct (held, .asking visit demand)
      ((({ held with budget } : Holding).settle alive visit.args after
        (visit.verdict held.account admission ret after)).1, .idle) := by
  have hanswer : Moves conduct (held, .asking visit demand)
      ({ held with budget }, .back visit admission ret after) :=
    ((refl _).tail (.grant hserve hpass)).tail (.answer ret after hconduct)
  exact hanswer.trans (settle { held with budget } visit admission ret after alive)

/-- The steps of a thread that nobody interrupts lead to where `intercept` leads. -/
theorem intercept (held : Holding) (alive : Int32 → Bool) (driver : DriverCall)
    (device : Option DeviceNumber) (raw args : UInt64) (space : Space)
    (hconduct : ∀ minor, relevantMinor? (.decode raw) device = some minor →
      conduct ⟨minor, .decode raw, args, space⟩ (driver raw args space).1
        (driver raw args space).2) :
    ∃ after, (intercept (some held) alive driver device raw args space).held = some after ∧
      Moves conduct (held, .idle) (after, .idle) := by
  rcases hminor : relevantMinor? (Request.decode raw) device with _ | minor
  · -- the call is not looked into
    refine ⟨held, ?_, (refl _).tail (.handOn device raw hminor)⟩
    simp only [Accounting.intercept, hminor, handOn]
  · have henter : Moves conduct (held, .idle) (held, .asking ⟨minor, .decode raw, args, space⟩
        (held.account.demand minor (Request.decode raw) args space)) :=
      (refl _).tail (.enter device raw args space hminor)
    simp only [Accounting.intercept, hminor, Holding.call, Account.admission_eq,
      Request.decode_raw]
    rcases hserve : held.budget.serve (held.account.demand minor (.decode raw) args space) with
      ⟨admission, budget⟩
    cases admission with
    | rejected bytes free => exact ⟨_, rfl, henter.tail (.reject hserve)⟩
    | passthrough =>
      exact ⟨_, rfl, henter.trans (forward hserve (by simp) (hconduct minor hminor) alive)⟩
    | reserved bytes =>
      exact ⟨_, rfl, henter.trans (forward hserve (by simp) (hconduct minor hminor) alive)⟩

end Moves

/-! ## All threads

All processes of a device draw on one budget. Each has its own account, which its threads share, and
each thread its own phase. -/

/-- All processes of a device (`ι`) and all their threads (`τ`). -/
structure World (ι τ : Type) where
  /-- what they all draw on -/
  budget : Budget
  /-- what each process has booked -/
  account : ι → Account
  /-- how far each thread has come with a call -/
  phase : τ → Phase

namespace World

variable {ι τ : Type} [DecidableEq ι] [DecidableEq τ]

/-- The budget with the account of one process. -/
def holding (world : World ι τ) (i : ι) : Holding := ⟨world.budget, world.account i⟩

/-- The world in which a process holds `held` and one of its threads is in `phase`. -/
def put (world : World ι τ) (i : ι) (t : τ) (held : Holding) (phase : Phase) : World ι τ where
  budget := held.budget
  account := Function.update world.account i held.account
  phase := Function.update world.phase t phase

/-- Nothing is used and nobody calls. -/
def fresh (total : UInt64) (owner : Int32) (quota : ι → MemoryQuota) : World ι τ where
  budget := .full total owner
  account i := ⟨quota i, .empty⟩
  phase _ := .idle

/-- One thread moves; `home` tells which process it belongs to. -/
inductive Step (home : τ → ι) (conduct : Conduct) : World ι τ → World ι τ → Prop where
  | move {world : World ι τ} (t : τ) {held : Holding} {phase : Phase} :
      Move conduct (world.holding (home t)) (world.phase t) held phase →
      Step home conduct world (world.put (home t) t held phase)

/-- The worlds that can come about on a budget of `total` bytes. -/
inductive Reachable (home : τ → ι) (conduct : Conduct) (total : UInt64) : World ι τ → Prop where
  | fresh (owner : Int32) (quota : ι → MemoryQuota) :
      Reachable home conduct total (.fresh total owner quota)
  | step {world next : World ι τ} : Reachable home conduct total world →
      Step home conduct world next → Reachable home conduct total next

@[simp] theorem put_holding (world : World ι τ) (i : ι) (t : τ) :
    world.put i t (world.holding i) (world.phase t) = world := by
  simp only [put, holding, Function.update_eq_self]

@[simp] theorem put_put (world : World ι τ) (i : ι) (t : τ) (held other : Holding)
    (phase turn : Phase) :
    (world.put i t held phase).put i t other turn = world.put i t other turn := by
  simp only [put, Function.update_idem]

@[simp] theorem holding_put (world : World ι τ) (i : ι) (t : τ) (held : Holding) (phase : Phase) :
    (world.put i t held phase).holding i = held := by
  simp only [put, holding, Function.update_self]

@[simp] theorem phase_put (world : World ι τ) (i : ι) (t : τ) (held : Holding) (phase : Phase) :
    (world.put i t held phase).phase t = phase :=
  Function.update_self _ _ _

theorem phase_put_of_ne (world : World ι τ) (i : ι) {t other : τ} (h : other ≠ t) (held : Holding)
    (phase : Phase) : (world.put i t held phase).phase other = world.phase other :=
  Function.update_of_ne h _ _

@[simp] theorem account_put (world : World ι τ) (i : ι) (t : τ) (held : Holding) (phase : Phase) :
    (world.put i t held phase).account i = held.account :=
  Function.update_self _ _ _

theorem account_put_of_ne (world : World ι τ) {i other : ι} (h : other ≠ i) (t : τ)
    (held : Holding) (phase : Phase) :
    (world.put i t held phase).account other = world.account other :=
  Function.update_of_ne h _ _

/-- What one thread can do by itself happens in the world. -/
theorem steps_of_moves {home : τ → ι} {conduct : Conduct} {world : World ι τ} {t : τ}
    {before after : Holding × Phase} (h : Moves conduct before after) :
    Relation.ReflTransGen (Step home conduct) (world.put (home t) t before.1 before.2)
      (world.put (home t) t after.1 after.2) := by
  induction h with
  | refl => exact .refl
  | @tail middle after _ hmove ih =>
    -- the world keeps only the last of the thread's own states
    refine ih.tail ?_
    have hstep : Step home conduct (world.put (home t) t middle.1 middle.2)
        ((world.put (home t) t middle.1 middle.2).put (home t) t after.1 after.2) :=
      .move t (by rwa [holding_put, phase_put])
    rwa [put_put] at hstep

/-- **A call that nobody interrupts ends where `intercept` ends.** -/
theorem steps_intercept {home : τ → ι} {conduct : Conduct} (world : World ι τ) {t : τ}
    (hidle : world.phase t = .idle) (alive : Int32 → Bool) (driver : DriverCall)
    (device : Option DeviceNumber) (raw args : UInt64) (space : Space)
    (hconduct : ∀ minor, relevantMinor? (.decode raw) device = some minor →
      conduct ⟨minor, .decode raw, args, space⟩ (driver raw args space).1
        (driver raw args space).2) :
    ∃ after, (intercept (some (world.holding (home t))) alive driver device raw args space).held =
        some after ∧
      Relation.ReflTransGen (Step home conduct) world (world.put (home t) t after .idle) := by
  obtain ⟨after, hafter, hmoves⟩ := Moves.intercept (world.holding (home t)) alive driver device raw
    args space hconduct
  refine ⟨after, hafter, ?_⟩
  have hsteps : Relation.ReflTransGen (Step home conduct)
      (world.put (home t) t (world.holding (home t)) .idle) (world.put (home t) t after .idle) :=
    steps_of_moves hmoves
  have hself : world.put (home t) t (world.holding (home t)) .idle = world := by
    rw [← hidle, put_holding]
  rwa [hself] at hsteps

end World

end GpuQuota.Accounting
