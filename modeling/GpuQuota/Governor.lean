import GpuQuota.Accounting.Interception
import GpuQuota.Pacing.Limiter
import GpuQuota.Settings.Environment

/-!
# Governors

A governor is what a process carries around its driver: an account for the memory quota and a
limiter for the compute quota, either of which may be absent. What is absent lets everything
through.
-/

namespace GpuQuota

open GpuQuota.Accounting GpuQuota.Pacing GpuQuota.Settings GpuQuota.Shared

/-- A process under its quotas. -/
structure Governor where
  quotas : Quotas := {}
  /-- the account, and the handle of the budget that it draws on -/
  account : Option (Account × Nat) := none
  /-- the tokens and launches, where there is a compute quota -/
  limiter : Option Limiter := none
  deriving Inhabited

namespace Governor

/-- What a call asked of a governor came to. -/
structure Called where
  /-- what the caller gets -/
  outcome : Outcome
  /-- the process after the call -/
  governor : Governor
  /-- the shared budgets after the call -/
  budgets : Store Budget

/-- A governor that governs nothing. -/
def disabled : Governor := {}

/-- Joins the budget of the quota's device, laid out by the process `owner` if it is new. A
budget that is there with another ceiling keeps it. -/
def openAccount (store : Store Budget) (config : RegionConfig) (quota : MemoryQuota)
    (owner : Int32) : Except RegionFault (Account × Nat) × Store Budget × List Notice :=
  match store.join (config.memoryName quota.minor) (.full quota.bytes owner) with
  | (.error fault, store) => (.error fault, store, [])
  | (.ok joined, store) =>
    let total := ((store.contents? joined.handle).map Budget.total).getD quota.bytes
    (.ok (⟨quota, .empty⟩, joined.handle), store,
      if total = quota.bytes then [] else [.ceilingKept quota.minor total quota.bytes])

/-- The governor of a process under a memory quota, if it has one. -/
def create (store : Store Budget) (config : RegionConfig) (quotas : Quotas) (owner : Int32) :
    Except RegionFault Governor × Store Budget × List Notice :=
  match quotas.memory with
  | none => (.ok { quotas }, store, [])
  | some quota =>
    match openAccount store config quota owner with
    | (.error fault, store, notices) => (.error fault, store, notices)
    | (.ok account, store, notices) => (.ok { quotas, account := some account }, store, notices)

/-- The account with its budget. -/
def holding? (governor : Governor) (budgets : Store Budget) : Option Holding :=
  governor.account.bind fun (account, handle) =>
    (budgets.contents? handle).map fun budget => ⟨budget, account⟩

/-- A call to the driver on behalf of the process. -/
def call (governor : Governor) (budgets : Store Budget) (alive : Int32 → Bool)
    (driver : DriverCall) (device : Option DeviceNumber) (request args : UInt64)
    (space : Driver.Space) : Called :=
  let outcome :=
    intercept (governor.holding? budgets) alive driver device request args space
  match governor.account, outcome.held with
  | some (_, handle), some held =>
    { outcome
      governor := { governor with account := some (held.account, handle) }
      budgets := budgets.update handle fun _ => held.budget }
  | _, _ => { outcome, governor, budgets }

/-- Admits one launch; there is no governor afterwards where the launch blocks. -/
def launch? (governor : Governor) : Option Governor :=
  match governor.limiter with
  | none => some governor
  | some limiter => limiter.launch?.map fun limiter => { governor with limiter := some limiter }

/-- Admits up to `n` launches and stops before one blocks; the answer is how many. -/
def launchUpTo (governor : Governor) (n : Nat) : Nat × Governor :=
  match governor.limiter with
  | none => (n, governor)
  | some limiter =>
    let (granted, limiter) := limiter.launchUpTo n
    (granted, { governor with limiter := some limiter })

theorem launchUpTo_succ {governor after : Governor} (n : Nat)
    (h : governor.launch? = some after) :
    governor.launchUpTo (n + 1) = ((after.launchUpTo n).1 + 1, (after.launchUpTo n).2) := by
  unfold launch? at h
  split at h
  · next hnone => simp [launchUpTo, ← Option.some.inj h, hnone]
  · next limiter hsome =>
    obtain ⟨next, hnext, rfl⟩ := Option.map_eq_some_iff.1 h
    simp [launchUpTo, hsome, Limiter.launchUpTo_succ n hnext]

end Governor

/-- The governed processes of one machine and the budgets that they share. -/
structure Host where
  /-- the processes, by number -/
  governors : Array Governor := #[]
  /-- the shared budgets -/
  budgets : Store Budget := .empty

namespace Host

/-- Starts a process under a memory quota, if it has one. -/
def start (host : Host) (config : RegionConfig) (quotas : Quotas) (owner : Int32) :
    Except RegionFault Governor × Host × List Notice :=
  match Governor.create host.budgets config quotas owner with
  | (.error fault, budgets, notices) => (.error fault, { host with budgets }, notices)
  | (.ok governor, budgets, notices) =>
    (.ok governor, ⟨host.governors.push governor, budgets⟩, notices)

/-- A host with one process, under a quota and over a budget of its own. -/
def alone (quota : MemoryQuota) (budget : Budget) : Host :=
  let (_, budgets) := Store.empty.join "/alone" budget
  ⟨#[{ quotas := { memory := some quota }, account := some (⟨quota, .empty⟩, 0) }], budgets⟩

/-- One process's governor; a process that there is not is not governed. -/
def governor (host : Host) (who : Nat) : Governor :=
  (host.governors[who]?).getD .disabled

/-- A call to the driver by one of the processes. -/
def call (host : Host) (who : Nat) (alive : Int32 → Bool) (driver : DriverCall)
    (device : Option DeviceNumber) (request args : UInt64) (space : Driver.Space) :
    Outcome × Host :=
  let called := (host.governor who).call host.budgets alive driver device request args space
  (called.outcome, ⟨host.governors.setIfInBounds who called.governor, called.budgets⟩)

/-- What each process holds. -/
def holdings (host : Host) : List (Option Holding) :=
  host.governors.toList.map (·.holding? host.budgets)

end Host

end GpuQuota
