import GpuQuota.Accounting.Account
import GpuQuota.Notice

/-!
# Standing between a process and its driver

Every request of a governed process comes by here. A request that has nothing to do with memory,
or goes to another device, is handed on untouched; one that would take the group past its ceiling
is answered here and never reaches the driver; after any other the driver's answer is settled.

A driver is a function from a request, its argument and the caller's memory to a return code and
the memory that it leaves. The outcome of a call lists what reached the driver.
-/

namespace GpuQuota.Accounting

open GpuQuota.Driver

/-- What a driver answers to a request word and an argument address. -/
abbrev DriverCall := UInt64 → UInt64 → Space → Int32 × Space

/-- One call as the driver saw it. -/
structure Passage where
  /-- the request word -/
  request : UInt64
  /-- the address of the parameters -/
  args : UInt64
  /-- the caller's memory -/
  space : Space

/-- What became of one call. -/
structure Outcome where
  /-- what the caller gets as the result -/
  ret : Int32
  /-- the memory that the caller gets back -/
  space : Space
  /-- what reached the driver -/
  forwarded : List Passage
  /-- the account and the budget, where there is a quota -/
  held : Option Holding
  notices : List Notice := []

/-- The major and minor number of a character device. -/
abbrev DeviceNumber := UInt32 × UInt32

/-- Hands a call on as it is. -/
def handOn (held : Option Holding) (driver : DriverCall) (request args : UInt64)
    (space : Space) : Outcome :=
  let (ret, after) := driver request args space
  ⟨ret, after, [⟨request, args, space⟩], held, []⟩

/-- The minor number of the device that a request is looked into for: the request is of the
driver's own type and one of the four that matter, and the descriptor is one of its devices. -/
def relevantMinor? (request : Request) (device : Option DeviceNumber) : Option UInt32 :=
  match device with
  | some (major, minor) =>
    if request.kind = requestKind ∧ request.isGoverned ∧ major = deviceMajor then some minor
    else none
  | none => none

/-- A call of a process that holds an account. -/
def Holding.call (held : Holding) (alive : Int32 → Bool) (driver : DriverCall) (minor : UInt32)
    (request : Request) (args : UInt64) (space : Space) : Outcome :=
  match held.account.admission held.budget minor request args space with
  | (.rejected bytes free, budget) =>
    { ret := 0
      space := Account.refusal space args budget.total free
      forwarded := []
      held := some { held with budget }
      notices := [.allocationRejected bytes free] }
  | (admission, budget) =>
    let held := { held with budget }
    let (ret, after) := driver request.raw args space
    let settlement :=
      if ret = 0 then held.account.settlement minor request args after admission
      else admission.refund
    let (held, final) := held.settle alive args after settlement
    ⟨ret, final, [⟨request.raw, args, space⟩], some held, []⟩

/-- Intercepts one call on a descriptor of the given device. -/
def intercept (held : Option Holding) (alive : Int32 → Bool) (driver : DriverCall)
    (device : Option DeviceNumber) (raw args : UInt64) (space : Space) : Outcome :=
  match held with
  | none => handOn none driver raw args space
  | some holding =>
    let request := Request.decode raw
    match relevantMinor? request device with
    | none => handOn held driver raw args space
    | some minor => holding.call alive driver minor request args space

end GpuQuota.Accounting
