import GpuQuota.Accounting.Budget
import GpuQuota.Accounting.Ledger
import GpuQuota.Driver.InfoList
import GpuQuota.Driver.Request
import GpuQuota.Settings.Quota

/-!
# Accounting for driver requests

What a request means for a process under a memory quota. Before the driver sees a request its
**demand** is reserved from the shared budget; after the driver has answered, the answer is
**settled**: a reservation becomes a charge in the ledger or goes back, a freed object gives its
charge back, a new object is attributed to a device, and replies about memory are made to show
the budget in place of the device.

Deciding and acting are kept apart. `demand` and `settlement` only look; the actions are single
steps on the budget and on the ledger, so other processes may come in between.
-/

namespace GpuQuota.Accounting

open GpuQuota.Driver GpuQuota.Number GpuQuota.Settings

/-- One process's side of a memory quota. -/
structure Account where
  /-- the ceiling, and the device that it is for -/
  quota : MemoryQuota
  /-- what has been charged, and what is known of devices -/
  ledger : Ledger
  deriving Repr, Inhabited

/-- What became of a request before the driver saw it. -/
inductive Admission where
  /-- It asks for nothing that is limited. -/
  | passthrough
  /-- So many bytes are reserved for it. -/
  | reserved (bytes : UInt64)
  /-- It does not fit in the bytes that are free. -/
  | rejected (bytes free : UInt64)
  deriving DecidableEq, Repr

/-- What a driver's answer calls for. -/
inductive Settlement where
  /-- There is nothing to book and nothing to show. -/
  | nothing
  /-- Give a reservation back. -/
  | refund (bytes : UInt64)
  /-- Charge a reservation under the handle that the driver gave. -/
  | charge (key : ObjectKey) (bytes : UInt64)
  /-- Show the budget in a heap block. -/
  | showTotals
  /-- Show the budget in a list of figures. -/
  | showFigures (list : InfoList)
  /-- Forget a freed object and give its charge back. -/
  | strike (key : ObjectKey)
  /-- A new device object, with the device it was given, if that can be told. -/
  | newDevice (key : ObjectKey) (device : Option UInt32)
  /-- A new object below another one. -/
  | newChild (key parent : ObjectKey)
  deriving DecidableEq, Repr

/-- The bytes charged for a size: the size rounded up to its alignment, where zero stands for no
alignment. -/
def alignedSize (size alignment : UInt64) : UInt64 :=
  if alignment = 0 then size
  else saturatingAdd size (alignment - 1) &&& ~~~(alignment - 1)

/-- What is given back when a request comes to nothing. -/
def Admission.refund : Admission → Settlement
  | .reserved bytes => .refund bytes
  | _ => .nothing

namespace Account

/-- Whether the quota applies to an object: its device is the quota's, or is not known. -/
def governs (account : Account) (key : ObjectKey) : Bool :=
  match account.ledger.deviceOf key with
  | some device => device == account.quota.minor
  | none => true

/-! ## Before the driver

What a request demands is decided on the block as the caller passed it, and reserved at once, so
that no other call can be granted the same bytes while the driver is at work. -/

/-- The bytes that a request asks the budget for. Only heap allocations on the control device
ask for any, and only below an object that the quota applies to. -/
def demand (account : Account) (minor : UInt32) (request : Request) (args : UInt64)
    (space : Space) : Option UInt64 :=
  if minor = controlMinor ∧ request.number = heapNumber then
    match HeapBlock.decode? space args request.size with
    | none => none
    | some block =>
      if block.function = heapAllocSize ∧ account.governs ⟨block.root, block.parent⟩ then
        some (alignedSize block.alloc.size block.alloc.alignment)
      else none
  else none

/-- Reserves what a request asks for. -/
def admission (account : Account) (budget : Budget) (minor : UInt32) (request : Request)
    (args : UInt64) (space : Space) : Admission × Budget :=
  match account.demand minor request args space with
  | none => (.passthrough, budget)
  | some bytes =>
    match budget.reserve bytes with
    | (.granted _, after) => (.reserved bytes, after)
    | (.denied free, after) => (.rejected bytes free, after)

/-- The reply to a rejected request: out of memory, with the ceiling and what is free. -/
def refusal (space : Space) (args total free : UInt64) : Space :=
  HeapBlock.setTotals (HeapBlock.setStatus space args statusNoMemory) args total free

/-! ## After the driver

What an answer calls for is decided on the block as the driver left it, read anew, and by the number
of the request, which is the caller's. What was reserved comes in as `Admission`. -/

/-- The settlement of an answered heap request. -/
def settleHeap (account : Account) (block : HeapBlock) (admission : Admission) : Settlement :=
  if block.function = heapAllocSize then
    match admission with
    | .reserved bytes =>
      if block.status = statusOk then .charge ⟨block.root, block.alloc.memory⟩ bytes
      else .refund bytes
    | _ => .nothing
  else if block.function = heapInfo then
    if block.status = statusOk ∧ account.governs ⟨block.root, block.parent⟩ then .showTotals
    else .nothing
  else admission.refund

/-- The settlement of an answered control request: figures are shown where a list of them was
asked for and can be found. -/
def settleControl (account : Account) (space : Space) (block : ControlBlock) : Settlement :=
  if block.status = statusOk ∧
      (block.command = infoByPointer ∨ block.command = infoInline) ∧
      account.governs ⟨block.client, block.object⟩ then
    let list? :=
      if block.command = infoByPointer then
        InfoList.pointed? space block.params block.paramsSize.toNat
      else InfoList.inline? space block.params block.paramsSize.toNat
    match list? with
    | some list => .showFigures list
    | none => .nothing
  else .nothing

/-- The settlement of an answered free request. A client that frees its own root is left alone. -/
def settleFree (block : FreeBlock) : Settlement :=
  if block.status = statusOk ∧ block.old ≠ block.root then .strike ⟨block.root, block.old⟩
  else .nothing

/-- The device id that the parameters of a new device object start with. -/
def deviceId? (space : Space) (params : UInt64) (paramsSize : UInt32) : Option UInt32 :=
  if params ≠ 0 ∧ 4 ≤ paramsSize then some (space.word32 params) else none

/-- The settlement of an answered object request. -/
def settleAlloc (space : Space) (block : AllocBlock) : Settlement :=
  if block.status = statusOk then
    if block.cls = deviceClass then
      .newDevice ⟨block.root, block.new⟩ (deviceId? space block.params block.paramsSize)
    else .newChild ⟨block.root, block.new⟩ ⟨block.root, block.parent⟩
  else .nothing

/-- What the answer to a request calls for, given what became of the request before. -/
def settlement (account : Account) (minor : UInt32) (request : Request) (args : UInt64)
    (space : Space) (admission : Admission) : Settlement :=
  if minor ≠ controlMinor then admission.refund
  else if request.number = heapNumber then
    match HeapBlock.decode? space args request.size with
    | some block => account.settleHeap block admission
    | none => admission.refund
  else if request.number = controlNumber then
    match ControlBlock.decode? space args request.size with
    | some block => account.settleControl space block
    | none => .nothing
  else if request.number = freeNumber then
    match FreeBlock.decode? space args request.size with
    | some block => settleFree block
    | none => .nothing
  else if request.number = allocNumber then
    match AllocBlock.decode? space args request.size with
    | some block => settleAlloc space block
    | none => .nothing
  else .nothing

end Account

/-! ## Acting

A settlement changes the ledger first and then the budget, and shows the budget as it is after that.
-/

/-- A process's account together with the budget that it draws on. -/
structure Holding where
  /-- the counter, which others may share -/
  budget : Budget
  account : Account
  deriving Repr, Inhabited

namespace Holding

/-- The ceiling of the budget. -/
def total (held : Holding) : UInt64 := held.budget.total

/-- What is free in the budget. -/
def free (held : Holding) : UInt64 := held.budget.free

/-- Gives back what a step took out of the ledger, if it took anything. -/
def giveBack (budget : Budget) : Option UInt64 → Budget
  | some bytes => budget.release bytes
  | none => budget

/-- Notes the device of a new object where it is known. -/
def noteDevice? (ledger : Ledger) (key : ObjectKey) : Option UInt32 → Ledger
  | some device => ledger.noteDevice key device
  | none => ledger

/-- Carries a settlement out. `alive` tells which processes live. -/
def settle (held : Holding) (alive : Int32 → Bool) (args : UInt64) (space : Space) :
    Settlement → Holding × Space
  | .nothing => (held, space)
  | .refund bytes => ({ held with budget := held.budget.release bytes }, space)
  | .charge key bytes =>
    let (stale, ledger) := held.account.ledger.charge key bytes
    let budget := giveBack held.budget stale
    (⟨budget, { held.account with ledger }⟩,
      HeapBlock.setTotals space args budget.total budget.free)
  | .showTotals =>
    (held, HeapBlock.setTotals space args held.budget.total (held.budget.reportedFree alive))
  | .showFigures list =>
    (held, list.rewrite space held.budget.total (held.budget.reportedFree alive))
  | .strike key =>
    let ledger := (held.account.ledger.forget key).2
    let (bytes, ledger) := ledger.strike key
    (⟨giveBack held.budget bytes, { held.account with ledger }⟩, space)
  | .newDevice key device =>
    ({ held with account.ledger := noteDevice? held.account.ledger key device }, space)
  | .newChild key parent =>
    let device := held.account.ledger.deviceOf parent
    ({ held with account.ledger := noteDevice? held.account.ledger key device }, space)

end Holding

end GpuQuota.Accounting
