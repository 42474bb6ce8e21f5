import GpuQuota.Accounting.Interception
import GpuQuota.Proofs.Accounting.Balance
import Mathlib.Logic.Function.Basic

/-!
# A session on paper

What a sequence of calls is to mean, told without budgets, reservations and settlements. A `Sheet`
is two functions: the bytes under each key, and the device of each object. An `Exchange` is one call
with everything that the driver does on it, and `Sheet.after` is the sheet after one:

* an allocation that fits in what the sheet leaves free, and that the driver accepts, is written
  down under the key of the reply;
* an object that the driver has freed is crossed out, unless it is a client's own root;
* a new object is noted with its device, where that can be told;
* nothing else changes the sheet.
-/

namespace GpuQuota.Accounting

open GpuQuota.Driver GpuQuota.Settings

/-- One call on a descriptor, and what the driver does on it. -/
structure Exchange where
  /-- the device behind the descriptor, if it is one -/
  device : Option DeviceNumber
  /-- the number of the request -/
  raw : UInt64
  /-- the address of the parameters -/
  args : UInt64
  /-- the caller's memory before the call -/
  space : Space
  /-- what the driver answers, and what it leaves in memory -/
  driver : DriverCall
  /-- which processes live -/
  alive : Int32 → Bool

namespace Exchange

variable (x : Exchange)

/-- The request word, taken apart. -/
def request : Request := .decode x.raw

/-- The driver's return code. -/
def ret : Int32 := (x.driver x.raw x.args x.space).1

/-- The memory that the driver leaves. -/
def left : Space := (x.driver x.raw x.args x.space).2

/-- A request of the given number on the control device. -/
structure OnControl (number : UInt8) : Prop where
  device : x.device = some (deviceMajor, controlMinor)
  kind : x.request.kind = requestKind
  number : x.request.number = number

variable {x} in
theorem OnControl.unique {a b : UInt8} (ha : x.OnControl a) (hb : x.OnControl b) : a = b :=
  ha.number.symm.trans hb.number

/-! ### Heap requests

Of the heap requests only those count that ask for a size; the key is that of the reply, since the
driver may choose another handle than the caller. -/

/-- The heap block as the caller passes it. -/
def ask : HeapBlock := .read x.space x.args

/-- The heap block as the driver leaves it. -/
def reply : HeapBlock := .read x.left x.args

/-- The bytes that an allocation is charged. -/
def bytes : UInt64 := alignedSize x.ask.alloc.size x.ask.alloc.alignment

/-- The key that the reply to an allocation names. -/
def replyKey : ObjectKey := ⟨x.reply.root, x.reply.alloc.memory⟩

/-- The driver leaves the function word of a heap block as it was. -/
def KeepsFunction : Prop :=
  x.OnControl heapNumber → HeapBlock.layout.fits x.args x.request.size = true →
    x.reply.function = x.ask.function

/-! ### Free requests

A client that frees its own root leaves its entries alone. -/

/-- The free block as the driver leaves it. -/
def release : FreeBlock := .read x.left x.args

/-- The key of the object that a free request names. -/
def releaseKey : ObjectKey := ⟨x.release.root, x.release.old⟩

/-- The driver has freed an object that is not a client's own root. -/
structure Frees : Prop where
  onControl : x.OnControl freeNumber
  fits : FreeBlock.layout.fits x.args x.request.size = true
  /-- The driver took the call. -/
  ret : x.ret = 0
  /-- The object is gone. -/
  status : x.release.status = statusOk
  /-- It is no client that went with all its objects. -/
  old : x.release.old ≠ x.release.root

/-! ### Object requests

Whether an object was created is told by the status that the driver left. -/

/-- The object block as the driver leaves it, if there is one. -/
def created? : Option AllocBlock := AllocBlock.decode? x.left x.args x.request.size

/-- The driver has created the object of a block. -/
structure Creates (block : AllocBlock) : Prop where
  onControl : x.OnControl allocNumber
  /-- What was created is read from what the driver left. -/
  decode : x.created? = some block
  ret : x.ret = 0
  status : block.status = statusOk

end Exchange

/-- Charges and attributions, written down. -/
structure Sheet where
  /-- the bytes under each handle of each client -/
  charges : Charges
  /-- the device that each known object belongs to -/
  devices : ObjectKey → Option UInt32

namespace Sheet

/-- Nothing is written down. -/
def blank : Sheet := ⟨fun _ => none, fun _ => none⟩

/-- A quota for `minor` applies to an object: its device is that one, or is not known. -/
def Governs (sheet : Sheet) (minor : UInt32) (key : ObjectKey) : Prop :=
  ∀ device, sheet.devices key = some device → device = minor

/-- A call asks for bytes that a quota for `minor` applies to. -/
structure Demands (sheet : Sheet) (minor : UInt32) (x : Exchange) : Prop where
  onControl : x.OnControl heapNumber
  fits : HeapBlock.layout.fits x.args x.request.size = true
  /-- The block asks for an allocation. -/
  function : x.ask.function = heapAllocSize
  /-- The quota is for the device that the object is known to belong to, or none is known. -/
  governs : sheet.Governs minor ⟨x.ask.root, x.ask.parent⟩

/-- Bytes fit in what a sheet leaves free of `total`. -/
def Fits (sheet : Sheet) (total bytes : UInt64) : Prop :=
  sheet.charges.sum + bytes.toNat ≤ total.toNat

/-- A call asks for bytes that fit, and the driver allocates them. -/
structure Allocates (sheet : Sheet) (minor : UInt32) (total : UInt64) (x : Exchange) : Prop where
  demands : sheet.Demands minor x
  /-- The charges leave room for the bytes. -/
  fits : sheet.Fits total x.bytes
  ret : x.ret = 0
  /-- The driver had room as well. -/
  status : x.reply.status = statusOk

/-- The device of a new object, where that can be told: it is named by the parameters of a device
object, and any other object belongs where its parent belongs. -/
def deviceOf (sheet : Sheet) (x : Exchange) (block : AllocBlock) : Option UInt32 :=
  if block.cls = deviceClass then Account.deviceId? x.left block.params block.paramsSize
  else sheet.devices ⟨block.root, block.parent⟩

open scoped Classical in
/-- The charges after an exchange. -/
noncomputable def chargesAfter (minor : UInt32) (total : UInt64) (sheet : Sheet) (x : Exchange) :
    Charges :=
  if sheet.Allocates minor total x then Function.update sheet.charges x.replyKey (some x.bytes)
  else if x.Frees then Function.update sheet.charges x.releaseKey none
  else sheet.charges

/-- The attributions with the device of a new object noted, where that can be told. -/
def note (sheet : Sheet) (x : Exchange) (block : AllocBlock) : ObjectKey → Option UInt32 :=
  match sheet.deviceOf x block with
  | some device => Function.update sheet.devices ⟨block.root, block.new⟩ (some device)
  | none => sheet.devices

open scoped Classical in
/-- The attributions after an exchange. -/
noncomputable def devicesAfter (sheet : Sheet) (x : Exchange) : ObjectKey → Option UInt32 :=
  if x.Frees then Function.update sheet.devices x.releaseKey none
  else
    match x.created? with
    | some block => if x.Creates block then sheet.note x block else sheet.devices
    | none => sheet.devices

/-- The sheet after an exchange under a quota of `total` bytes for `minor`. -/
noncomputable def after (minor : UInt32) (total : UInt64) (sheet : Sheet) (x : Exchange) :
    Sheet where
  charges := sheet.chargesAfter minor total x
  devices := sheet.devicesAfter x

/-! ## One exchange at a time

A call frees, or creates, or allocates, or does nothing to the sheet, and never two of these, as
each has its own number. -/

variable {minor : UInt32} {total : UInt64} {sheet : Sheet} {x : Exchange}

/-- An allocation is written down under the key of its reply. -/
theorem chargesAfter_of_allocates (h : sheet.Allocates minor total x) :
    sheet.chargesAfter minor total x = Function.update sheet.charges x.replyKey (some x.bytes) :=
  if_pos h

theorem chargesAfter_of_neither (hallocates : ¬ sheet.Allocates minor total x)
    (hfrees : ¬ x.Frees) : sheet.chargesAfter minor total x = sheet.charges := by
  rw [chargesAfter, if_neg hallocates, if_neg hfrees]

/-- A free crosses the object out, with its charge and its device. -/
theorem after_of_frees (h : x.Frees) :
    sheet.after minor total x =
      ⟨Function.update sheet.charges x.releaseKey none,
        Function.update sheet.devices x.releaseKey none⟩ := by
  have hallocates : ¬ sheet.Allocates minor total x := fun hallocates =>
    absurd (hallocates.demands.onControl.unique h.onControl) (by decide)
  rw [after, chargesAfter, devicesAfter, if_neg hallocates, if_pos h, if_pos h]

theorem devicesAfter_of_not_creates (hfrees : ¬ x.Frees) (hcreates : ∀ block, ¬ x.Creates block) :
    sheet.devicesAfter x = sheet.devices := by
  rw [devicesAfter, if_neg hfrees]
  split
  · exact if_neg (hcreates _)
  · rfl

/-- A creation notes the new object. -/
theorem devicesAfter_of_creates {block : AllocBlock} (h : x.Creates block) :
    sheet.devicesAfter x = sheet.note x block := by
  have hfrees : ¬ x.Frees := fun hfrees =>
    absurd (hfrees.onControl.unique h.onControl) (by decide)
  rw [devicesAfter, if_neg hfrees, h.decode]
  exact if_pos h

/-- What is neither allocated nor freed nor created leaves no trace. -/
theorem after_of_nothing (hallocates : ¬ sheet.Allocates minor total x) (hfrees : ¬ x.Frees)
    (hcreates : ∀ block, ¬ x.Creates block) : sheet.after minor total x = sheet := by
  rw [after, chargesAfter_of_neither hallocates hfrees,
    devicesAfter_of_not_creates hfrees hcreates]

end Sheet

end GpuQuota.Accounting
