import GpuQuota.Proofs.Accounting.Reservation
import GpuQuota.Proofs.Accounting.Sheet
import GpuQuota.Proofs.Driver.Frame

/-!
# A session is what is on paper

A process alone on a fresh budget makes any calls, and a driver that leaves the function word alone
does anything else. Then its ledger shows the `Sheet` of the session (`Shows`), after every call.

* `Holding.outcome_of_refuses`, `Holding.outcome_of_not_refuses`: a call is answered without the
  driver, or reaches it as it is.
* `Shows.book`: each exchange does to the ledger what it does to the sheet.
* `Shows.after`, `Shows.run`: so the ledger keeps showing the sheet.
* `session_shows_sheet`: what can be seen of the holding is what the sheet says, and a call for more
  than the sheet leaves free is answered without the driver.
-/

namespace GpuQuota.Accounting

open GpuQuota.Driver GpuQuota.Settings

/-! ## Requests that are looked into

A request is looked into if it is made on a node of the device, is of the right kind and has one of
four numbers. All others are handed on as they are. -/

/-- The requests that are looked into are those of the right kind and number on a node of the
device. -/
theorem relevantMinor?_eq_some_iff {request : Request} {device : Option DeviceNumber}
    {minor : UInt32} : relevantMinor? request device = some minor ↔
      device = some (deviceMajor, minor) ∧ request.kind = requestKind ∧ request.isGoverned := by
  rcases device with _ | ⟨major, found⟩
  · simp [relevantMinor?]
  · simp only [relevantMinor?, Option.ite_none_right_eq_some, Option.some.injEq, Prod.mk.injEq]
    constructor
    · rintro ⟨⟨hkind, hgoverned, hmajor⟩, hminor⟩
      exact ⟨⟨hmajor, hminor⟩, hkind, hgoverned⟩
    · rintro ⟨⟨hmajor, hminor⟩, hkind, hgoverned⟩
      exact ⟨⟨hkind, hgoverned, hmajor⟩, hminor⟩

theorem isGoverned_iff {request : Request} :
    request.isGoverned ↔ request.number ∈ [freeNumber, controlNumber, allocNumber, heapNumber] := by
  simp [Request.isGoverned, or_assoc]

/-- An exchange on the control device is looked into. -/
theorem Exchange.OnControl.relevant {x : Exchange} {number : UInt8} (h : x.OnControl number)
    (hnumber : number ∈ [freeNumber, controlNumber, allocNumber, heapNumber]) :
    relevantMinor? x.request x.device = some controlMinor :=
  relevantMinor?_eq_some_iff.2 ⟨h.device, h.kind, isGoverned_iff.2 (h.number.symm ▸ hnumber)⟩

/-! ## One exchange

An exchange comes to a verdict for the ledger before anything is booked. Here the verdict is told by
what the exchange is: a refusal, an allocation, a free, a creation or anything else. -/

namespace Holding

/-- An exchange through the interception. -/
def outcome (held : Holding) (x : Exchange) : Outcome :=
  intercept (some held) x.alive x.driver x.device x.raw x.args x.space

/-- The holding after an exchange. -/
def after (held : Holding) (x : Exchange) : Holding := (held.outcome x).held.getD held

/-- The call asks for bytes of the budget. -/
structure Demands (held : Holding) (x : Exchange) : Prop where
  onControl : x.OnControl heapNumber
  fits : HeapBlock.layout.fits x.args x.request.size = true
  /-- The block asks for an allocation. -/
  function : x.ask.function = heapAllocSize
  /-- The quota applies to the object that is asked. -/
  governs : held.account.governs ⟨x.ask.root, x.ask.parent⟩ = true

/-- The call asks for more than is free. -/
def Refuses (held : Holding) (x : Exchange) : Prop :=
  held.Demands x ∧ held.budget.free < x.bytes

/-- What an exchange comes to for the ledger. -/
def verdict (held : Holding) (x : Exchange) : Settlement :=
  match relevantMinor? x.request x.device with
  | none => .nothing
  | some minor =>
    match held.budget.serve (held.account.demand minor x.request x.args x.space) with
    | (.rejected _ _, _) => .nothing
    | (admission, _) =>
      Visit.verdict ⟨minor, x.request, x.args, x.space⟩ held.account admission x.ret x.left

variable {held : Holding} {x : Exchange} {minor : UInt32}

theorem verdict_of_none (h : relevantMinor? x.request x.device = none) :
    held.verdict x = .nothing := by
  rw [verdict, h]

theorem verdict_of_rejected (h : relevantMinor? x.request x.device = some minor)
    {bytes free : UInt64} {budget : Budget}
    (hserve : held.budget.serve (held.account.demand minor x.request x.args x.space) =
      (.rejected bytes free, budget)) : held.verdict x = .nothing := by
  simp only [verdict, h, hserve]

/-- Where bytes are reserved, the answer decides what becomes of them. -/
theorem verdict_of_reserved (h : relevantMinor? x.request x.device = some minor) {bytes : UInt64}
    {budget : Budget}
    (hserve : held.budget.serve (held.account.demand minor x.request x.args x.space) =
      (.reserved bytes, budget)) :
    held.verdict x = Visit.verdict ⟨minor, x.request, x.args, x.space⟩ held.account
      (.reserved bytes) x.ret x.left := by
  simp only [verdict, h, hserve]

/-- Where nothing is demanded, the answer decides what is noted. -/
theorem verdict_of_no_demand (h : relevantMinor? x.request x.device = some minor)
    (hdemand : held.account.demand minor x.request x.args x.space = none) :
    held.verdict x = Visit.verdict ⟨minor, x.request, x.args, x.space⟩ held.account
      .passthrough x.ret x.left := by
  simp only [verdict, h, hdemand, Budget.serve]

/-- The program demands bytes where the call asks for them. -/
theorem demand_eq_some_iff (hrelevant : relevantMinor? x.request x.device = some minor)
    {bytes : UInt64} : held.account.demand minor x.request x.args x.space = some bytes ↔
      held.Demands x ∧ x.bytes = bytes := by
  obtain ⟨hdevice, hkind, -⟩ := relevantMinor?_eq_some_iff.1 hrelevant
  rw [Account.demand_eq_some_iff]
  constructor
  · rintro ⟨⟨rfl, hnumber, hfits⟩, hfunction, hgoverns, hbytes⟩
    exact ⟨⟨⟨hdevice, hkind, hnumber⟩, hfits, hfunction, hgoverns⟩, hbytes⟩
  · rintro ⟨⟨⟨hcontrol, -, hnumber⟩, hfits, hfunction, hgoverns⟩, hbytes⟩
    obtain ⟨-, rfl⟩ := Prod.mk.inj (Option.some.inj (hdevice.symm.trans hcontrol))
    exact ⟨⟨rfl, hnumber, hfits⟩, hfunction, hgoverns, hbytes⟩

/-- A call for more than is free is answered without the driver. -/
theorem outcome_of_refuses (h : held.Refuses x) :
    held.outcome x = ⟨0, Account.refusal x.space x.args held.budget.total held.budget.free, [],
      some held, [.allocationRejected x.bytes held.budget.free]⟩ := by
  obtain ⟨hdemands, hlt⟩ := h
  have hrelevant : relevantMinor? (.decode x.raw) x.device = some controlMinor :=
    hdemands.onControl.relevant (by decide)
  have hdemand := (demand_eq_some_iff hrelevant).2 ⟨hdemands, rfl⟩
  rw [Exchange.request] at hdemand
  simp only [outcome, intercept, hrelevant, call, Account.admission_eq, hdemand,
    Budget.serve_of_lt hlt]

/-- A call that is not refused reaches the driver as it is, and what the driver leaves is settled.
-/
theorem outcome_of_not_refuses (h : ¬ held.Refuses x) :
    (held.outcome x).forwarded = [⟨x.raw, x.args, x.space⟩] ∧ (held.outcome x).ret = x.ret ∧
      ∃ between : Holding,
        (held.outcome x).space = (between.settle x.alive x.args x.left (held.verdict x)).2 := by
  rcases hrelevant : relevantMinor? x.request x.device with _ | minor
  · rw [verdict_of_none hrelevant]
    rw [Exchange.request] at hrelevant
    simp only [outcome, intercept, hrelevant, handOn]
    exact ⟨trivial, rfl, held, rfl⟩
  · have hpass : ∀ bytes free, (held.budget.serve
        (held.account.demand minor x.request x.args x.space)).1 ≠ .rejected bytes free := by
      refine Budget.serve_ne_rejected ?_
      intro bytes hbytes
      obtain ⟨hdemands, rfl⟩ := (demand_eq_some_iff hrelevant).1 hbytes
      exact UInt64.not_lt.1 fun hlt => h ⟨hdemands, hlt⟩
    rw [verdict, hrelevant]
    rw [Exchange.request] at hrelevant
    simp only [Exchange.request] at hpass
    simp only [outcome, intercept, hrelevant, call, Account.admission_eq, Exchange.request]
    rcases hserve : held.budget.serve (held.account.demand minor (.decode x.raw) x.args x.space)
      with ⟨admission, budget⟩
    cases admission with
    | rejected bytes free => exact absurd (congrArg Prod.fst hserve) (hpass bytes free)
    | passthrough => exact ⟨rfl, rfl, { held with budget }, rfl⟩
    | reserved bytes => exact ⟨rfl, rfl, { held with budget }, rfl⟩

/-- An exchange with another device changes no ledger. -/
theorem inert_verdict_of_not_relevant
    (h : relevantMinor? x.request x.device ≠ some controlMinor) : (held.verdict x).Inert := by
  rcases hminor : relevantMinor? x.request x.device with _ | other
  · rw [verdict_of_none hminor]
    exact fun _ => rfl
  · have hne : other ≠ controlMinor := fun heq => h (heq ▸ hminor)
    have hdemand : held.account.demand other x.request x.args x.space = none := by
      rw [Option.eq_none_iff_forall_ne_some]
      intro bytes hbytes
      exact hne (Account.demand_eq_some_iff.1 hbytes).1.control
    rw [verdict_of_no_demand hminor hdemand, Visit.verdict]
    split
    · exact Account.inert_settlement_of_ne hne _
    · exact fun _ => rfl

/-- Nothing is demanded by a call that asks for no bytes. -/
theorem demand_eq_none (hrelevant : relevantMinor? x.request x.device = some minor)
    (hdemands : ¬ held.Demands x) :
    held.account.demand minor x.request x.args x.space = none := by
  rw [Option.eq_none_iff_forall_ne_some]
  intro bytes hbytes
  exact hdemands ((demand_eq_some_iff hrelevant).1 hbytes).1

/-- Only a heap request asks for bytes. -/
theorem not_demands {number : UInt8} (h : x.OnControl number) (hne : number ≠ heapNumber) :
    ¬ held.Demands x :=
  fun hdemands => hne (h.unique hdemands.onControl)

/-- Where nothing is demanded, the reply is looked at and no more. -/
theorem verdict_of_not_demands (hrelevant : relevantMinor? x.request x.device = some controlMinor)
    (hdemands : ¬ held.Demands x) :
    held.verdict x = if x.ret = 0 then
      held.account.settlement controlMinor x.request x.args x.left .passthrough else .nothing :=
  verdict_of_no_demand hrelevant (demand_eq_none hrelevant hdemands)

/-- A freed object is struck. -/
theorem verdict_of_frees (hfrees : x.Frees) : held.verdict x = .strike x.releaseKey := by
  obtain ⟨hcontrol, hfits, hret, hstatus, hold⟩ := hfrees
  rw [verdict_of_not_demands (hcontrol.relevant (by decide)) (not_demands hcontrol (by decide)),
    if_pos hret, Account.settlement_free rfl hcontrol.number, FreeBlock.decode?, if_pos hfits]
  exact if_pos ⟨hstatus, hold⟩

/-- An object that the driver has created is settled as its block says. -/
theorem verdict_of_creates {block : AllocBlock} (hcreates : x.Creates block) :
    held.verdict x = Account.settleAlloc x.left block := by
  obtain ⟨hcontrol, hdecode, hret, -⟩ := hcreates
  rw [Exchange.created?] at hdecode
  rw [verdict_of_not_demands (hcontrol.relevant (by decide)) (not_demands hcontrol (by decide)),
    if_pos hret, Account.settlement_alloc rfl hcontrol.number, hdecode, Option.elim_some]

/-- Where nothing is demanded on the control device, a ledger changes by frees and new objects
alone. -/
theorem inert_verdict_of_not_demands
    (hrelevant : relevantMinor? x.request x.device = some controlMinor)
    (hdemands : ¬ held.Demands x) (hfrees : ¬ x.Frees) (hcreates : ∀ block, ¬ x.Creates block) :
    (held.verdict x).Inert := by
  obtain ⟨hdevice, hkind, hgoverned⟩ := relevantMinor?_eq_some_iff.1 hrelevant
  rw [verdict_of_not_demands hrelevant hdemands]
  by_cases hret : x.ret = 0
  · have hmem := isGoverned_iff.1 hgoverned
    simp only [List.mem_cons, List.not_mem_nil, or_false] at hmem
    rw [if_pos hret]
    rcases hmem with hnumber | hnumber | hnumber | hnumber
    · refine Account.inert_settlement_free rfl hnumber _ ?_
      rintro hfits ⟨hstatus, hold⟩
      exact hfrees ⟨⟨hdevice, hkind, hnumber⟩, hfits, hret, hstatus, hold⟩
    · exact Account.inert_settlement_control rfl hnumber _
    · refine Account.inert_settlement_alloc rfl hnumber _ ?_
      intro block hdecode hstatus
      exact hcreates block ⟨⟨hdevice, hkind, hnumber⟩, hdecode, hret, hstatus⟩
    · exact Account.inert_settlement_heap rfl hnumber
  · rw [if_neg hret]
    exact fun _ => rfl

/-- An exchange changes an account by booking what it comes to. -/
theorem account_after (held : Holding) (x : Exchange) :
    (held.after x).account =
      { held.account with ledger := (held.account.ledger.book (held.verdict x)).2 } := by
  rw [after, outcome, verdict, intercept]
  change ((match relevantMinor? x.request x.device with
    | none => handOn (some held) x.driver x.raw x.args x.space
    | some minor => held.call x.alive x.driver minor x.request x.args x.space).held.getD
      held).account = _
  rcases relevantMinor? x.request x.device with _ | minor
  · rfl
  · simp only [Holding.call, Account.admission_eq]
    rcases held.budget.serve (held.account.demand minor x.request x.args x.space) with
      ⟨admission, budget⟩
    cases admission with
    | rejected bytes free => rfl
    | passthrough => simp only [settle_eq, Option.getD_some]; rfl
    | reserved bytes => simp only [settle_eq, Option.getD_some]; rfl

/-- What a driver does that keeps the function word is allowed to one that must. -/
theorem keepsFunction_visit (hkeeps : x.KeepsFunction) (minor : UInt32)
    (h : relevantMinor? x.request x.device = some minor) :
    Visit.KeepsFunction ⟨minor, x.request, x.args, x.space⟩ x.ret x.left := by
  obtain ⟨hdevice, hkind, -⟩ := relevantMinor?_eq_some_iff.1 h
  rintro ⟨hcontrol, hnumber, hfits⟩
  obtain rfl : minor = controlMinor := hcontrol
  exact hkeeps ⟨hdevice, hkind, hnumber⟩ hfits

/-- An exchange always leaves a holding. -/
theorem held_outcome (held : Holding) (x : Exchange) :
    (held.outcome x).held = some (held.after x) := by
  obtain ⟨next, hnext, -⟩ : ∃ next, (held.outcome x).held = some next ∧
      Moves (fun _ _ _ => True) (held, .idle) (next, .idle) :=
    Moves.intercept held x.alive x.driver x.device x.raw x.args x.space fun _ _ => trivial
  rw [after, hnext, Option.getD_some]

/-- And nothing is lost. -/
theorem Balanced.after {total : UInt64} (h : held.Balanced total .idle) (hkeeps : x.KeepsFunction) :
    (held.after x).Balanced total .idle := by
  obtain ⟨next, hnext, hmoves⟩ := Moves.intercept held x.alive x.driver x.device x.raw x.args
    x.space (keepsFunction_visit hkeeps)
  have hafter : held.after x = next := by
    rw [Holding.after, outcome, hnext, Option.getD_some]
  rw [hafter]
  exact hmoves.balanced h

end Holding

/-! ## Simulation

The relation says that the ledger has the entries of the sheet, and that the budget is the holding's
alone. The second part turns the check against the counter into one against the sheet: what is free
is what the charges leave. -/

/-- A holding that nobody else draws on shows a sheet. -/
structure Shows (minor : UInt32) (total : UInt64) (held : Holding) (sheet : Sheet) : Prop where
  /-- Free bytes and charges make up the total. -/
  balanced : held.Balanced total .idle
  quota : held.account.quota.minor = minor
  /-- The records are the charges of the sheet. -/
  charges : held.account.ledger.records.get? = sheet.charges
  /-- The table of devices is the sheet's. -/
  devices : held.account.ledger.devices.get? = sheet.devices

namespace Shows

variable {minor : UInt32} {total : UInt64} {held : Holding} {sheet : Sheet} {x : Exchange}

/-- What is recorded is what the charges sum up to. -/
theorem recorded (h : Shows minor total held sheet) :
    held.account.ledger.recorded = sheet.charges.sum := by
  rw [Ledger.recorded_eq_sum, h.charges]

/-- What is free is what the charges leave of the ceiling. -/
theorem free (h : Shows minor total held sheet) :
    held.budget.free.toNat + sheet.charges.sum = total.toNat := by
  have hworth := h.balanced.worth_eq
  rw [← h.recorded]
  exact hworth

/-- A call fits the sheet if it fits the counter. -/
theorem fits_iff (h : Shows minor total held sheet) (bytes : UInt64) :
    sheet.Fits total bytes ↔ bytes ≤ held.budget.free := by
  have hfree := h.free
  rw [Sheet.Fits, UInt64.le_iff_toNat_le]
  omega

/-- The quota applies to an object below a device by the ledger if it does by the sheet. -/
theorem governs_iff (h : Shows minor total held sheet) (key : ObjectKey) :
    held.account.governs key = true ↔ sheet.Governs minor key := by
  rw [Account.governs_iff, Sheet.Governs, Ledger.deviceOf, h.devices, h.quota]

/-- A call asks for bytes where the sheet says so. -/
theorem demands_iff (h : Shows minor total held sheet) :
    held.Demands x ↔ sheet.Demands minor x := by
  constructor
  · rintro ⟨hcontrol, hfits, hfunction, hgoverns⟩
    exact ⟨hcontrol, hfits, hfunction, (h.governs_iff _).1 hgoverns⟩
  · rintro ⟨hcontrol, hfits, hfunction, hgoverns⟩
    exact ⟨hcontrol, hfits, hfunction, (h.governs_iff _).2 hgoverns⟩

/-- A call demands by the ledger what it demands by the sheet. -/
theorem demand_iff (h : Shows minor total held sheet)
    (hrelevant : relevantMinor? x.request x.device = some controlMinor) {bytes : UInt64} :
    held.account.demand controlMinor x.request x.args x.space = some bytes ↔
      sheet.Demands minor x ∧ x.bytes = bytes := by
  rw [Holding.demand_eq_some_iff hrelevant, h.demands_iff]

/-- What becomes of an exchange that asks for bytes. -/
theorem serve_of_demands (h : Shows minor total held sheet) (hdemands : sheet.Demands minor x) :
    held.budget.serve (held.account.demand controlMinor x.request x.args x.space) =
      held.budget.serve (some x.bytes) := by
  have hrelevant : relevantMinor? x.request x.device = some controlMinor :=
    hdemands.onControl.relevant (by decide)
  rw [(h.demand_iff hrelevant).2 ⟨hdemands, rfl⟩]

/-- An allocation on the sheet is charged. -/
theorem verdict_of_allocates (h : Shows minor total held sheet) (hkeeps : x.KeepsFunction)
    (hallocates : sheet.Allocates minor total x) :
    held.verdict x = .charge x.replyKey x.bytes := by
  obtain ⟨hdemands, hfits, hret, hstatus⟩ := hallocates
  have hserve := (h.serve_of_demands hdemands).trans
    (Budget.serve_eq_reserved_iff.2 ⟨rfl, (h.fits_iff _).1 hfits, rfl⟩)
  have hfunction := (hkeeps hdemands.onControl hdemands.fits).trans hdemands.function
  rw [Holding.verdict_of_reserved (hdemands.onControl.relevant (by decide)) hserve]
  exact Visit.verdict_charge ⟨rfl, hdemands.onControl.number, hdemands.fits⟩ hret hfunction hstatus

/-- A demand that comes to nothing changes no ledger. -/
theorem inert_verdict_of_demands (h : Shows minor total held sheet) (hkeeps : x.KeepsFunction)
    (hdemands : sheet.Demands minor x) (hallocates : ¬ sheet.Allocates minor total x) :
    (held.verdict x).Inert := by
  have hrelevant := hdemands.onControl.relevant (by decide)
  by_cases hfits : sheet.Fits total x.bytes
  · -- the bytes were reserved, and the driver did not allocate them
    have hserve := (h.serve_of_demands hdemands).trans
      (Budget.serve_eq_reserved_iff.2 ⟨rfl, (h.fits_iff _).1 hfits, rfl⟩)
    have hfunction := (hkeeps hdemands.onControl hdemands.fits).trans hdemands.function
    rw [Holding.verdict_of_reserved hrelevant hserve, Visit.verdict_refund]
    · exact fun _ => rfl
    · exact ⟨rfl, hdemands.onControl.number, hdemands.fits⟩
    · rintro ⟨-, hinfo⟩
      exact absurd (hfunction.symm.trans hinfo) (by decide)
    · exact fun hret _ hstatus => hallocates ⟨hdemands, hfits, hret, hstatus⟩
  · -- the call did not reach the driver
    have hserve := (h.serve_of_demands hdemands).trans
      (Budget.serve_of_lt (UInt64.not_le.1 (mt (h.fits_iff _).2 hfits)))
    rw [Holding.verdict_of_rejected hrelevant hserve]
    exact fun _ => rfl

/-- A created object is noted with the device that the sheet tells. -/
theorem book_of_creates (h : Shows minor total held sheet) {block : AllocBlock}
    (hcreates : x.Creates block) :
    (held.account.ledger.book (held.verdict x)).2 =
      Holding.noteDevice? held.account.ledger ⟨block.root, block.new⟩ (sheet.deviceOf x block) := by
  rw [Holding.verdict_of_creates hcreates, Account.settleAlloc, if_pos hcreates.status,
    Sheet.deviceOf,
    ← h.devices]
  split <;> rfl

/-- An exchange that the sheet has no line for changes no ledger. -/
theorem inert_verdict (h : Shows minor total held sheet) (hkeeps : x.KeepsFunction)
    (hallocates : ¬ sheet.Allocates minor total x) (hfrees : ¬ x.Frees)
    (hcreates : ∀ block, ¬ x.Creates block) : (held.verdict x).Inert := by
  by_cases hrelevant : relevantMinor? x.request x.device = some controlMinor
  · by_cases hdemands : sheet.Demands minor x
    · exact h.inert_verdict_of_demands hkeeps hdemands hallocates
    · exact Holding.inert_verdict_of_not_demands hrelevant (mt h.demands_iff.1 hdemands) hfrees
        hcreates
  · exact Holding.inert_verdict_of_not_relevant hrelevant

/-- **An exchange does to the ledger what it does to the sheet.** -/
theorem book (h : Shows minor total held sheet) (hkeeps : x.KeepsFunction) :
    (held.account.ledger.book (held.verdict x)).2.records.get? =
        (sheet.after minor total x).charges ∧
      (held.account.ledger.book (held.verdict x)).2.devices.get? =
        (sheet.after minor total x).devices := by
  -- a sheet has at most one line for an exchange, since the kinds have different numbers
  by_cases hallocates : sheet.Allocates minor total x
  · have hfrees : ¬ x.Frees := fun hfrees =>
      absurd (hallocates.demands.onControl.unique hfrees.onControl) (by decide)
    have hcreates : ∀ block, ¬ x.Creates block := fun block hcreates =>
      absurd (hallocates.demands.onControl.unique hcreates.onControl) (by decide)
    rw [h.verdict_of_allocates hkeeps hallocates, Ledger.records_book_charge, Sheet.after,
      Sheet.chargesAfter_of_allocates hallocates,
      Sheet.devicesAfter_of_not_creates hfrees hcreates, h.charges]
    exact ⟨rfl, h.devices⟩
  by_cases hfrees : x.Frees
  · rw [Holding.verdict_of_frees hfrees, Ledger.records_book_strike, Ledger.devices_book_strike,
      Sheet.after_of_frees hfrees, h.charges, h.devices]
    exact ⟨rfl, rfl⟩
  by_cases hcreates : ∃ block, x.Creates block
  · obtain ⟨block, hcreates⟩ := hcreates
    rw [h.book_of_creates hcreates, Ledger.records_noteDevice?, Sheet.after,
      Sheet.chargesAfter_of_neither hallocates hfrees, Sheet.devicesAfter_of_creates hcreates,
      Sheet.note]
    refine ⟨h.charges, ?_⟩
    cases sheet.deviceOf x block with
    | none => exact h.devices
    | some device =>
      dsimp only
      rw [← h.devices]
      exact Ledger.devices_noteDevice _ _ _
  · have hnone : ∀ block, ¬ x.Creates block := fun block hblock => hcreates ⟨block, hblock⟩
    rw [Sheet.after_of_nothing hallocates hfrees hnone,
      h.inert_verdict hkeeps hallocates hfrees hnone]
    exact ⟨h.charges, h.devices⟩

/-- **One exchange does to the holding what it does to the sheet.** -/
protected theorem after (h : Shows minor total held sheet) (hkeeps : x.KeepsFunction) :
    Shows minor total (held.after x) (sheet.after minor total x) := by
  obtain ⟨hcharges, hdevices⟩ := h.book hkeeps
  refine ⟨h.balanced.after hkeeps, ?_, ?_, ?_⟩
  · rw [Holding.account_after]
    exact h.quota
  · rw [Holding.account_after]
    exact hcharges
  · rw [Holding.account_after]
    exact hdevices

/-- The ledger keeps showing the sheet, for as long as the session goes on. -/
theorem run (h : Shows minor total held sheet) (session : List Exchange)
    (hkeeps : ∀ x ∈ session, x.KeepsFunction) :
    Shows minor total (session.foldl Holding.after held)
      (session.foldl (Sheet.after minor total) sheet) := by
  induction session generalizing held sheet with
  | nil => exact h
  | cons x rest ih =>
    have hfirst := hkeeps x List.mem_cons_self
    exact ih (h.after hfirst) fun y hy => hkeeps y (List.mem_cons_of_mem x hy)

theorem fresh (total : UInt64) (owner : Int32) (quota : MemoryQuota) :
    Shows quota.minor total ⟨.full total owner, ⟨quota, .empty⟩⟩ .blank where
  balanced := ⟨rfl, rfl, Ledger.tallied_empty, trivial⟩
  quota := rfl
  charges := rfl
  devices := rfl

/-! ## What the caller sees

An outcome is what the interception leaves behind, so a refusal is told in the bytes that the caller
finds. -/

/-- A call for more than the sheet leaves free is answered without the driver. -/
theorem outcome_refused (h : Shows minor total held sheet) (hdemands : sheet.Demands minor x)
    (hfits : ¬ sheet.Fits total x.bytes) :
    held.outcome x = ⟨0, Account.refusal x.space x.args total held.budget.free, [], some held,
      [.allocationRejected x.bytes held.budget.free]⟩ := by
  have hrefuses : held.Refuses x :=
    ⟨h.demands_iff.2 hdemands, UInt64.not_le.1 (mt (h.fits_iff _).2 hfits)⟩
  rw [Holding.outcome_of_refuses hrefuses, h.balanced.total_eq]

/-- Any other call reaches the driver as it is, and the caller gets the driver's return code. -/
theorem outcome_forwarded (h : Shows minor total held sheet)
    (hfits : sheet.Demands minor x → sheet.Fits total x.bytes) :
    (held.outcome x).forwarded = [⟨x.raw, x.args, x.space⟩] ∧ (held.outcome x).ret = x.ret := by
  have hpasses : ¬ held.Refuses x := by
    rintro ⟨hdemands, hlt⟩
    have hle := (h.fits_iff _).1 (hfits (h.demands_iff.1 hdemands))
    exact absurd hle (UInt64.not_le.2 hlt)
  obtain ⟨hforwarded, hret, -⟩ := Holding.outcome_of_not_refuses hpasses
  exact ⟨hforwarded, hret⟩

end Shows

/-- **A session does what is on paper.** After any calls, the charges, the attributions, their sum,
their number and what is free are those of the sheet. A call for more than the sheet leaves free is
then answered without the driver: out of memory, with the ceiling and what is free, and nothing
changes. Any other call reaches the driver once, as it is, and gets its return code. -/
theorem session_shows_sheet (total : UInt64) (owner : Int32) (quota : MemoryQuota)
    (session : List Exchange) (hkeeps : ∀ x ∈ session, x.KeepsFunction) :
    let held := session.foldl Holding.after ⟨.full total owner, ⟨quota, .empty⟩⟩
    let sheet := session.foldl (Sheet.after quota.minor total) .blank
    held.account.ledger.records.get? = sheet.charges ∧
    held.account.ledger.devices.get? = sheet.devices ∧
    held.account.ledger.charged.toNat = sheet.charges.sum ∧
    held.account.ledger.count = {key | sheet.charges key ≠ none}.ncard ∧
    held.budget.total = total ∧
    held.budget.free.toNat + sheet.charges.sum = total.toNat ∧
    ∀ x : Exchange, (held.outcome x).held = some (held.after x) ∧
      (sheet.Demands quota.minor x ∧ ¬ sheet.Fits total x.bytes →
        (held.outcome x).ret = 0 ∧ (held.outcome x).forwarded = [] ∧
        (held.outcome x).held = some held ∧
        HeapBlock.read (held.outcome x).space x.args =
          { x.ask with
            status := statusNoMemory, total := total
            free := UInt64.ofNat (total.toNat - sheet.charges.sum) }) ∧
      ((sheet.Demands quota.minor x → sheet.Fits total x.bytes) →
        (held.outcome x).ret = x.ret ∧
        (held.outcome x).forwarded = [⟨x.raw, x.args, x.space⟩]) := by
  intro held sheet
  have hshows : Shows quota.minor total held sheet :=
    (Shows.fresh total owner quota).run session hkeeps
  have hfree := hshows.free
  refine ⟨hshows.charges, hshows.devices, ?_, ?_, hshows.balanced.total_eq, hfree, ?_⟩
  · rw [← hshows.recorded]
    exact hshows.balanced.tallied
  · rw [← hshows.charges]
    exact Keyed.size_eq_ncard _
  -- the next call, whatever it is
  intro x
  refine ⟨held.held_outcome x, ?_, ?_⟩
  · rintro ⟨hdemands, hfits⟩
    rw [hshows.outcome_refused hdemands hfits]
    refine ⟨rfl, rfl, rfl, ?_⟩
    -- what is free is told by the sheet, as nobody else draws on the budget
    have hleft : held.budget.free = UInt64.ofNat (total.toNat - sheet.charges.sum) := by
      rw [← hfree, Nat.add_sub_cancel, UInt64.ofNat_toNat]
    rw [Account.refusal, HeapBlock.read_setTotals, HeapBlock.read_setStatus, hleft]
    rfl
  · intro hfits
    obtain ⟨hforwarded, hret⟩ := hshows.outcome_forwarded hfits
    exact ⟨hret, hforwarded⟩

namespace Exchange

/-- A call for so many bytes, which the driver allocates under a handle. -/
def allocating (size alignment : UInt64) (memory : UInt32) : Exchange :=
  let visit := Visit.allocation 8 size
  let script : Script := { kind := some .heap, total := 0, free := 0, memory := some memory }
  { device := some (deviceMajor, controlMinor)
    raw := visit.request.raw
    args := visit.args
    space := visit.space.setWord64 (visit.args + 96) alignment
    driver := script.driver
    alive := fun _ => true }

/-- A call that frees a handle. -/
def freeing (memory : UInt32) : Exchange :=
  let script : Script := { kind := some .free, total := 0, free := 0 }
  { device := some (deviceMajor, controlMinor)
    raw := (Request.readWrite freeNumber 16).raw
    args := 8
    space := Space.blank.setWord32 16 memory
    driver := script.driver
    alive := fun _ => true }

end Exchange

/-- Four calls, whose sizes are rounded up to pages. The driver gives handle 7 to two of them, so
that only the second counts, and frees handle 9. For a call that comes then too little is left. -/
theorem session_shows_sheet_reusing :
    let session : List Exchange :=
      [.allocating 5000 4096 7, .allocating 100 4096 7, .allocating 10000 4096 9, .freeing 9]
    let held := session.foldl Holding.after ⟨.full 65536 1, ⟨⟨0, 65536⟩, .empty⟩⟩
    let sheet := session.foldl (Sheet.after 0 65536) .blank
    let x := Exchange.allocating 61441 4096 11
    sheet.charges ⟨0, 7⟩ = some 4096 ∧ sheet.charges ⟨0, 9⟩ = none ∧ sheet.charges.sum = 4096 ∧
      held.budget.free = 61440 ∧ (held.outcome x).forwarded = [] ∧
      (held.outcome x).held = some held ∧
      (HeapBlock.read (held.outcome x).space x.args).status = statusNoMemory ∧
      (HeapBlock.read (held.outcome x).space x.args).free = 61440 := by
  intro session held sheet x
  have hkeeps : ∀ y ∈ session, y.KeepsFunction := by
    intro y hy
    simp only [session, List.mem_cons, List.not_mem_nil, or_false] at hy
    rcases hy with rfl | rfl | rfl | rfl <;> intro _ _ <;> decide
  obtain ⟨hcharges, hdevices, -, -, -, hfree, hcalls⟩ :=
    session_shows_sheet 65536 1 ⟨0, 65536⟩ session hkeeps
  obtain ⟨hleft, hseven, hnine, hnone⟩ : held.budget.free = 61440 ∧
      held.account.ledger.records.get? ⟨0, 7⟩ = some 4096 ∧
      held.account.ledger.records.get? ⟨0, 9⟩ = none ∧
      held.account.ledger.devices.get? ⟨0, 0⟩ = none := by decide
  have hsum : sheet.charges.sum = 4096 := by
    rw [hleft] at hfree
    exact Nat.add_left_cancel hfree
  have hdemands : sheet.Demands 0 x := by
    refine ⟨⟨rfl, by decide, by decide⟩, by decide, by decide, ?_⟩
    have hparent : (⟨x.ask.root, x.ask.parent⟩ : ObjectKey) = ⟨0, 0⟩ := by decide
    rw [Sheet.Governs, hparent, ← hdevices, hnone]
    exact fun _ => nofun
  have hlarge : ¬ sheet.Fits 65536 x.bytes := by
    rw [Sheet.Fits, hsum]
    decide
  obtain ⟨-, hforwarded, hheld, hreply⟩ := (hcalls x).2.1 ⟨hdemands, hlarge⟩
  rw [hcharges] at hseven hnine
  refine ⟨hseven, hnine, hsum, hleft, hforwarded, hheld, ?_, ?_⟩
  · rw [hreply]
  · rw [hreply, hsum]
    rfl

end GpuQuota.Accounting
