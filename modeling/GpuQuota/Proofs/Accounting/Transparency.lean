import GpuQuota.Proofs.Accounting.Session

/-!
# A call passes through

Whoever makes a call cannot tell the interception from the driver, but for what a quota is there
for. A call for more than is free is answered in place of the driver (`Holding.Refuses`). Any other
call reaches the driver once, as it is, and what comes back is what the driver left, but for the
bytes in which the budget is shown (`Holding.Restates`).

* `Settlement.Silent`: the settlements that leave the memory alone. `Account.settlement_shape` says
  what the others answer to.
* `Holding.verdict_shape`: an exchange leaves the memory alone, or the driver has answered a request
  that the budget is shown for.
* `Exchange.transparent`: the result.
-/

namespace GpuQuota.Accounting

open GpuQuota.Driver

/-! ## Settlements and the memory

Three settlements write to the memory: a charge and a show of totals into the heap block, and a show
of figures into its list. Each comes from a request that asks for what is written. -/

/-- The settlement leaves the caller's memory as the driver left it. -/
def Settlement.Silent : Settlement → Prop
  | .charge _ _ => False
  | .showTotals => False
  | .showFigures _ => False
  | _ => True

/-- A silent settlement leaves the memory. -/
theorem Holding.space_settle_of_silent {settlement : Settlement} (h : settlement.Silent)
    (held : Holding) (alive : Int32 → Bool) (args : UInt64) (space : Space) :
    (held.settle alive args space settlement).2 = space := by
  cases settlement with
  | charge key bytes => exact h.elim
  | showTotals => exact h.elim
  | showFigures list => exact h.elim
  | _ => rfl

theorem Admission.silent_refund (admission : Admission) : admission.refund.Silent := by
  cases admission <;> trivial

/-- The list of figures that a control block asks for, if there is one. -/
def figures? (space : Space) (block : ControlBlock) : Option InfoList :=
  if block.command = infoByPointer then
    InfoList.pointed? space block.params block.paramsSize.toNat
  else if block.command = infoInline then
    InfoList.inline? space block.params block.paramsSize.toNat
  else none

namespace Account

variable {account : Account} {minor : UInt32} {request : Request} {args : UInt64} {space : Space}

/-- A heap request is settled silently, or shows totals, or charges what was reserved. -/
theorem settleHeap_shape (block : HeapBlock) (admission : Admission) :
    (account.settleHeap block admission).Silent ∨
      (account.settleHeap block admission = .showTotals ∧ block.function = heapInfo ∧
        block.status = statusOk ∧ account.governs ⟨block.root, block.parent⟩ = true) ∨
      ∃ key bytes, account.settleHeap block admission = .charge key bytes ∧
        admission = .reserved bytes ∧ block.function = heapAllocSize ∧ block.status = statusOk := by
  unfold settleHeap
  split
  · next hfunction =>
    cases admission with
    | reserved bytes =>
      dsimp only
      split
      · next hstatus => exact .inr (.inr ⟨_, bytes, rfl, rfl, hfunction, hstatus⟩)
      · exact .inl trivial
    | _ => exact .inl trivial
  · split
    · next hinfo =>
      split
      · next hshown => exact .inr (.inl ⟨rfl, hinfo, hshown⟩)
      · exact .inl trivial
    · exact .inl admission.silent_refund

/-- A control request is settled by the list that it asks for. -/
theorem settleControl_eq (space : Space) (block : ControlBlock) :
    account.settleControl space block =
      if block.status = statusOk ∧ account.governs ⟨block.client, block.object⟩ = true then
        (figures? space block).elim .nothing .showFigures
      else .nothing := by
  rw [settleControl, figures?]
  by_cases hcommand : block.command = infoByPointer ∨ block.command = infoInline
  · simp only [hcommand, true_and]
    split
    · rcases hcommand with hpointer | hinline
      · rw [if_pos hpointer, if_pos hpointer]
        rcases InfoList.pointed? space block.params block.paramsSize.toNat with _ | list <;> rfl
      · have hother : infoInline ≠ infoByPointer := by decide
        rw [hinline, if_neg hother, if_neg hother, if_pos rfl]
        rcases InfoList.inline? space block.params block.paramsSize.toNat with _ | list <;> rfl
    · rfl
  · obtain ⟨hpointer, hinline⟩ := not_or.1 hcommand
    simp only [hcommand, false_and, and_false, if_false, if_neg hpointer, if_neg hinline,
      Option.elim_none, ite_self]

/-- A control request is settled silently, or shows the figures that it asks for. -/
theorem settleControl_shape (space : Space) (block : ControlBlock) :
    (account.settleControl space block).Silent ∨
      ∃ list, account.settleControl space block = .showFigures list ∧
        figures? space block = some list ∧ block.status = statusOk ∧
        account.governs ⟨block.client, block.object⟩ = true := by
  rw [settleControl_eq]
  split
  · next hanswered =>
    obtain ⟨hstatus, hgoverns⟩ := hanswered
    rcases figures? space block with _ | list
    · exact .inl trivial
    · exact .inr ⟨list, rfl, rfl, hstatus, hgoverns⟩
  · exact .inl trivial

/-- A settlement leaves the memory alone, or answers a heap request or a control request. -/
theorem settlement_shape (account : Account) (minor : UInt32) (request : Request) (args : UInt64)
    (space : Space) (admission : Admission) :
    (account.settlement minor request args space admission).Silent ∨
      (HeapRequest minor request args ∧
        account.settlement minor request args space admission =
          account.settleHeap (HeapBlock.read space args) admission) ∨
      (minor = controlMinor ∧ request.number = controlNumber ∧
        ControlBlock.layout.fits args request.size = true ∧
        account.settlement minor request args space admission =
          account.settleControl space (ControlBlock.read space args)) := by
  rcases settlement_kinds account minor request args space admission rfl with
    h | h | h | ⟨block, h⟩ | ⟨block, h⟩ | h
  · rw [h]
    exact .inl admission.silent_refund
  · exact .inr (.inl h)
  · exact .inr (.inr h)
  all_goals
    refine .inl ?_
    rw [h]
  · rcases settleFree_cases block with h | ⟨key, h⟩ <;> rw [h] <;> trivial
  · rcases settleAlloc_cases space block with h | ⟨key, device, h⟩ | ⟨key, parent, h⟩ <;>
      rw [h] <;> trivial
  · trivial

end Account

/-! ## What a call is to a holding

Whether a call is refused depends on the holding; whether it may be restated depends on the call and
on the driver's answer. -/

namespace Exchange

variable (x : Exchange)

/-- The exchange through the interception of a process that may hold an account. -/
def through (held : Option Holding) : Outcome :=
  intercept held x.alive x.driver x.device x.raw x.args x.space

/-- The control block as the driver leaves it. -/
def command : ControlBlock := .read x.left x.args

/-- A request of the driver's own type, with one of the numbers that matter, on the control device.
-/
structure Governed : Prop where
  kind : x.request.kind = requestKind
  /-- It frees, controls or allocates an object, or asks the heap. -/
  number : x.request.number ∈ [freeNumber, controlNumber, allocNumber, heapNumber]
  /-- The device is the one through which the driver is controlled. -/
  device : x.device = some (deviceMajor, controlMinor)

variable {x}

theorem OnControl.governed {number : UInt8} (h : x.OnControl number)
    (hnumber : number ∈ [freeNumber, controlNumber, allocNumber, heapNumber]) : x.Governed :=
  ⟨h.kind, h.number.symm ▸ hnumber, h.device⟩

/-- A call is governed if it is looked into on the control node. -/
theorem governed_iff : x.Governed ↔ relevantMinor? x.request x.device = some controlMinor := by
  rw [relevantMinor?_eq_some_iff, isGoverned_iff]
  constructor
  · rintro ⟨hkind, hnumber, hdevice⟩
    exact ⟨hdevice, hkind, hnumber⟩
  · rintro ⟨hdevice, hkind, hnumber⟩
    exact ⟨hkind, hnumber, hdevice⟩

end Exchange

namespace Holding

variable (held : Holding) (x : Exchange)

/-- The call asks for bytes that are free, and the driver allocates them. -/
structure Allocates : Prop where
  demands : held.Demands x
  /-- The budget has room for the bytes. -/
  fits : x.bytes ≤ held.budget.free
  ret : x.ret = 0
  /-- The driver leaves the block marked as an allocation. -/
  function : x.reply.function = heapAllocSize
  status : x.reply.status = statusOk

/-- The driver answers a question for the totals of an object that the quota applies to. -/
structure Tells : Prop where
  onControl : x.OnControl heapNumber
  fits : HeapBlock.layout.fits x.args x.request.size = true
  ret : x.ret = 0
  /-- The block asks for the totals. -/
  function : x.reply.function = heapInfo
  status : x.reply.status = statusOk
  /-- The quota applies to the object that is asked. -/
  governs : held.account.governs ⟨x.reply.root, x.reply.parent⟩ = true

/-- The driver answers a question for the figures of an object that the quota applies to, with a
list of them. -/
structure Lists (list : InfoList) : Prop where
  onControl : x.OnControl controlNumber
  fits : ControlBlock.layout.fits x.args x.request.size = true
  ret : x.ret = 0
  status : x.command.status = statusOk
  governs : held.account.governs ⟨x.command.client, x.command.object⟩ = true
  /-- The list is where the parameters say, or stands in them. -/
  figures : figures? x.left x.command = some list

/-- The byte at `spot` is one in which a reply shows the budget in place of the device. -/
def Restates (spot : UInt64) : Prop :=
  ((held.Allocates x ∨ held.Tells x) ∧ HeapBlock.InTotals x.args spot) ∨
    ∃ list, held.Lists x list ∧ list.InFigure x.left spot

variable {held x}

/-- A refusal changes nothing but the status and the two figures of the block. -/
theorem within_of_refusal_ne {space : Space} {args total free spot : UInt64}
    (h : (Account.refusal space args total free).byte spot ≠ space.byte spot) :
    Space.Within (args + HeapBlock.statusOffset) 4 spot ∨ HeapBlock.InTotals args spot := by
  by_cases hstatus :
      (HeapBlock.setStatus space args statusNoMemory).byte spot = space.byte spot
  · rw [Account.refusal, ← hstatus] at h
    exact .inr (HeapBlock.inTotals_of_ne h)
  · exact .inl (HeapBlock.within_of_setStatus_ne hstatus)

/-- A verdict is the settlement of what the driver answered, or there is none. -/
theorem verdict_cases (held : Holding) (x : Exchange) :
    held.verdict x = .nothing ∨ ∃ minor admission budget,
      relevantMinor? x.request x.device = some minor ∧
      held.budget.serve (held.account.demand minor x.request x.args x.space) =
        (admission, budget) ∧
      held.verdict x = Visit.verdict ⟨minor, x.request, x.args, x.space⟩ held.account admission
        x.ret x.left := by
  rcases hrelevant : relevantMinor? x.request x.device with _ | minor
  · exact .inl (verdict_of_none hrelevant)
  rcases hserve : held.budget.serve (held.account.demand minor x.request x.args x.space)
    with ⟨admission, budget⟩
  cases admission with
  | rejected bytes free => exact .inl (verdict_of_rejected hrelevant hserve)
  | passthrough =>
    refine .inr ⟨minor, .passthrough, budget, rfl, hserve, ?_⟩
    simp only [verdict, hrelevant, hserve]
  | reserved bytes =>
    exact .inr ⟨minor, .reserved bytes, budget, rfl, hserve, verdict_of_reserved hrelevant hserve⟩

/-- What a verdict does to the memory tells what the driver answered. -/
theorem verdict_shape (held : Holding) (x : Exchange) :
    (held.verdict x).Silent ∨ (held.verdict x = .showTotals ∧ held.Tells x) ∨
      (∃ key bytes, held.verdict x = .charge key bytes ∧ held.Allocates x) ∨
      ∃ list, held.verdict x = .showFigures list ∧ held.Lists x list := by
  rcases held.verdict_cases x with hnone | ⟨minor, admission, budget, hrelevant, hserve, hverdict⟩
  · rw [hnone]
    exact .inl trivial
  rw [hverdict, Visit.verdict]
  obtain ⟨hdevice, hkind, -⟩ := relevantMinor?_eq_some_iff.1 hrelevant
  by_cases hret : x.ret = 0
  · rw [if_pos hret]
    rcases held.account.settlement_shape minor x.request x.args x.left admission with
      hsilent | ⟨⟨rfl, hnumber, hfits⟩, heq⟩ | ⟨rfl, hnumber, hfits, heq⟩
    · exact .inl hsilent
    · -- a heap request, of the kind that the reply says
      rw [heq]
      rcases held.account.settleHeap_shape x.reply admission with
        hsilent | ⟨hshow, hfunction, hstatus, hgoverns⟩ |
          ⟨key, bytes, hcharge, rfl, hfunction, hstatus⟩
      · exact .inl hsilent
      · exact .inr (.inl
          ⟨hshow, ⟨hdevice, hkind, hnumber⟩, hfits, hret, hfunction, hstatus, hgoverns⟩)
      · -- only what was demanded before the driver is charged after it
        obtain ⟨hdemand, hle, -⟩ := Budget.serve_eq_reserved_iff.1 hserve
        obtain ⟨hdemands, rfl⟩ := (demand_eq_some_iff hrelevant).1 hdemand
        exact .inr (.inr (.inl ⟨key, x.bytes, hcharge, hdemands, hle, hret, hfunction, hstatus⟩))
    · rw [heq]
      rcases held.account.settleControl_shape x.left x.command with
        hsilent | ⟨list, hshow, hfigures, hstatus, hgoverns⟩
      · exact .inl hsilent
      · exact .inr (.inr (.inr
          ⟨list, hshow, ⟨hdevice, hkind, hnumber⟩, hfits, hret, hstatus, hgoverns, hfigures⟩))
  · rw [if_neg hret]
    exact .inl admission.silent_refund

/-- A byte that a settlement changes is one in which the budget is shown. -/
theorem restates_of_ne {between : Holding} {spot : UInt64}
    (h : (between.settle x.alive x.args x.left (held.verdict x)).2.byte spot ≠
      x.left.byte spot) : held.Restates x spot := by
  rcases held.verdict_shape x with
    hsilent | ⟨hverdict, htells⟩ | ⟨key, bytes, hverdict, hallocates⟩ | ⟨list, hverdict, hlists⟩
  · rw [space_settle_of_silent hsilent] at h
    exact absurd rfl h
  · rw [hverdict] at h
    exact .inl ⟨.inr htells, HeapBlock.inTotals_of_ne h⟩
  · rw [hverdict] at h
    exact .inl ⟨.inl hallocates, HeapBlock.inTotals_of_ne h⟩
  · rw [hverdict] at h
    exact .inr ⟨list, hlists, InfoList.inFigure_of_ne h⟩

/-- A request that is not looked into, or goes to another device, leaves no trace. -/
theorem outcome_of_not_governed (h : ¬ x.Governed) :
    (held.outcome x).space = x.left ∧ (held.outcome x).held = some held := by
  rcases hrelevant : relevantMinor? x.request x.device with _ | minor
  · rw [Exchange.request] at hrelevant
    simp only [outcome, intercept, hrelevant, handOn]
    exact ⟨rfl, trivial⟩
  · have hminor : minor ≠ controlMinor := by
      rintro rfl
      exact h (Exchange.governed_iff.2 hrelevant)
    have hdemand : held.account.demand minor x.request x.args x.space = none := by
      rw [Option.eq_none_iff_forall_ne_some]
      intro bytes hbytes
      exact hminor (Account.demand_eq_some_iff.1 hbytes).1.control
    rw [Exchange.request] at hrelevant hdemand
    simp only [outcome, intercept, hrelevant, call, Account.admission_eq, hdemand, Budget.serve,
      Account.settlement, if_pos hminor, Admission.refund, ite_self, settle]
    exact ⟨rfl, trivial⟩

end Holding

/-! ## The result -/

/-- **Interception is transparent.** A call for more than is free does not reach the driver: it
returns zero, nothing is taken from the budget or written in the ledger, and the block is the
caller's but for the status, which is out of memory, and the two figures, which are the ceiling and
what is free. Any other call reaches the driver once, as it is, and returns what the driver returns,
and only those bytes differ from what the driver left in which the budget is shown. Where the
request is of another type or number, or the descriptor is not the control device, not even these
do, and nothing is taken or written either. -/
theorem Exchange.transparent (x : Exchange) (held : Option Holding) :
    (∀ holding ∈ held, holding.Refuses x →
      (x.through held).forwarded = [] ∧ (x.through held).ret = 0 ∧ (x.through held).held = held ∧
      HeapBlock.read (x.through held).space x.args =
        { x.ask with
          status := statusNoMemory, total := holding.budget.total, free := holding.budget.free } ∧
      ∀ spot, (x.through held).space.byte spot ≠ x.space.byte spot →
        Space.Within (x.args + HeapBlock.statusOffset) 4 spot ∨
          HeapBlock.InTotals x.args spot) ∧
    ((∀ holding ∈ held, ¬ holding.Refuses x) →
      (x.through held).forwarded = [⟨x.raw, x.args, x.space⟩] ∧ (x.through held).ret = x.ret ∧
      ∀ spot, (x.through held).space.byte spot ≠ x.left.byte spot →
        ∃ holding ∈ held, holding.Restates x spot) ∧
    (¬ x.Governed → (∀ holding ∈ held, ¬ holding.Refuses x) ∧
      (x.through held).space = x.left ∧ (x.through held).held = held) := by
  -- without a holding every call is handed on
  cases held with
  | none =>
    refine ⟨?_, ?_, ?_⟩
    · intro holding hnone
      cases hnone
    · intro _
      exact ⟨rfl, rfl, fun spot hne => absurd rfl hne⟩
    · intro _
      refine ⟨?_, rfl, rfl⟩
      intro holding hnone
      cases hnone
  | some holding =>
    have hthrough : x.through (some holding) = holding.outcome x := rfl
    rw [hthrough]
    refine ⟨?_, ?_, ?_⟩
    · rintro _ ⟨rfl⟩ hrefuses
      rw [Holding.outcome_of_refuses hrefuses]
      refine ⟨rfl, rfl, rfl, ?_, fun spot hne => Holding.within_of_refusal_ne hne⟩
      rw [Account.refusal, HeapBlock.read_setTotals, HeapBlock.read_setStatus]
      rfl
    · intro hpasses
      obtain ⟨hforwarded, hret, between, hspace⟩ :=
        Holding.outcome_of_not_refuses (hpasses holding rfl)
      refine ⟨hforwarded, hret, ?_⟩
      intro spot hne
      rw [hspace] at hne
      exact ⟨holding, rfl, Holding.restates_of_ne hne⟩
    · -- whatever is refused is a heap request on the control node, so it is governed
      intro hforeign
      refine ⟨?_, Holding.outcome_of_not_governed hforeign⟩
      rintro _ ⟨rfl⟩ hrefuses
      exact hforeign (hrefuses.1.onControl.governed (by decide))

/-- A call for 4096 bytes where 1024 are free. -/
theorem Exchange.transparent_refused :
    let visit := Visit.allocation 8 4096
    let script : Script := { kind := some .heap, total := 0, free := 0, memory := some 7 }
    let x : Exchange := ⟨some (deviceMajor, controlMinor), visit.request.raw, visit.args,
      visit.space, script.driver, fun _ => true⟩
    let held : Holding := ⟨.full 1024 1, ⟨⟨0, 1024⟩, .empty⟩⟩
    (x.through (some held)).forwarded = [] ∧
      (HeapBlock.read (x.through (some held)).space x.args).status = statusNoMemory ∧
      (HeapBlock.read (x.through (some held)).space x.args).free = 1024 := by
  intro visit script x held
  have hcontrol : x.OnControl heapNumber := ⟨rfl, by decide, by decide⟩
  have hdemands : held.Demands x := ⟨hcontrol, by decide, by decide, by decide⟩
  have hrefuses : held.Refuses x := ⟨hdemands, by decide⟩
  obtain ⟨hforwarded, -, -, hreply, -⟩ := (x.transparent (some held)).1 held rfl hrefuses
  rw [hreply]
  exact ⟨hforwarded, rfl, rfl⟩

end GpuQuota.Accounting
