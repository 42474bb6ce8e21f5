import GpuQuota.Proofs.Accounting.Balance

/-!
# What a request is due

`Account.demand` and `Account.settlement` decide, before and after the driver, what a request costs.
Here is when a request demands bytes, and what becomes of bytes that were reserved for it.

* `Account.demand_eq_some_iff`: the requests that demand bytes.
* `Account.settlement_kinds`: the block that a request is settled by.
* `Account.settlement_cases`: reserved bytes are given back, or disposed of as the block of a heap
  request says; no other settlement takes any.
* `Account.inHand_settlement_le`: no settlement disposes of more than was reserved.
* `Account.inHand_settlement_eq`: the settlement of a heap request disposes of all of it, unless the
  driver turned the request into a question for the totals.
* `Settlement.Inert`: the settlements that leave every ledger alone.
-/

namespace GpuQuota.Accounting

open GpuQuota.Driver GpuQuota.Number

/-- A heap request on the control device whose parameter block may be looked into. -/
structure HeapRequest (minor : UInt32) (request : Request) (args : UInt64) : Prop where
  control : minor = controlMinor
  number : request.number = heapNumber
  fits : HeapBlock.layout.fits args request.size = true

/-- The bytes that an admission reserved. -/
def Admission.bytes : Admission → ℕ
  | .reserved bytes => bytes.toNat
  | _ => 0

/-- What becomes of a demand at the budget. -/
def Budget.serve (budget : Budget) : Option UInt64 → Admission × Budget
  | none => (.passthrough, budget)
  | some bytes =>
    match budget.reserve bytes with
    | (.granted _, after) => (.reserved bytes, after)
    | (.denied free, after) => (.rejected bytes free, after)

namespace Budget

theorem total_serve (budget : Budget) (demand : Option UInt64) :
    (budget.serve demand).2.total = budget.total := by
  cases demand with
  | none => rfl
  | some bytes =>
    have htotal := budget.total_perform (.reserve bytes)
    simp only [perform, serve] at htotal ⊢
    split <;> next h => rw [h] at htotal; exact htotal

/-- An admission takes out of the budget exactly what it reserves. -/
theorem free_serve (budget : Budget) (demand : Option UInt64) :
    (budget.serve demand).2.free.toNat + (budget.serve demand).1.bytes = budget.free.toNat := by
  cases demand with
  | none => rfl
  | some bytes =>
    simp only [serve]
    split
    · next h => exact free_add_of_granted h
    · next h =>
      obtain ⟨-, -, rfl⟩ := reserve_eq_denied_iff.1 h
      rfl

/-- Bytes are reserved for the demand alone, and where they fit. -/
theorem serve_eq_reserved_iff {budget after : Budget} {demand : Option UInt64} {bytes : UInt64} :
    budget.serve demand = (.reserved bytes, after) ↔
      demand = some bytes ∧ bytes ≤ budget.free ∧
        after = { budget with free := budget.free - bytes } := by
  cases demand with
  | none => simp [serve]
  | some wanted =>
    simp only [serve, reserve]
    by_cases hlt : budget.free < wanted
    · rw [if_pos hlt]
      constructor
      · intro h
        cases h
      · rintro ⟨hwanted, hle, -⟩
        obtain rfl := Option.some.inj hwanted
        exact absurd hle (UInt64.not_le.2 hlt)
    · rw [if_neg hlt]
      simp only [Prod.mk.injEq, Admission.reserved.injEq, Option.some.injEq]
      constructor
      · rintro ⟨rfl, rfl⟩
        exact ⟨rfl, UInt64.not_lt.1 hlt, rfl⟩
      · rintro ⟨rfl, -, rfl⟩
        exact ⟨rfl, rfl⟩

/-- A demand is turned down where it does not fit, and then nothing is taken. -/
theorem serve_of_lt {budget : Budget} {bytes : UInt64} (h : budget.free < bytes) :
    budget.serve (some bytes) = (.rejected bytes budget.free, budget) := by
  simp only [serve, reserve, if_pos h]

/-- A demand that fits is not turned down. -/
theorem serve_ne_rejected {budget : Budget} {demand : Option UInt64}
    (h : ∀ bytes, demand = some bytes → bytes ≤ budget.free) (bytes free : UInt64) :
    (budget.serve demand).1 ≠ .rejected bytes free := by
  cases demand with
  | none => exact fun heq => nomatch heq
  | some wanted =>
    rw [serve_eq_reserved_iff.2 ⟨rfl, h wanted rfl, rfl⟩]
    exact fun heq => nomatch heq

end Budget

/-- The settlement takes bytes that were reserved. -/
def Settlement.Takes : Settlement → Prop
  | .refund _ => True
  | .charge _ _ => True
  | _ => False

/-- A settlement that takes no bytes disposes of none. -/
theorem Settlement.inHand_of_not_takes {settlement : Settlement} (h : ¬ settlement.Takes) :
    settlement.inHand = 0 := by
  cases settlement with
  | refund bytes => exact absurd trivial h
  | charge key bytes => exact absurd trivial h
  | _ => rfl

namespace Account

variable {account : Account} {minor : UInt32} {request : Request} {args : UInt64} {space : Space}

/-- A quota applies to an object whose device is not known to be another one. -/
theorem governs_iff {key : ObjectKey} : account.governs key = true ↔
    ∀ device, account.ledger.deviceOf key = some device → device = account.quota.minor := by
  rw [governs]
  cases account.ledger.deviceOf key with
  | none => simp
  | some device => simp

/-! ## Before the driver

A request that cannot be read demands nothing: it is for the driver to refuse it. -/

/-- Bytes are demanded by allocations below an object that the quota applies to, and by nothing
else. -/
theorem demand_eq_some_iff {bytes : UInt64} :
    account.demand minor request args space = some bytes ↔
      HeapRequest minor request args ∧
      (HeapBlock.read space args).function = heapAllocSize ∧
      account.governs ⟨(HeapBlock.read space args).root, (HeapBlock.read space args).parent⟩ ∧
      alignedSize (HeapBlock.read space args).alloc.size
        (HeapBlock.read space args).alloc.alignment = bytes := by
  constructor
  · intro h
    rw [demand] at h
    simp only [HeapBlock.decode?] at h
    split at h
    · next hrequest =>
      obtain ⟨hminor, hnumber⟩ := hrequest
      split at h
      · cases h
      · next block hblock =>
        rw [Option.ite_none_right_eq_some] at hblock
        obtain ⟨hfits, hread⟩ := hblock
        obtain rfl := Option.some.inj hread
        rw [Option.ite_none_right_eq_some] at h
        obtain ⟨⟨hfunction, hgoverns⟩, hbytes⟩ := h
        exact ⟨⟨hminor, hnumber, hfits⟩, hfunction, hgoverns, Option.some.inj hbytes⟩
    · cases h
  · rintro ⟨⟨hminor, hnumber, hfits⟩, hfunction, hgoverns, rfl⟩
    simp only [demand, hminor, hnumber, and_self, if_true, HeapBlock.decode?, hfits, hfunction,
      hgoverns]

/-- What a request is admitted with is what its demand is served with. -/
theorem admission_eq (budget : Budget) :
    account.admission budget minor request args space =
      budget.serve (account.demand minor request args space) := by
  unfold admission Budget.serve
  cases account.demand minor request args space <;> rfl

/-! ## After the driver

What each kind of reply can come to. -/

/-- A refund gives back all that was reserved. -/
theorem inHand_refund (admission : Admission) : admission.refund.inHand = admission.bytes := by
  cases admission <;> rfl

/-- A heap request comes to nothing, to a show of totals, to a refund or to a charge of what was
reserved. -/
theorem settleHeap_cases (block : HeapBlock) (admission : Admission) :
    account.settleHeap block admission = .nothing ∨
      account.settleHeap block admission = .showTotals ∨
      account.settleHeap block admission = admission.refund ∨
      ∃ key bytes, admission = .reserved bytes ∧
        account.settleHeap block admission = .charge key bytes := by
  unfold settleHeap
  split
  · cases admission with
    | reserved bytes =>
      dsimp only
      split
      · exact .inr (.inr (.inr ⟨_, bytes, rfl, rfl⟩))
      · exact .inr (.inr (.inl rfl))
    | _ => exact .inl rfl
  · split
    · split
      · exact .inr (.inl rfl)
      · exact .inl rfl
    · exact .inr (.inr (.inl rfl))

/-- A control request comes to nothing, or to a show of figures. -/
theorem settleControl_cases (space : Space) (block : ControlBlock) :
    account.settleControl space block = .nothing ∨
      ∃ list, account.settleControl space block = .showFigures list := by
  rw [settleControl]
  split
  · dsimp only
    split
    · next list _ => exact .inr ⟨list, rfl⟩
    · exact .inl rfl
  · exact .inl rfl

/-- A free comes to nothing, or strikes one key. -/
theorem settleFree_cases (block : FreeBlock) :
    settleFree block = .nothing ∨ ∃ key, settleFree block = .strike key := by
  rw [settleFree]
  split
  · exact .inr ⟨_, rfl⟩
  · exact .inl rfl

/-- A creation comes to nothing, or notes a device object or a child. -/
theorem settleAlloc_cases (space : Space) (block : AllocBlock) :
    settleAlloc space block = .nothing ∨
      (∃ key device, settleAlloc space block = .newDevice key device) ∨
      ∃ key parent, settleAlloc space block = .newChild key parent := by
  rw [settleAlloc]
  split
  · split
    · exact .inr (.inl ⟨_, _, rfl⟩)
    · exact .inr (.inr ⟨_, _, rfl⟩)
  · exact .inl rfl

/-- A heap request disposes of no more than was reserved. -/
theorem inHand_settleHeap_le (block : HeapBlock) (admission : Admission) :
    (account.settleHeap block admission).inHand ≤ admission.bytes := by
  rcases account.settleHeap_cases block admission with h | h | h | ⟨key, bytes, rfl, h⟩ <;> rw [h]
  · exact Nat.zero_le _
  · exact Nat.zero_le _
  · exact Nat.le_of_eq (inHand_refund admission)
  · exact Nat.le_refl _

/-- What a request is settled by: the block that the driver left, of the kind that the request has.
-/
theorem settlement_kinds (account : Account) (minor : UInt32) (request : Request) (args : UInt64)
    (space : Space) (admission : Admission) {due : Settlement}
    (h : account.settlement minor request args space admission = due) :
    due = admission.refund ∨
      (HeapRequest minor request args ∧
        due = account.settleHeap (HeapBlock.read space args) admission) ∨
      (minor = controlMinor ∧ request.number = controlNumber ∧
        ControlBlock.layout.fits args request.size = true ∧
        due = account.settleControl space (ControlBlock.read space args)) ∨
      (∃ block, due = settleFree block) ∨ (∃ block, due = settleAlloc space block) ∨
      due = .nothing := by
  rw [settlement] at h
  split at h
  · exact .inl h.symm
  next hminor =>
  have hcontrol : minor = controlMinor := not_not.1 hminor
  -- the cases follow the number of the request; where its block cannot be read nothing is due
  split at h
  · next hnumber =>
    rw [HeapBlock.decode?] at h
    split at h
    · next block hblock =>
      obtain ⟨hfits, hread⟩ := Option.ite_none_right_eq_some.1 hblock
      obtain rfl := Option.some.inj hread
      exact .inr (.inl ⟨⟨hcontrol, hnumber, hfits⟩, h.symm⟩)
    · exact .inl h.symm
  split at h
  · next hnumber =>
    rw [ControlBlock.decode?] at h
    split at h
    · next block hblock =>
      obtain ⟨hfits, hread⟩ := Option.ite_none_right_eq_some.1 hblock
      obtain rfl := Option.some.inj hread
      exact .inr (.inr (.inl ⟨hcontrol, hnumber, hfits, h.symm⟩))
    · exact .inr (.inr (.inr (.inr (.inr h.symm))))
  split at h
  · split at h
    · next block _ => exact .inr (.inr (.inr (.inl ⟨block, h.symm⟩)))
    · exact .inr (.inr (.inr (.inr (.inr h.symm))))
  split at h
  · split at h
    · next block _ => exact .inr (.inr (.inr (.inr (.inl ⟨block, h.symm⟩))))
    · exact .inr (.inr (.inr (.inr (.inr h.symm))))
  · exact .inr (.inr (.inr (.inr (.inr h.symm))))

/-- Reserved bytes go back where a request cannot be looked into, and are disposed of as the block
of a heap request says. No other request takes any. -/
theorem settlement_cases (admission : Admission) :
    account.settlement minor request args space admission = admission.refund ∨
      (∃ block, account.settlement minor request args space admission =
        account.settleHeap block admission) ∨
      ¬ (account.settlement minor request args space admission).Takes := by
  rcases settlement_kinds account minor request args space admission rfl with
    h | ⟨-, h⟩ | ⟨-, -, -, h⟩ | ⟨block, h⟩ | ⟨block, h⟩ | h
  · exact .inl h
  · exact .inr (.inl ⟨_, h⟩)
  all_goals
    refine .inr (.inr ?_)
    rw [h]
  · rcases account.settleControl_cases space (ControlBlock.read space args) with h | ⟨list, h⟩ <;>
      rw [h] <;> exact id
  · rcases settleFree_cases block with h | ⟨key, h⟩ <;> rw [h] <;> exact id
  · rcases settleAlloc_cases space block with h | ⟨key, device, h⟩ | ⟨key, parent, h⟩ <;>
      rw [h] <;> exact id
  · exact id

/-- **No settlement disposes of more than was reserved**, whatever the driver left. -/
theorem inHand_settlement_le (admission : Admission) :
    (account.settlement minor request args space admission).inHand ≤ admission.bytes := by
  rcases account.settlement_cases admission with h | ⟨block, h⟩ | h
  · rw [h]
    exact Nat.le_of_eq (inHand_refund admission)
  · rw [h]
    exact inHand_settleHeap_le block admission
  · rw [Settlement.inHand_of_not_takes h]
    exact Nat.zero_le _

/-- Bytes are charged only where they were reserved. -/
theorem eq_reserved_of_settlement {admission : Admission} {key : ObjectKey} {bytes : UInt64}
    (h : account.settlement minor request args space admission = .charge key bytes) :
    admission = .reserved bytes := by
  have hrefund : admission.refund ≠ .charge key bytes := by
    intro heq
    cases admission <;> cases heq
  rcases account.settlement_cases admission with heq | ⟨block, heq⟩ | hnone
  · exact absurd (heq.symm.trans h) hrefund
  · rw [heq] at h
    rcases account.settleHeap_cases block admission with heq | heq | heq | ⟨_, _, rfl, heq⟩
    · rw [heq] at h
      cases h
    · rw [heq] at h
      cases h
    · exact absurd (heq.symm.trans h) hrefund
    · obtain ⟨-, rfl⟩ := Settlement.charge.inj (heq.symm.trans h)
      rfl
  · rw [h] at hnone
    exact absurd trivial hnone

/-- A heap request is settled by the block that the driver left. -/
theorem settlement_heap (h : HeapRequest minor request args) (admission : Admission) :
    account.settlement minor request args space admission =
      account.settleHeap (HeapBlock.read space args) admission := by
  rw [settlement, if_neg (not_not_intro h.control), if_pos h.number, HeapBlock.decode?,
    if_pos h.fits]

/-- A control request too. -/
theorem settlement_control (hnumber : request.number = controlNumber)
    (hfits : ControlBlock.layout.fits args request.size = true) (admission : Admission) :
    account.settlement controlMinor request args space admission =
      account.settleControl space (ControlBlock.read space args) := by
  have hheap : controlNumber ≠ heapNumber := by decide
  rw [settlement, if_neg (not_not_intro rfl), hnumber, if_neg hheap, if_pos rfl,
    ControlBlock.decode?, if_pos hfits]

/-- A reservation is charged where the driver left a successful allocation. -/
theorem settlement_charge (h : HeapRequest minor request args) {bytes : UInt64}
    (hfunction : (HeapBlock.read space args).function = heapAllocSize)
    (hstatus : (HeapBlock.read space args).status = statusOk) :
    account.settlement minor request args space (.reserved bytes) =
      .charge ⟨(HeapBlock.read space args).root, (HeapBlock.read space args).alloc.memory⟩
        bytes := by
  rw [settlement_heap h, settleHeap, if_pos hfunction]
  exact if_pos hstatus

/-- It is refunded where the driver left a failed allocation, or a request of another kind that is
no question for the totals. -/
theorem settlement_refund (h : HeapRequest minor request args) {bytes : UInt64}
    (hinfo : (HeapBlock.read space args).function ≠ heapInfo)
    (hfailed : (HeapBlock.read space args).function = heapAllocSize →
      (HeapBlock.read space args).status ≠ statusOk) :
    account.settlement minor request args space (.reserved bytes) = .refund bytes := by
  rw [settlement_heap h, settleHeap]
  by_cases hfunction : (HeapBlock.read space args).function = heapAllocSize
  · rw [if_pos hfunction]
    exact if_neg (hfailed hfunction)
  · rw [if_neg hfunction, if_neg hinfo]
    rfl

/-- A question for the totals changes no ledger and owes nothing, also where bytes were reserved
for it: they are forgotten. -/
theorem book_settlement_info (h : HeapRequest minor request args) (admission : Admission)
    (hinfo : (HeapBlock.read space args).function = heapInfo) (ledger : Ledger) :
    ledger.book (account.settlement minor request args space admission) = (none, ledger) := by
  have halloc : (HeapBlock.read space args).function ≠ heapAllocSize := by
    rw [hinfo]
    decide
  rw [settlement_heap h]
  unfold settleHeap
  rw [if_neg halloc, if_pos hinfo]
  split <;> rfl

/-- **The settlement of a heap request disposes of all that was reserved**, unless the driver turned
it into a question for the totals. -/
theorem inHand_settlement_eq (h : HeapRequest minor request args) {bytes : UInt64}
    (hinfo : (HeapBlock.read space args).function ≠ heapInfo) :
    (account.settlement minor request args space (.reserved bytes)).inHand = bytes.toNat := by
  by_cases hcharge : (HeapBlock.read space args).function = heapAllocSize ∧
      (HeapBlock.read space args).status = statusOk
  · rw [settlement_charge h hcharge.1 hcharge.2]
    rfl
  · rw [settlement_refund h hinfo fun hfunction hstatus => hcharge ⟨hfunction, hstatus⟩]
    rfl

end Account

/-! ## What leaves a ledger alone

Of the settlements that change no entry some still give bytes back, so that being inert says nothing
of the budget. -/

/-- The settlement leaves every ledger as it is. -/
def Settlement.Inert (settlement : Settlement) : Prop :=
  ∀ ledger : Ledger, (ledger.book settlement).2 = ledger

theorem Admission.inert_refund (admission : Admission) : admission.refund.Inert := by
  cases admission <;> exact fun _ => rfl

namespace Account

variable {account : Account} {minor : UInt32} {request : Request} {args : UInt64} {space : Space}

/-- A request on another node than the control node changes no entry. -/
theorem inert_settlement_of_ne (h : minor ≠ controlMinor) (admission : Admission) :
    (account.settlement minor request args space admission).Inert := by
  rw [settlement, if_pos h]
  exact admission.inert_refund

/-- A heap request for which nothing is reserved changes no ledger. -/
theorem inert_settlement_heap (hminor : minor = controlMinor)
    (hnumber : request.number = heapNumber) :
    (account.settlement minor request args space .passthrough).Inert := by
  rw [settlement, if_neg (not_not_intro hminor), if_pos hnumber]
  split
  · next block _ =>
    rcases account.settleHeap_cases block .passthrough with h | h | h | ⟨key, bytes, hnone, h⟩
    · rw [h]
      exact fun _ => rfl
    · rw [h]
      exact fun _ => rfl
    · rw [h]
      exact Admission.passthrough.inert_refund
    · cases hnone
  · exact fun _ => rfl

/-- A control request changes no entry. -/
theorem inert_settlement_control (hminor : minor = controlMinor)
    (hnumber : request.number = controlNumber) (admission : Admission) :
    (account.settlement minor request args space admission).Inert := by
  have hheap : controlNumber ≠ heapNumber := by decide
  rw [settlement, if_neg (not_not_intro hminor), hnumber, if_neg hheap, if_pos rfl]
  split
  · next block _ =>
    rcases account.settleControl_cases space block with h | ⟨list, h⟩ <;> rw [h] <;>
      exact fun _ => rfl
  · exact fun _ => rfl

/-- A request to free is settled by the block that can be read, and comes to nothing if none can. -/
theorem settlement_free (hminor : minor = controlMinor) (hnumber : request.number = freeNumber)
    (admission : Admission) :
    account.settlement minor request args space admission =
      (FreeBlock.decode? space args request.size).elim .nothing settleFree := by
  have hheap : freeNumber ≠ heapNumber := by decide
  have hcontrol : freeNumber ≠ controlNumber := by decide
  rw [settlement, if_neg (not_not_intro hminor), hnumber, if_neg hheap, if_neg hcontrol, if_pos rfl]
  cases FreeBlock.decode? space args request.size <;> rfl

theorem settlement_alloc (hminor : minor = controlMinor) (hnumber : request.number = allocNumber)
    (admission : Admission) :
    account.settlement minor request args space admission =
      (AllocBlock.decode? space args request.size).elim .nothing (settleAlloc space) := by
  have hheap : allocNumber ≠ heapNumber := by decide
  have hcontrol : allocNumber ≠ controlNumber := by decide
  have hfree : allocNumber ≠ freeNumber := by decide
  rw [settlement, if_neg (not_not_intro hminor), hnumber, if_neg hheap, if_neg hcontrol,
    if_neg hfree, if_pos rfl]
  cases AllocBlock.decode? space args request.size <;> rfl

/-- A free request that did not free an object changes no ledger. -/
theorem inert_settlement_free (hminor : minor = controlMinor)
    (hnumber : request.number = freeNumber) (admission : Admission)
    (h : FreeBlock.layout.fits args request.size = true →
      ¬ ((FreeBlock.read space args).status = statusOk ∧
        (FreeBlock.read space args).old ≠ (FreeBlock.read space args).root)) :
    (account.settlement minor request args space admission).Inert := by
  rw [settlement_free hminor hnumber, FreeBlock.decode?]
  by_cases hfits : FreeBlock.layout.fits args request.size = true
  · rw [if_pos hfits, Option.elim_some, settleFree, if_neg (h hfits)]
    exact fun _ => rfl
  · rw [if_neg hfits]
    exact fun _ => rfl

/-- An object request that did not create an object changes no ledger. -/
theorem inert_settlement_alloc (hminor : minor = controlMinor)
    (hnumber : request.number = allocNumber) (admission : Admission)
    (h : ∀ block, AllocBlock.decode? space args request.size = some block →
      block.status ≠ statusOk) :
    (account.settlement minor request args space admission).Inert := by
  rw [settlement_alloc hminor hnumber]
  rcases hdecode : AllocBlock.decode? space args request.size with _ | block
  · exact fun _ => rfl
  · rw [Option.elim_some, settleAlloc, if_neg (h block hdecode)]
    exact fun _ => rfl

end Account

end GpuQuota.Accounting
