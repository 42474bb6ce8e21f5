import GpuQuota.Accounting.Scripted
import GpuQuota.Proofs.Accounting.Conservation

/-!
# What becomes of a reservation

A heap request that was let through comes back with bytes reserved for it. Whatever the driver did,
these should be settled exactly once: charged under the handle of the reply, or given back. The
reply is read again after the driver, and the driver may have left anything in it.

* `Visit.verdict_charge`, `Visit.verdict_refund`: the answers that settle a reservation.
* `World.Reachable.settledOnce_iff`: all answers do but one. A successful reply whose function word
  asks for the totals is taken for an answer to that question, and the reservation is forgotten.
-/

namespace GpuQuota.Accounting

open GpuQuota.Driver GpuQuota.Settings

namespace Visit

variable {visit : Visit} {account : Account} {bytes : UInt64} {ret : Int32} {after : Space}

/-- The request came back as a successful question for the totals. -/
def Forgets (visit : Visit) (ret : Int32) (after : Space) : Prop :=
  ret = 0 ∧ (HeapBlock.read after visit.args).function = heapInfo

/-- The key that the reply names. -/
def replyKey (visit : Visit) (after : Space) : ObjectKey :=
  ⟨(HeapBlock.read after visit.args).root, (HeapBlock.read after visit.args).alloc.memory⟩

/-- A successful reply that is still one to an allocation charges what was reserved. -/
theorem verdict_charge (hheap : HeapRequest visit.minor visit.request visit.args) (hret : ret = 0)
    (hfunction : (HeapBlock.read after visit.args).function = heapAllocSize)
    (hstatus : (HeapBlock.read after visit.args).status = statusOk) :
    visit.verdict account (.reserved bytes) ret after = .charge (visit.replyKey after) bytes := by
  rw [verdict, if_pos hret]
  exact Account.settlement_charge hheap hfunction hstatus

/-- The answers that give a reservation back: the call failed, the allocation failed, or the reply
is of a kind that is not known. -/
theorem verdict_refund (hheap : HeapRequest visit.minor visit.request visit.args)
    (hinfo : ¬ visit.Forgets ret after)
    (hfailed : ret = 0 → (HeapBlock.read after visit.args).function = heapAllocSize →
      (HeapBlock.read after visit.args).status ≠ statusOk) :
    visit.verdict account (.reserved bytes) ret after = .refund bytes := by
  rw [verdict]
  by_cases hret : ret = 0
  · rw [if_pos hret]
    exact Account.settlement_refund hheap (fun hfunction => hinfo ⟨hret, hfunction⟩) (hfailed hret)
  · rw [if_neg hret]
    rfl

/-- A reply that is forgotten changes no entry and gives nothing back. -/
theorem book_verdict_of_forgets (hheap : HeapRequest visit.minor visit.request visit.args)
    (hforgets : visit.Forgets ret after) (admission : Admission) (ledger : Ledger) :
    ledger.book (visit.verdict account admission ret after) = (none, ledger) := by
  rw [verdict, if_pos hforgets.1]
  exact Account.book_settlement_info hheap admission hforgets.2 ledger

end Visit

namespace Holding

variable {held after : Holding} {key : ObjectKey} {bytes : UInt64}

/-- The reserved bytes were settled exactly once between two states: they are charged under `key` in
place of what stood there, or everything is as it was. -/
def SettledOnce (held after : Holding) (key : ObjectKey) (bytes : UInt64) : Prop :=
  (after.account.ledger.records.get? key = some bytes ∧
    (∀ other, other ≠ key →
      after.account.ledger.records.get? other = held.account.ledger.records.get? other) ∧
    after.budget.free.toNat + bytes.toNat =
      held.budget.free.toNat + owed (held.account.ledger.records.get? key)) ∨
  after = held

/-- The holding with bytes taken out of its budget. -/
def taking (held : Holding) (bytes : UInt64) : Holding :=
  { held with budget.free := held.budget.free - bytes }

/-- What was reserved is missing from what is free. -/
theorem free_taking (h : bytes ≤ held.budget.free) :
    (held.taking bytes).budget.free.toNat + bytes.toNat = held.budget.free.toNat := by
  have hsub := UInt64.toNat_sub_of_le _ _ h
  have hle := UInt64.le_iff_toNat_le.1 h
  simp only [taking]
  omega

/-- A charge settles a reservation once. -/
theorem settledOnce_charge (hcovered : held.Covered) (h : bytes ≤ held.budget.free)
    (alive : Int32 → Bool) (args : UInt64) (space : Space) :
    held.SettledOnce ((held.taking bytes).settle alive args space (.charge key bytes)).1 key
      bytes := by
  have htaking := free_taking h
  have hstale := held.account.ledger.owed_get?_le key
  rw [Covered] at hcovered
  have hroom : (held.taking bytes).budget.free.toNat +
      owed (held.account.ledger.records.get? key) ≤ (held.taking bytes).budget.total.toNat := by
    change _ ≤ held.budget.total.toNat
    omega
  rw [settle_eq]
  refine .inl ⟨?_, ?_, ?_⟩
  · exact (Ledger.records_get?_charge held.account.ledger key key bytes).trans (if_pos rfl)
  · intro other hother
    exact (Ledger.records_get?_charge held.account.ledger key other bytes).trans (if_neg hother)
  · have hfree := free_giveBack hroom
    change (giveBack (held.taking bytes).budget (held.account.ledger.records.get? key)).free.toNat +
      bytes.toNat = _
    omega

/-- Giving a reservation back undoes it. -/
theorem settle_refund_taking (hcovered : held.Covered) (h : bytes ≤ held.budget.free)
    (alive : Int32 → Bool) (args : UInt64) (space : Space) :
    ((held.taking bytes).settle alive args space (.refund bytes)).1 = held := by
  have htaking := free_taking h
  rw [Covered] at hcovered
  have hfree : ((held.taking bytes).budget.release bytes).free = held.budget.free := by
    rw [← UInt64.toNat_inj, Budget.toNat_release_of_le, htaking]
    change _ ≤ held.budget.total.toNat
    omega
  obtain ⟨⟨total, free, owner⟩, account⟩ := held
  simp only [settle, taking, Budget.release] at hfree ⊢
  rw [hfree]

/-- A reservation that is only taken is not settled. -/
theorem not_settledOnce_taking (h : bytes ≤ held.budget.free) (hbytes : bytes ≠ 0) :
    ¬ held.SettledOnce (held.taking bytes) key bytes := by
  have htaking := free_taking h
  have hpos : bytes.toNat ≠ 0 := fun hzero => hbytes (UInt64.toNat_inj.1 hzero)
  rintro (⟨hrecord, -, hfree⟩ | heq)
  · -- a record of these bytes can only be an old one, and replacing it would have freed as many
    have hold : held.account.ledger.records.get? key = some bytes := hrecord
    rw [hold, owed_some] at hfree
    omega
  · rw [heq] at htaking
    omega

theorem taking_zero (held : Holding) : held.taking 0 = held := by
  rw [taking, UInt64.sub_zero]

/-- A call that bytes are reserved for leaves them taken and settles the driver's answer. -/
theorem held_call {minor : UInt32} {request : Request} {args : UInt64} {space : Space}
    {budget : Budget}
    (hserve : held.budget.serve (held.account.demand minor request args space) =
        (.reserved bytes, budget)) (alive : Int32 → Bool) (driver : DriverCall) :
    (held.call alive driver minor request args space).held =
      some ((held.taking bytes).settle alive args (driver request.raw args space).2
        (Visit.verdict ⟨minor, request, args, space⟩ held.account (.reserved bytes)
          (driver request.raw args space).1 (driver request.raw args space).2)).1 := by
  obtain ⟨-, -, rfl⟩ := Budget.serve_eq_reserved_iff.1 hserve
  simp only [Holding.call, Account.admission_eq, hserve]
  rfl

/-- An answer that is no question for the totals settles the reservation. -/
theorem settledOnce_verdict {visit : Visit}
    (hheap : HeapRequest visit.minor visit.request visit.args) (hcovered : held.Covered)
    (h : bytes ≤ held.budget.free) {ret : Int32} {reply : Space}
    (hforgets : ¬ visit.Forgets ret reply) (alive : Int32 → Bool) :
    held.SettledOnce ((held.taking bytes).settle alive visit.args reply
      (visit.verdict held.account (.reserved bytes) ret reply)).1 (visit.replyKey reply) bytes := by
  by_cases hcharge : ret = 0 ∧ (HeapBlock.read reply visit.args).function = heapAllocSize ∧
      (HeapBlock.read reply visit.args).status = statusOk
  · obtain ⟨hret, hfunction, hstatus⟩ := hcharge
    rw [Visit.verdict_charge hheap hret hfunction hstatus]
    exact settledOnce_charge hcovered h alive _ _
  · rw [Visit.verdict_refund hheap hforgets fun hret hfunction hstatus =>
      hcharge ⟨hret, hfunction, hstatus⟩]
    exact .inr (settle_refund_taking hcovered h alive _ _)

/-- An answer that is one leaves the bytes taken. -/
theorem settle_verdict_of_forgets {visit : Visit}
    (hheap : HeapRequest visit.minor visit.request visit.args) {ret : Int32} {reply : Space}
    (hforgets : visit.Forgets ret reply) (alive : Int32 → Bool) :
    ((held.taking bytes).settle alive visit.args reply
      (visit.verdict held.account (.reserved bytes) ret reply)).1 = held.taking bytes := by
  rw [settle_eq]
  change (⟨giveBack _ (held.account.ledger.book _).1,
    { held.account with ledger := (held.account.ledger.book _).2 }⟩ : Holding) = _
  rw [Visit.book_verdict_of_forgets hheap hforgets]
  rfl

end Holding

namespace World

variable {ι τ : Type} [Fintype ι] [Fintype τ] [DecidableEq ι] [DecidableEq τ] {home : τ → ι}
  {conduct : Conduct} {total : UInt64} {world : World ι τ} {device : Option DeviceNumber}
  {raw args bytes : UInt64} {space : Space} {minor : UInt32}

/-- **Reserved bytes are settled exactly once**, whatever the driver answers, unless it makes the
reply a successful question for the totals: then they stay taken and are charged to nobody. -/
theorem Reachable.settledOnce_iff (h : Reachable home conduct total world) (i : ι)
    (hrelevant : relevantMinor? (.decode raw) device = some minor)
    (hreserved : ((world.account i).admission world.budget minor (.decode raw) args space).1 =
      .reserved bytes) (alive : Int32 → Bool) (driver : DriverCall) :
    let visit : Visit := ⟨minor, .decode raw, args, space⟩
    let ret := (driver raw args space).1
    let reply := (driver raw args space).2
    ∃ after, (intercept (some (world.holding i)) alive driver device raw args space).held =
        some after ∧
      ((world.holding i).SettledOnce after (visit.replyKey reply) bytes ↔
        ¬ (visit.Forgets ret reply ∧ bytes ≠ 0)) ∧
      (visit.Forgets ret reply → after = (world.holding i).taking bytes) := by
  intro visit ret reply
  have hcovered := h.solvent.covered i
  rcases hserve : world.budget.serve ((world.account i).demand minor (.decode raw) args space) with
    ⟨admission, budget⟩
  rw [Account.admission_eq, hserve] at hreserved
  obtain rfl : admission = .reserved bytes := hreserved
  obtain ⟨hdemand, hfits, -⟩ := Budget.serve_eq_reserved_iff.1 hserve
  obtain ⟨hheap, -, -, -⟩ := Account.demand_eq_some_iff.1 hdemand
  have hleft : visit.Forgets ret reply → (((world.holding i).taking bytes).settle alive args reply
      (visit.verdict (world.account i) (.reserved bytes) ret reply)).1 =
        (world.holding i).taking bytes := fun hforgets =>
    Holding.settle_verdict_of_forgets hheap hforgets alive
  refine ⟨(((world.holding i).taking bytes).settle alive args reply
    (visit.verdict (world.account i) (.reserved bytes) ret reply)).1, ?_, ?_, hleft⟩
  · simp only [intercept, hrelevant]
    exact Holding.held_call hserve alive driver
  constructor
  · rintro hsettled ⟨hforgets, hbytes⟩
    rw [hleft hforgets] at hsettled
    exact Holding.not_settledOnce_taking hfits hbytes hsettled
  · intro hsettles
    by_cases hforgets : visit.Forgets ret reply
    · -- forgetting no bytes is no loss
      obtain rfl : bytes = 0 := by_contra fun hbytes => hsettles ⟨hforgets, hbytes⟩
      exact .inr ((hleft hforgets).trans (Holding.taking_zero _))
    · exact Holding.settledOnce_verdict hheap hcovered hfits hforgets alive

/-- A driver that allocates under handle 7 settles the reservation. -/
theorem settledOnce_of_allocated :
    let world : World Unit Unit := .fresh 65536 1 fun _ => ⟨0, 65536⟩
    let visit := Visit.allocation 8 4096
    let script : Script := { kind := some .heap, total := 0, free := 0, memory := some 7 }
    ∃ after, (intercept (some (world.holding ())) (fun _ => true) script.driver
        (some (deviceMajor, controlMinor)) visit.request.raw visit.args visit.space).held =
          some after ∧
      (world.holding ()).SettledOnce after ⟨0, 7⟩ 4096 := by
  intro world visit script
  have hreach : Reachable id Visit.KeepsFunction 65536 world := .fresh 1 fun _ => ⟨0, 65536⟩
  have hrelevant : relevantMinor? (.decode visit.request.raw) (some (deviceMajor, controlMinor)) =
      some controlMinor := by decide
  have hreserved : ((world.account ()).admission world.budget controlMinor
      (.decode visit.request.raw) visit.args visit.space).1 = .reserved 4096 := by decide
  obtain ⟨after, hafter, hiff, -⟩ :=
    hreach.settledOnce_iff () hrelevant hreserved (fun _ => true) script.driver
  refine ⟨after, hafter, ?_⟩
  have hkey : Visit.replyKey ⟨controlMinor, .decode visit.request.raw, visit.args, visit.space⟩
      (script.driver visit.request.raw visit.args visit.space).2 = ⟨0, 7⟩ := by decide
  rw [← hkey]
  refine hiff.2 ?_
  rintro ⟨⟨-, hfunction⟩, -⟩
  revert hfunction
  decide

/-- A driver that turns the allocation into a question for the totals makes it forgotten. -/
theorem not_settledOnce_of_totals :
    let held : Holding := ⟨.full 65536 1, ⟨⟨0, 65536⟩, .empty⟩⟩
    let visit := Visit.allocation 8 4096
    let script : Script := { kind := some .heap, total := 0, free := 0, function := some heapInfo }
    (held.account.admission held.budget controlMinor visit.request visit.args visit.space).1 =
        .reserved 4096 ∧
      ∃ after, (intercept (some held) (fun _ => true) script.driver
          (some (deviceMajor, controlMinor)) visit.request.raw visit.args visit.space).held =
            some after ∧
        ∀ key, ¬ held.SettledOnce after key 4096 := by
  intro held visit script
  have hserve : held.budget.serve (held.account.demand controlMinor (.decode visit.request.raw)
      visit.args visit.space) = (.reserved 4096, ⟨65536, 61440, 1⟩) := by decide
  have hheap : HeapRequest controlMinor (.decode visit.request.raw) visit.args :=
    ⟨by decide, by decide, by decide⟩
  have hforgets : Visit.Forgets ⟨controlMinor, .decode visit.request.raw, visit.args, visit.space⟩
      (script.driver visit.request.raw visit.args visit.space).1
      (script.driver visit.request.raw visit.args visit.space).2 := ⟨by decide, by decide⟩
  refine ⟨by decide, held.taking 4096, ?_, ?_⟩
  · have hrelevant : relevantMinor? (.decode visit.request.raw) (some (deviceMajor, controlMinor)) =
        some controlMinor := by decide
    simp only [intercept, hrelevant]
    rw [Holding.held_call hserve]
    exact congrArg some (Holding.settle_verdict_of_forgets hheap hforgets _)
  · intro key
    exact Holding.not_settledOnce_taking (by decide) (by decide)

end World

end GpuQuota.Accounting
