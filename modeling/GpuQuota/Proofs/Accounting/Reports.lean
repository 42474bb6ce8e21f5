import GpuQuota.Proofs.Accounting.Conservation
import GpuQuota.Proofs.Accounting.Transparency
import GpuQuota.Proofs.Driver.Figures

/-!
# All questions for memory get one answer

A process asks for its memory in three ways: for the totals of the heap, in bytes, and for a list of
figures, in kibibytes, which either stands elsewhere or inside the parameters. All three answers are
of the one ceiling and the one number of free bytes. A question takes nothing and notes nothing.

* `Exchange.Carries`: the lists that parameters carry, in either form.
* `Holding.Tells.outcome_eq`, `Holding.Lists.outcome_eq`: what comes of a question.
* `Holding.Lists.entries_outcome`: a list comes back as a quota has it.
* `World.Reachable.questions_agree`: the result.
-/

namespace GpuQuota.Accounting

open GpuQuota.Driver GpuQuota.Settings

/-! ## Lists

A figure is told by its index, and where a list has several entries of one index each of them shows
it. -/

/-- A control request carries a list of figures that has room where it stands. -/
inductive Exchange.Carries (x : Exchange) : InfoList → Prop where
  /-- The parameters tell where the list stands. -/
  | pointed {head : InfoHead} : x.command.command = infoByPointer →
      InfoHead.decode? x.left x.command.params x.command.paramsSize.toNat = some head →
      head.list ≠ 0 → head.list.toNat % InfoEntry.layout.align = 0 →
      Carries x ⟨head.list, head.count.toNat⟩
  /-- The list stands inside the parameters, behind its length, and all of it does. -/
  | within : x.command.command = infoInline →
      InfoList.countLayout.fits x.command.params x.command.paramsSize.toNat = true →
      4 + 8 * (x.left.word32 x.command.params).toNat ≤ x.command.paramsSize.toNat →
      Carries x ⟨x.command.params + 4, (x.left.word32 x.command.params).toNat⟩

theorem Exchange.Carries.figures? {x : Exchange} {list : InfoList} (h : x.Carries list) :
    figures? x.left x.command = some list := by
  cases h with
  | pointed hcommand hhead hnull halign =>
    rw [Accounting.figures?, if_pos hcommand, InfoList.pointed?, hhead]
    exact if_pos ⟨hnull, halign⟩
  | within hcommand hfits hroom =>
    have hpointer : infoInline ≠ infoByPointer := by decide
    have hcapacity : (x.left.word32 x.command.params).toNat ≤
        (x.command.paramsSize.toNat - InfoList.countLayout.size) / InfoEntry.layout.size := by
      change _ ≤ (x.command.paramsSize.toNat - 4) / 8
      omega
    rw [Accounting.figures?, hcommand, if_neg hpointer, if_pos rfl, InfoList.inline?, if_pos hfits]
    dsimp only
    rw [Nat.min_eq_left hcapacity]

/-- No list is longer than its length word can tell. -/
theorem count_lt_of_figures? {space : Space} {block : ControlBlock} {list : InfoList}
    (h : figures? space block = some list) : list.count < 2 ^ 32 := by
  rw [figures?] at h
  split at h
  · rw [InfoList.pointed?, Option.bind_eq_bind, Option.bind_eq_some_iff] at h
    obtain ⟨head, -, hlist⟩ := h
    obtain ⟨-, hlist⟩ := Option.ite_none_right_eq_some.1 hlist
    obtain rfl := Option.some.inj hlist
    exact head.count.toNat_lt
  · obtain ⟨-, hlist⟩ := Option.ite_none_right_eq_some.1 h
    obtain ⟨-, hlist⟩ := Option.ite_none_right_eq_some.1 hlist
    obtain rfl := Option.some.inj hlist
    exact Nat.lt_of_le_of_lt (Nat.min_le_left _ _) (UInt32.toNat_lt _)

/-! ## Questions

There are three ways to ask for the same two numbers: a heap request, a list behind a pointer and a
list inline. Each answer is compared with the budget, not with the others. -/

namespace Holding

variable {held : Holding} {x : Exchange} {list : InfoList}

/-- The driver answers a control request to an object that the quota applies to. -/
structure Answers (held : Holding) (x : Exchange) : Prop where
  onControl : x.OnControl controlNumber
  fits : ControlBlock.layout.fits x.args x.request.size = true
  /-- The driver took the call. -/
  ret : x.ret = 0
  /-- The object did what the command says. -/
  status : x.command.status = statusOk
  governs : held.account.governs ⟨x.command.client, x.command.object⟩ = true

theorem Answers.lists (h : held.Answers x) (hcarries : x.Carries list) : held.Lists x list :=
  ⟨h.onControl, h.fits, h.ret, h.status, h.governs, hcarries.figures?⟩

/-- A call that asks for no bytes is the driver's, and then settled. -/
theorem outcome_of_not_demands (hrelevant : relevantMinor? x.request x.device = some controlMinor)
    (hdemands : ¬ held.Demands x) :
    held.outcome x = ⟨x.ret, (held.settle x.alive x.args x.left (held.verdict x)).2,
      [⟨x.raw, x.args, x.space⟩], some (held.settle x.alive x.args x.left (held.verdict x)).1,
      []⟩ := by
  have hdemand := demand_eq_none hrelevant hdemands
  rw [verdict_of_no_demand hrelevant hdemand]
  rw [Exchange.request] at hrelevant hdemand
  simp only [outcome, intercept, hrelevant, call, Account.admission_eq, hdemand, Budget.serve]
  rfl

/-- The answer to a question for the totals. -/
theorem Tells.outcome_eq (h : held.Tells x) (hasks : x.ask.function = heapInfo) :
    held.outcome x = ⟨x.ret, HeapBlock.setTotals x.left x.args held.budget.total
      (held.budget.reportedFree x.alive), [⟨x.raw, x.args, x.space⟩], some held, []⟩ := by
  have hrelevant := h.onControl.relevant (by decide)
  have hdemands : ¬ held.Demands x := fun hdemands =>
    absurd (hasks.symm.trans hdemands.function) (by decide)
  have hother : x.reply.function ≠ heapAllocSize := by
    rw [h.function]
    decide
  have hverdict : held.verdict x = .showTotals := by
    rw [verdict_of_not_demands hrelevant hdemands, if_pos h.ret,
      Account.settlement_heap ⟨rfl, h.onControl.number, h.fits⟩]
    change held.account.settleHeap x.reply .passthrough = _
    unfold Account.settleHeap
    rw [if_neg hother, if_pos h.function]
    exact if_pos ⟨h.status, h.governs⟩
  rw [outcome_of_not_demands hrelevant hdemands, hverdict]
  rfl

/-- The answer to a control request: the list that it asks for is rewritten, if there is one. -/
theorem Answers.outcome_eq (h : held.Answers x) :
    held.outcome x = ⟨x.ret, (figures? x.left x.command).elim x.left fun list =>
      list.rewrite x.left held.budget.total (held.budget.reportedFree x.alive),
      [⟨x.raw, x.args, x.space⟩], some held, []⟩ := by
  have hrelevant := h.onControl.relevant (by decide)
  have hdemands : ¬ held.Demands x := not_demands h.onControl (by decide)
  have hverdict : held.verdict x =
      (figures? x.left x.command).elim .nothing .showFigures := by
    rw [verdict_of_not_demands hrelevant hdemands, if_pos h.ret,
      Account.settlement_control h.onControl.number h.fits]
    change held.account.settleControl x.left x.command = _
    rw [Account.settleControl_eq, if_pos ⟨h.status, h.governs⟩]
  rw [outcome_of_not_demands hrelevant hdemands, hverdict]
  rcases figures? x.left x.command with _ | list
  · rfl
  · rfl

/-- The answer to a question for figures. -/
theorem Lists.outcome_eq (h : held.Lists x list) :
    held.outcome x = ⟨x.ret, list.rewrite x.left held.budget.total
      (held.budget.reportedFree x.alive), [⟨x.raw, x.args, x.space⟩], some held, []⟩ := by
  have hanswers : held.Answers x := ⟨h.onControl, h.fits, h.ret, h.status, h.governs⟩
  rw [hanswers.outcome_eq, h.figures, Option.elim_some]

/-- **A list comes back as a quota has it.** -/
theorem Lists.entries_outcome (h : held.Lists x list) :
    list.entries (held.outcome x).space = (list.entries x.left).map
      (InfoEntry.shown held.budget.total (held.budget.reportedFree x.alive)) := by
  have hcount := count_lt_of_figures? h.figures
  have hsize : UInt64.size = 2 ^ 64 := rfl
  rw [h.outcome_eq]
  exact InfoList.entries_rewrite (by omega)

end Holding

/-! ## The result -/

theorem Budget.reportedFree_eq (budget : Budget) (alive : Int32 → Bool) :
    budget.reportedFree alive =
      if budget.owner = 0 ∨ alive budget.owner = true then budget.free else budget.total := by
  rw [reportedFree]
  by_cases howner : budget.owner = 0
  · simp [howner]
  · cases alive budget.owner <;> simp [howner]

namespace World

variable {ι τ : Type} [Fintype ι] [Fintype τ] [DecidableEq ι] [DecidableEq τ]
  {home : τ → ι} {conduct : Conduct} {total : UInt64} {world : World ι τ}

/-- What is free never exceeds the ceiling, whatever the driver does. -/
theorem Reachable.free_le (h : Reachable home conduct total world) : world.budget.free ≤ total := by
  have hworth := h.solvent.worth_le
  rw [worth] at hworth
  rw [UInt64.le_iff_toNat_le]
  omega

/-- **All questions for memory get one answer**, in any state that processes can come to, of which
`free` bytes of `total` are reported free: what the budget has where its owner lives or there is
none, and everything where the owner is dead. The totals of the heap are these two numbers; an entry
of a list, in whatever form it is handed over, becomes the one that a quota has; lists of the same
entries become the same; and never is more free than there is. No question changes what a process
holds. -/
theorem Reachable.questions_agree (h : Reachable home conduct total world) (i : ι)
    (alive : Int32 → Bool) :
    let held := world.holding i
    let free :=
      if world.budget.owner = 0 ∨ alive world.budget.owner = true then world.budget.free else total
    (free ≤ total ∧ kib free ≤ kib total) ∧
    (∀ x : Exchange, x.alive = alive → held.Tells x → x.ask.function = heapInfo →
      (held.outcome x).held = some held ∧
      HeapBlock.read (held.outcome x).space x.args = { x.reply with total, free }) ∧
    (∀ (x : Exchange) list, x.alive = alive → held.Lists x list →
      (held.outcome x).held = some held ∧
      list.entries (held.outcome x).space =
        (list.entries x.left).map (InfoEntry.shown total free)) ∧
    (∀ (x : Exchange) list, held.Answers x → x.Carries list → held.Lists x list) ∧
    ∀ (x y : Exchange) pointed within, x.alive = alive → y.alive = alive →
      held.Lists x pointed → held.Lists y within →
      pointed.entries x.left = within.entries y.left →
      pointed.entries (held.outcome x).space = within.entries (held.outcome y).space := by
  intro held free
  have htotal : held.budget.total = total := h.solvent.total_eq
  have hfree : held.budget.reportedFree alive = free := by
    rw [Budget.reportedFree_eq, htotal]
    rfl
  have hle : free ≤ total := by
    dsimp only [free]
    split
    · exact h.free_le
    · exact UInt64.le_refl total
  -- a list is answered with the two numbers, wherever it stands
  have hentries : ∀ (x : Exchange) list, x.alive = alive → held.Lists x list →
      list.entries (held.outcome x).space =
        (list.entries x.left).map (InfoEntry.shown total free) := by
    rintro x list rfl hlists
    rw [hlists.entries_outcome, htotal, hfree]
  refine ⟨⟨hle, kib_le_kib hle⟩, ?_, ?_, fun x list hanswers => hanswers.lists, ?_⟩
  · rintro x rfl htells hasks
    rw [htells.outcome_eq hasks, HeapBlock.read_setTotals, htotal, hfree]
    exact ⟨rfl, rfl⟩
  · intro x list halive hlists
    refine ⟨?_, hentries x list halive hlists⟩
    rw [hlists.outcome_eq]
  · intro x y pointed within hx hy hpointed hwithin hsame
    rw [hentries x pointed hx hpointed, hentries y within hy hwithin, hsame]

omit [Fintype ι] [Fintype τ] in
/-- A thread in no call reserves what it demands. -/
theorem Reachable.grant (h : Reachable home conduct total world) {t : τ}
    (hidle : world.phase t = .idle) (device : Option DeviceNumber) (raw args : UInt64)
    (space : Space) {minor : UInt32} (hminor : relevantMinor? (.decode raw) device = some minor)
    {bytes : UInt64}
    (hdemand : (world.account (home t)).demand minor (.decode raw) args space = some bytes)
    (hfits : bytes ≤ world.budget.free) :
    Reachable home conduct total (world.put (home t) t
      { world.holding (home t) with
        budget := { world.budget with free := world.budget.free - bytes } }
      (.away ⟨minor, .decode raw, args, space⟩ (.reserved bytes))) := by
  have henter : Move conduct (world.holding (home t)) (world.phase t) (world.holding (home t))
      (.asking ⟨minor, .decode raw, args, space⟩ (some bytes)) := by
    rw [hidle, ← hdemand]
    exact .enter device raw args space hminor
  have hgrant : Move conduct (world.holding (home t))
      (.asking ⟨minor, .decode raw, args, space⟩ (some bytes))
      { world.holding (home t) with
        budget := { world.budget with free := world.budget.free - bytes } }
      (.away ⟨minor, .decode raw, args, space⟩ (.reserved bytes)) :=
    .grant (Budget.serve_eq_reserved_iff.2 ⟨rfl, hfits, rfl⟩) fun _ _ heq => nomatch heq
  have hentered := h.step (.move t henter)
  have hgranted := hentered.step (.move t (by rwa [holding_put, phase_put]))
  rwa [put_put] at hgranted

/-- Three entries inside the parameters, while 4 of 64 KiB are reserved for another call. -/
theorem Reachable.questions_agree_granted :
    let block : ControlBlock := ⟨1, 2, infoInline, 0, 0x2000, 36, statusOk⟩
    let asked : List InfoEntry := [⟨heapFreeIndex, 0⟩, ⟨1, 5⟩, ⟨totalRamIndex, 0⟩]
    let x : Exchange := {
      device := some (deviceMajor, controlMinor)
      raw := (Request.readWrite controlNumber 32).raw
      args := 0x1000
      space := InfoList.write ((block.write .blank 0x1000).setWord32 0x2000 3) 0x2004 asked
      driver := fun _ _ space => (0, space)
      alive := fun _ => true }
    ∃ world : World (Fin 1) (Fin 1), Reachable id Visit.KeepsFunction 65536 world ∧
      world.budget.free = 61440 ∧
      InfoList.entries ⟨0x2004, 3⟩ ((world.holding 0).outcome x).space =
        [⟨heapFreeIndex, 60⟩, ⟨1, 5⟩, ⟨totalRamIndex, 64⟩] := by
  intro block asked x
  let visit := Visit.allocation 8 4096
  have hfresh : Reachable id Visit.KeepsFunction 65536 (_ : World (Fin 1) (Fin 1)) :=
    .fresh 1 fun _ => ⟨0, 65536⟩
  have hdemand : (⟨⟨0, 65536⟩, .empty⟩ : Account).demand controlMinor (.decode visit.request.raw)
      visit.args visit.space = some 4096 := by decide
  have hreach := hfresh.grant (t := 0) rfl (some (deviceMajor, controlMinor)) visit.request.raw
    visit.args visit.space (by decide) hdemand (by decide)
  have hanswers : Holding.Answers ⟨⟨65536, 61440, 1⟩, ⟨⟨0, 65536⟩, .empty⟩⟩ x :=
    ⟨⟨rfl, by decide, by decide⟩, by decide, rfl, by decide +kernel, by decide +kernel⟩
  have hcarries : x.Carries ⟨0x2004, 3⟩ := by
    have hcount : x.left.word32 0x2000 = 3 := by decide +kernel
    have hcarries : x.Carries ⟨x.command.params + 4, (x.left.word32 x.command.params).toNat⟩ :=
      .within (by decide +kernel) (by decide +kernel) (by decide +kernel)
    rwa [show x.command.params = 0x2000 by decide +kernel, hcount] at hcarries
  have hentries : InfoList.entries ⟨0x2004, 3⟩ x.left = asked := by decide +kernel
  obtain ⟨-, -, hlists, hcarried, -⟩ := hreach.questions_agree 0 fun _ => true
  refine ⟨_, hreach, rfl, ?_⟩
  rw [(hlists x _ rfl (hcarried x _ hanswers hcarries)).2, hentries]
  decide

end World

end GpuQuota.Accounting
