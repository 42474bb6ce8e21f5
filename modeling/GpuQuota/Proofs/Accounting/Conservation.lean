import GpuQuota.Proofs.Accounting.Interleaving
import Mathlib.Algebra.BigOperators.Group.Finset.Basic
import Mathlib.Algebra.BigOperators.Group.Finset.Piecewise
import Mathlib.Algebra.Order.BigOperators.Group.Finset

/-!
# No byte is lost between threads

At any moment the bytes of a budget are in four places: still free, recorded in a ledger, reserved
for a call that is not settled, or owed by a call that has not released them. `World.worth` is what
the four hold together.

One step of a thread keeps the worth (`Move.worth_eq`), with one exception: a driver may turn an
allocation into a question for the totals, and the reservation of such a call is forgotten when its
answer is looked at. So:

* `World.Reachable.solvent`: whatever the driver does, the worth never exceeds the ceiling, and
  every ledger's running sum is right;
* `World.Reachable.conserved`: with a driver that leaves the function word alone, the worth is the
  ceiling, no release runs into it, and what is charged stays below it.
-/

namespace GpuQuota.Accounting

open GpuQuota.Driver GpuQuota.Settings

/-! ## What a thread has under way

What a phase holds is said without the budget and the ledger, so that a step of one thread shows
where the bytes go: into the phase, out of it, or into a ledger. -/

namespace Phase

/-- The bytes that are reserved for a call and not settled. -/
def reserved : Phase → ℕ
  | .away _ admission => admission.bytes
  | .back _ admission _ _ => admission.bytes
  | .settling settlement => settlement.inHand
  | _ => 0

/-- The bytes that are on their way back to the budget. -/
def owed : Phase → ℕ
  | .crediting bytes => Accounting.owed bytes
  | _ => 0

/-- Looking at the answer loses nothing. -/
def Settles : Phase → Prop
  | .back visit admission ret after => ∀ account : Account,
      (visit.verdict account admission ret after).inHand = admission.bytes
  | _ => True

/-- Bytes are under way for allocations only, and the driver keeps these what they are. -/
def Sound : Phase → Prop
  | .asking visit demand => demand ≠ none → visit.IsAllocation
  | .away visit admission => admission.bytes ≠ 0 → visit.IsAllocation
  | .back visit admission ret after =>
      visit.KeepsFunction ret after ∧ (admission.bytes ≠ 0 → visit.IsAllocation)
  | _ => True

end Phase

namespace Visit

/-- An answer settles no more than was reserved. -/
theorem inHand_verdict_le (visit : Visit) (account : Account) (admission : Admission) (ret : Int32)
    (after : Space) : (visit.verdict account admission ret after).inHand ≤ admission.bytes := by
  rw [verdict]
  split
  · exact Account.inHand_settlement_le admission
  · exact Nat.le_of_eq (Account.inHand_refund admission)

/-- The answer to an allocation that stays one settles all that was reserved. -/
theorem inHand_verdict_eq {visit : Visit} (halloc : visit.IsAllocation) {ret : Int32}
    {after : Space} (hkeeps : visit.KeepsFunction ret after) (account : Account)
    (admission : Admission) :
    (visit.verdict account admission ret after).inHand = admission.bytes := by
  obtain ⟨hheap, hfunction⟩ := halloc
  cases admission with
  | reserved bytes =>
    rw [verdict]
    split
    · refine Account.inHand_settlement_eq hheap ?_
      rw [hkeeps hheap, hfunction]
      decide
    · exact Account.inHand_refund _
  | passthrough => exact Nat.le_zero.1 (inHand_verdict_le visit account _ ret after)
  | rejected bytes free => exact Nat.le_zero.1 (inHand_verdict_le visit account _ ret after)

end Visit

/-- With such a driver, looking at an answer loses nothing. -/
theorem Phase.Sound.settles {phase : Phase} (h : phase.Sound) : phase.Settles := by
  cases phase with
  | back visit admission ret after =>
    intro account
    obtain ⟨hkeeps, halloc⟩ := h
    by_cases hbytes : admission.bytes = 0
    · have hle := visit.inHand_verdict_le account admission ret after
      omega
    · exact Visit.inHand_verdict_eq (halloc hbytes) hkeeps account admission
  | _ => trivial

/-! ## One step

A thread changes its own phase, the ledger of its process and the budget, so the sum that one step
is judged by is over these three. `hroom` is needed for a release only: there the counter must have
room for what comes back. -/

/-- The bytes of a budget that one process and one of its threads know of. -/
def Holding.worth (held : Holding) (phase : Phase) : ℕ :=
  held.budget.free.toNat + held.account.ledger.recorded + phase.reserved + phase.owed

namespace Move

variable {conduct : Conduct} {held after : Holding} {phase turn : Phase}

theorem total_eq (h : Move conduct held phase after turn) :
    after.budget.total = held.budget.total := by
  cases h with
  | @reject visit demand bytes free budget hserve =>
    have htotal := held.budget.total_serve demand
    rw [hserve] at htotal
    exact htotal
  | @grant visit demand admission budget hserve =>
    have htotal := held.budget.total_serve demand
    rw [hserve] at htotal
    exact htotal
  | release => exact Holding.total_giveBack _ _
  | _ => rfl

/-- **A step moves bytes from one place to another**, unless it looks at an answer that loses
some. -/
theorem worth_eq (h : Move conduct held phase after turn)
    (hroom : held.worth phase ≤ held.budget.total.toNat) (hsettles : phase.Settles) :
    after.worth turn = held.worth phase := by
  simp only [Holding.worth] at hroom ⊢
  cases h with
  | handOn => rfl
  | enter => rfl
  | @reject visit demand bytes free budget hserve =>
    have hfree := held.budget.free_serve demand
    rw [hserve] at hfree
    simp only [Phase.reserved, Phase.owed, Admission.bytes] at hfree ⊢
    omega
  | @grant visit demand admission budget hserve =>
    have hfree := held.budget.free_serve demand
    rw [hserve] at hfree
    simp only [Phase.reserved, Phase.owed] at hfree ⊢
    omega
  | answer => rfl
  | @judge visit admission ret space =>
    have hinHand := hsettles held.account
    simp only [Phase.reserved, Phase.owed] at hinHand ⊢
    omega
  | @book settlement =>
    have hbook := held.account.ledger.recorded_book settlement
    simp only [Phase.reserved, Phase.owed] at hbook ⊢
    omega
  | @release bytes =>
    -- the one place where the room is needed: without it the release would saturate
    simp only [Phase.reserved, Phase.owed] at hroom ⊢
    rw [Holding.free_giveBack (by omega)]
    omega

/-- No step makes bytes. -/
theorem worth_le (h : Move conduct held phase after turn)
    (hroom : held.worth phase ≤ held.budget.total.toNat) : after.worth turn ≤ held.worth phase := by
  cases phase with
  | back visit admission ret space =>
    -- a thread that has its answer can only look at it
    cases h
    have hinHand := visit.inHand_verdict_le held.account admission ret space
    simp only [Holding.worth, Phase.reserved, Phase.owed]
    omega
  | _ => exact Nat.le_of_eq (h.worth_eq hroom trivial)

/-- A running sum stays right, since everything recorded fits a word. -/
theorem tallied (h : Move conduct held phase after turn)
    (hroom : held.worth phase ≤ held.budget.total.toNat)
    (htallied : held.account.ledger.Tallied) : after.account.ledger.Tallied := by
  cases h with
  | @book settlement =>
    refine htallied.book ?_
    have htotal : held.budget.total.toNat < UInt64.size := held.budget.total.toNat_lt
    simp only [Holding.worth, Phase.reserved, Phase.owed] at hroom
    omega
  | _ => exact htallied

/-- Where the driver keeps the function word, bytes stay under way for allocations only. -/
theorem sound (h : Move Visit.KeepsFunction held phase after turn) (hsound : phase.Sound) :
    turn.Sound := by
  cases h with
  | @enter minor device raw args space hminor =>
    intro hdemand
    obtain ⟨bytes, hbytes⟩ := Option.ne_none_iff_exists'.1 hdemand
    obtain ⟨hheap, hfunction, -, -⟩ := Account.demand_eq_some_iff.1 hbytes
    exact ⟨hheap, hfunction⟩
  | @grant visit demand admission budget hserve hpass =>
    intro hbytes
    refine hsound ?_
    -- nothing is reserved where nothing is demanded
    rintro rfl
    obtain ⟨rfl, -⟩ := Prod.mk.inj hserve
    exact hbytes rfl
  | answer ret space hkeeps => exact ⟨hkeeps, hsound⟩
  | _ => trivial

end Move

/-- A thread that has the whole budget for itself: nothing is lost, and the running sum is right. -/
structure Holding.Balanced (total : UInt64) (held : Holding) (phase : Phase) : Prop where
  total_eq : held.budget.total = total
  /-- What is free, charged and under way makes up the total. -/
  worth_eq : held.worth phase = total.toNat
  /-- The running sum is the sum of the records. -/
  tallied : held.account.ledger.Tallied
  /-- Bytes are under way for allocations only, which the driver keeps what they are. -/
  sound : phase.Sound

/-- A thread that is alone loses nothing by a step. -/
theorem Holding.Balanced.move {total : UInt64} {held after : Holding} {phase turn : Phase}
    (h : held.Balanced total phase) (hmove : Move Visit.KeepsFunction held phase after turn) :
    after.Balanced total turn := by
  obtain ⟨htotal, hworth, htallied, hsound⟩ := h
  have hroom : held.worth phase ≤ held.budget.total.toNat := by
    rw [hworth, htotal]
  refine ⟨hmove.total_eq.trans htotal, ?_, hmove.tallied hroom htallied, hmove.sound hsound⟩
  rw [hmove.worth_eq hroom hsound.settles, hworth]

/-- **A thread that is alone loses nothing**, however far it gets. -/
theorem Moves.balanced {total : UInt64} {start finish : Holding × Phase}
    (h : Moves Visit.KeepsFunction start finish) (hstart : start.1.Balanced total start.2) :
    finish.1.Balanced total finish.2 := by
  induction h with
  | refl => exact hstart
  | tail _ hmove ih => exact ih.move hmove

/-! ## All threads

In the sum over all processes and threads a step exchanges one process and one thread, and
everything else is left (`worth_put`). -/

/-- A sum over a family in which one member is exchanged. -/
theorem sum_update {ι α : Type} [Fintype ι] [DecidableEq ι] (size : α → ℕ) (family : ι → α) (i : ι)
    (member : α) :
    ∑ j, size (Function.update family i member j) + size (family i) =
      ∑ j, size (family j) + size member := by
  have hcomp : ∀ j, size (Function.update family i member j) =
      Function.update (fun j => size (family j)) i (size member) j := fun j =>
    (Function.apply_update (fun _ => size) family i member j)
  simp only [hcomp]
  rw [Finset.sum_update_of_mem (Finset.mem_univ i), Finset.sdiff_singleton_eq_erase,
    ← Finset.add_sum_erase Finset.univ (fun j => size (family j)) (Finset.mem_univ i)]
  omega

theorem le_sum {ι α : Type} [Fintype ι] (size : α → ℕ) (family : ι → α) (i : ι) :
    size (family i) ≤ ∑ j, size (family j) :=
  Finset.single_le_sum (fun j _ => Nat.zero_le (size (family j))) (Finset.mem_univ i)

namespace World

variable {ι τ : Type} [Fintype ι] [Fintype τ]

/-- What the four places hold together. -/
def worth (world : World ι τ) : ℕ :=
  world.budget.free.toNat + ∑ i, (world.account i).ledger.recorded +
    ∑ t, (world.phase t).reserved + ∑ t, (world.phase t).owed

/-- The worth of a world changes by what changes for the one thread that moves. -/
theorem worth_put [DecidableEq ι] [DecidableEq τ] (world : World ι τ) (i : ι) (t : τ)
    (held : Holding) (phase : Phase) :
    (world.put i t held phase).worth + (world.holding i).worth (world.phase t) =
      world.worth + held.worth phase := by
  have hrecorded := sum_update (fun account : Account => account.ledger.recorded) world.account i
    held.account
  have hreserved := sum_update Phase.reserved world.phase t phase
  have howed := sum_update Phase.owed world.phase t phase
  simp only [worth, Holding.worth, put, holding]
  omega

/-- One thread knows of no more than there is. -/
theorem worth_holding_le (world : World ι τ) (i : ι) (t : τ) :
    (world.holding i).worth (world.phase t) ≤ world.worth := by
  have hrecorded := le_sum (fun account : Account => account.ledger.recorded) world.account i
  have hreserved := le_sum Phase.reserved world.phase t
  have howed := le_sum Phase.owed world.phase t
  simp only [worth, Holding.worth, holding]
  omega

/-- The budget covers everything that is under way, and every running sum is right. -/
structure Solvent (total : UInt64) (world : World ι τ) : Prop where
  total_eq : world.budget.total = total
  /-- What is free, charged and under way is no more than the total. -/
  worth_le : world.worth ≤ total.toNat
  /-- In every process the running sum is the sum of the records. -/
  tallied : ∀ i, (world.account i).ledger.Tallied

variable {home : τ → ι} {conduct : Conduct} {total : UInt64} {world next : World ι τ}

theorem worth_fresh (total : UInt64) (owner : Int32) (quota : ι → MemoryQuota) :
    (fresh total owner quota : World ι τ).worth = total.toNat := by
  simp only [worth, fresh, Budget.full, Ledger.recorded_empty, Phase.reserved, Phase.owed,
    Finset.sum_const_zero, Nat.add_zero]

theorem solvent_fresh (total : UInt64) (owner : Int32) (quota : ι → MemoryQuota) :
    Solvent total (fresh total owner quota : World ι τ) where
  total_eq := rfl
  worth_le := Nat.le_of_eq (worth_fresh total owner quota)
  tallied _ := Ledger.tallied_empty

/-- What is free and what a process has recorded fit below the ceiling. -/
theorem Solvent.covered (h : Solvent total world) (i : ι) : (world.holding i).Covered := by
  have hrecorded := le_sum (fun account : Account => account.ledger.recorded) world.account i
  have hworth := h.worth_le
  rw [← h.total_eq] at hworth
  simp only [worth, Holding.Covered, holding] at hworth ⊢
  omega

/-- What one thread knows of fits below the ceiling. -/
theorem Solvent.room (h : Solvent total world) (i : ι) (t : τ) :
    (world.holding i).worth (world.phase t) ≤ (world.holding i).budget.total.toNat := by
  have hworth := world.worth_holding_le i t
  have htotal : (world.holding i).budget.total = total := h.total_eq
  rw [htotal]
  exact Nat.le_trans hworth h.worth_le

variable [DecidableEq ι] [DecidableEq τ]

/-- Every step leaves the budget large enough. -/
theorem Solvent.step (h : Solvent total world) (hstep : Step home conduct world next) :
    Solvent total next := by
  obtain ⟨t, hmove⟩ := hstep
  rename_i held phase
  have hroom := h.room (home t) t
  refine ⟨hmove.total_eq.trans h.total_eq, ?_, ?_⟩
  · have hput := world.worth_put (home t) t held phase
    have hle := hmove.worth_le hroom
    have hworth := h.worth_le
    omega
  · intro i
    by_cases hi : i = home t
    · subst hi
      rw [account_put]
      exact hmove.tallied hroom (h.tallied _)
    · rw [account_put_of_ne world hi]
      exact h.tallied i

/-- **No byte comes from nowhere**, whatever the driver does. -/
theorem Reachable.solvent (h : Reachable home conduct total world) : Solvent total world := by
  induction h with
  | fresh owner quota => exact solvent_fresh total owner quota
  | step _ hstep ih => exact ih.step hstep

/-! ## With a driver that keeps the function word

The only place where bytes can be lost is the look at an answer. Nothing is lost there if bytes are
reserved for allocations only, which the request says, and if they come back as allocations, which
the driver has in hand. -/

omit [Fintype ι] [Fintype τ] in
/-- Whatever comes about, bytes are under way for allocations only. -/
theorem Reachable.sound (h : Reachable home Visit.KeepsFunction total world) (t : τ) :
    (world.phase t).Sound := by
  induction h with
  | fresh => trivial
  | step _ hstep ih =>
    obtain ⟨mover, hmove⟩ := hstep
    by_cases ht : t = mover
    · subst ht
      rw [phase_put]
      exact hmove.sound ih
    · rw [phase_put_of_ne _ _ ht]
      exact ih

/-- Whatever comes about, the four places hold the ceiling together. -/
theorem Reachable.worth_eq (h : Reachable home Visit.KeepsFunction total world) :
    world.worth = total.toNat := by
  induction h with
  | fresh owner quota => exact worth_fresh total owner quota
  | step hreach hstep ih =>
    obtain ⟨t, hmove⟩ := hstep
    rename_i world held phase
    have hput := world.worth_put (home t) t held phase
    have hkept := hmove.worth_eq (hreach.solvent.room (home t) t) (hreach.sound t).settles
    omega

/-- **Every byte is in one of four places**: free, recorded, reserved or owed. So no release runs
into the ceiling, and what is charged stays below it. -/
theorem Reachable.conserved (h : Reachable home Visit.KeepsFunction total world) :
    world.budget.total = total ∧
    world.budget.free.toNat + ∑ i, (world.account i).ledger.recorded +
        ∑ t, (world.phase t).reserved + ∑ t, (world.phase t).owed = total.toNat ∧
    (∀ t bytes, world.phase t = .crediting (some bytes) →
      (world.budget.release bytes).free.toNat = world.budget.free.toNat + bytes.toNat) ∧
    world.budget.free ≤ total ∧
    ∑ i, (world.account i).ledger.charged.toNat ≤ total.toNat := by
  have hworth : world.budget.free.toNat + ∑ i, (world.account i).ledger.recorded +
      ∑ t, (world.phase t).reserved + ∑ t, (world.phase t).owed = total.toNat := h.worth_eq
  obtain ⟨htotal, -, htallied⟩ := h.solvent
  refine ⟨htotal, hworth, ?_, ?_, ?_⟩
  · intro t bytes hphase
    have howed := le_sum Phase.owed world.phase t
    rw [hphase] at howed
    change bytes.toNat ≤ _ at howed
    refine Budget.toNat_release_of_le ?_
    rw [htotal]
    omega
  · rw [UInt64.le_iff_toNat_le]
    omega
  · have hcharged : ∀ i, (world.account i).ledger.charged.toNat =
        (world.account i).ledger.recorded := htallied
    simp only [hcharged]
    omega

/-- Two processes, and 4096 bytes reserved for a call of the first. -/
theorem conserved_of_granted :
    ∃ world : World (Fin 2) (Fin 2), Reachable id Visit.KeepsFunction 65536 world ∧
      (world.phase 0).reserved = 4096 ∧
      world.budget.free.toNat + ∑ i, (world.account i).ledger.recorded +
        ∑ t, (world.phase t).reserved + ∑ t, (world.phase t).owed = 65536 := by
  let visit := Visit.allocation 8 4096
  let held : Holding := ⟨.full 65536 1, ⟨⟨0, 65536⟩, .empty⟩⟩
  have hdemand : held.account.demand controlMinor visit.request visit.args visit.space =
      some 4096 := by decide
  have henter : Move Visit.KeepsFunction held .idle held (.asking visit (some 4096)) := by
    rw [← hdemand]
    exact .enter (some (deviceMajor, controlMinor)) visit.request.raw visit.args visit.space
      (by decide)
  have hgrant : Move Visit.KeepsFunction held (.asking visit (some 4096))
      { held with budget := ⟨65536, 61440, 1⟩ } (.away visit (.reserved 4096)) :=
    .grant (by decide) (by simp)
  have hreach : Reachable id Visit.KeepsFunction 65536 (_ : World (Fin 2) (Fin 2)) :=
    ((Reachable.fresh 1 fun _ => ⟨0, 65536⟩).step (.move 0 henter)).step (.move 0 hgrant)
  exact ⟨_, hreach, rfl, hreach.conserved.2.1⟩

end World

end GpuQuota.Accounting
