import GpuQuota.Proofs.Accounting.Reservation

/-!
# Frees that are overtaken

The ledger is changed after the driver has answered, and other threads may come in between. So the
ledger learns of what the driver did in another order than the driver did it: an allocation can get
the handle of an object whose free is not booked yet, and can be booked before it. The late free
then strikes the record of the new allocation.

A `Scene` is one process with its threads and its driver. Its two logs hold what the driver did and
what was booked. When no call is in flight they hold the same deeds (`Scene.Sound.perm`), in
different orders. So the ledger agrees with the driver exactly if, for each key, what was booked
last is what the driver did last (`Scene.Reachable.agrees_iff`).
-/

namespace GpuQuota.Accounting

open GpuQuota.Driver GpuQuota.Settings

/-! ## Logs

A deed is a change of one key, so of all deeds at a key only the newest is seen. Two logs with the
same deeds in different orders show the same unless the newest at some key differ. -/

/-- What the driver did on a call. -/
inductive Deed where
  | allocate (key : ObjectKey) (bytes : UInt64)
  | free (key : ObjectKey)
  deriving DecidableEq

namespace Deed

/-- The object that a deed is about. -/
def key : Deed → ObjectKey
  | allocate key _ => key
  | free key => key

/-- What stands under the key afterwards. -/
def effect : Deed → Option UInt64
  | allocate _ bytes => some bytes
  | free _ => none

/-- The bytes that were reserved for the call. -/
def reserved : Deed → ℕ
  | allocate _ bytes => bytes.toNat
  | free _ => 0

/-- The settlement that books it. -/
def settlement : Deed → Settlement
  | allocate key bytes => .charge key bytes
  | free key => .strike key

/-- A deed is told by its key and by what it leaves there. -/
theorem eq_of_effect {a b : Deed} (hkey : a.key = b.key) (heffect : a.effect = b.effect) :
    a = b := by
  cases a <;> cases b <;> cases hkey <;> cases heffect <;> rfl

/-- The settlement of a deed disposes of what was reserved for it. -/
theorem inHand_settlement (deed : Deed) : deed.settlement.inHand = deed.reserved := by
  cases deed <;> rfl

/-- Booking a deed puts under its key what it leaves there. -/
theorem records_book (deed : Deed) (ledger : Ledger) :
    (ledger.book deed.settlement).2.records.get? =
      Function.update ledger.records.get? deed.key deed.effect := by
  cases deed with
  | allocate key bytes => exact ledger.records_book_charge key bytes
  | free key => exact ledger.records_book_strike key

/-- The last deed on a key, in a log with the newest deed first. -/
def last? (log : List Deed) (key : ObjectKey) : Option Deed :=
  log.find? fun deed => deed.key = key

/-- What stands under each key after all deeds of a log. -/
def standing (log : List Deed) : Charges := fun key => (last? log key).bind effect

/-- The newest deed changes its own key only. -/
theorem standing_cons (deed : Deed) (log : List Deed) :
    standing (deed :: log) = Function.update (standing log) deed.key deed.effect := by
  funext key
  rw [Function.update_apply]
  by_cases hkey : key = deed.key
  · rw [if_pos hkey, standing, last?, List.find?_cons_of_pos (by simp [hkey]), Option.bind_some]
  · rw [if_neg hkey, standing, last?, List.find?_cons_of_neg (by simpa using Ne.symm hkey)]
    rfl

/-- There is no last deed at a key if there is none at all. -/
theorem last?_eq_none_iff {log : List Deed} {key : ObjectKey} :
    last? log key = none ↔ ∀ deed ∈ log, deed.key ≠ key := by
  simp [last?]

theorem key_of_last? {log : List Deed} {key : ObjectKey} {deed : Deed}
    (h : last? log key = some deed) : deed.key = key := by
  simpa using List.find?_some h

/-- Two logs of the same deeds leave the same standing exactly if the last deeds are the same. -/
theorem standing_eq_iff {a b : List Deed} (h : a.Perm b) :
    standing a = standing b ↔ ∀ key, last? a key = last? b key := by
  constructor
  · intro hstanding key
    have heffect : (last? a key).bind effect = (last? b key).bind effect := congrFun hstanding key
    -- a free and no deed at all leave the same standing, but the logs tell them apart
    have hnone : last? a key = none ↔ last? b key = none := by
      simp only [last?_eq_none_iff, h.mem_iff]
    rcases ha : last? a key with _ | first
    · exact (hnone.1 ha).symm
    rcases hb : last? b key with _ | second
    · rw [hnone.2 hb] at ha
      exact absurd ha (by simp)
    · rw [ha, hb] at heffect
      have hkey : first.key = second.key := (key_of_last? ha).trans (key_of_last? hb).symm
      exact congrArg some (eq_of_effect hkey heffect)
  · intro hlast
    funext key
    rw [standing, standing, hlast]

end Deed

/-! ## The system

The driver answers and logs in one step, and so does the ledger when it is booked. Between the two a
thread can be stopped for any time. -/

/-- How far a thread has come with an allocation or a free. -/
inductive Stage where
  /-- no call is under way -/
  | idle
  /-- the bytes of an allocation are reserved -/
  | granted (visit : Visit) (bytes : UInt64)
  /-- the driver has answered, and the answer is not booked -/
  | answered (visit : Visit) (admission : Admission) (after : Space) (deed : Deed)

/-- A process with its threads (`τ`), and its driver. -/
structure Scene (τ : Type) where
  /-- the account of the process, and the budget -/
  held : Holding
  /-- how far each thread has come -/
  stage : τ → Stage
  /-- the driver's live allocations -/
  live : Charges
  /-- what the driver did, the newest first -/
  driven : List Deed
  /-- what was booked, the newest first -/
  booked : List Deed

/-- The key of the object that a free request names. -/
def Visit.freedKey (visit : Visit) (after : Space) : ObjectKey :=
  ⟨(FreeBlock.read after visit.args).root, (FreeBlock.read after visit.args).old⟩

/-- A request on the control device to free an object. -/
structure Visit.IsFree (visit : Visit) : Prop where
  control : visit.minor = controlMinor
  number : visit.request.number = freeNumber
  fits : FreeBlock.layout.fits visit.args visit.request.size = true

namespace Scene

variable {τ : Type} [DecidableEq τ]

/-- Nothing is used and nobody calls. -/
def fresh (total : UInt64) (owner : Int32) (quota : MemoryQuota) : Scene τ where
  held := ⟨.full total owner, ⟨quota, .empty⟩⟩
  stage _ := .idle
  live _ := none
  driven := []
  booked := []

/-- A thread has bytes reserved for an allocation. -/
def grant (scene : Scene τ) (t : τ) (visit : Visit) (bytes : UInt64) (budget : Budget) : Scene τ :=
  { scene with
    held.budget := budget, stage := Function.update scene.stage t (.granted visit bytes) }

/-- The driver has done something, and a thread has its answer. -/
def drive (scene : Scene τ) (t : τ) (visit : Visit) (admission : Admission) (after : Space)
    (deed : Deed) : Scene τ :=
  { scene with
    stage := Function.update scene.stage t (.answered visit admission after deed)
    live := Function.update scene.live deed.key deed.effect
    driven := deed :: scene.driven }

/-- A thread has carried the settlement of an answer out. -/
def book (scene : Scene τ) (t : τ) (visit : Visit) (admission : Admission) (after : Space)
    (deed : Deed) (alive : Int32 → Bool) : Scene τ :=
  { scene with
    held := (scene.held.settle alive visit.args after
      (visit.verdict scene.held.account admission 0 after)).1
    stage := Function.update scene.stage t .idle
    booked := deed :: scene.booked }

/-- One step of one thread. An allocation is reserved, made by the driver and booked; a free is made
by the driver and booked. All of them succeed. -/
inductive Step : Scene τ → Scene τ → Prop where
  /-- An allocation has its bytes reserved. -/
  | reserve {scene : Scene τ} (t : τ) (visit : Visit) (bytes : UInt64) (budget : Budget) :
      scene.stage t = .idle →
      scene.held.account.admission scene.held.budget visit.minor visit.request visit.args
        visit.space = (.reserved bytes, budget) →
      Step scene (scene.grant t visit bytes budget)
  /-- The driver gives any handle that is not live. -/
  | allocate {scene : Scene τ} (t : τ) {visit : Visit} {bytes : UInt64} (after : Space) :
      scene.stage t = .granted visit bytes → visit.KeepsFunction 0 after →
      (HeapBlock.read after visit.args).status = statusOk →
      scene.live (visit.replyKey after) = none →
      Step scene (scene.drive t visit (.reserved bytes) after
        (.allocate (visit.replyKey after) bytes))
  /-- The driver frees a live allocation. -/
  | free {scene : Scene τ} (t : τ) (visit : Visit) (after : Space) :
      scene.stage t = .idle → visit.IsFree →
      (FreeBlock.read after visit.args).status = statusOk →
      (FreeBlock.read after visit.args).old ≠ (FreeBlock.read after visit.args).root →
      scene.live (visit.freedKey after) ≠ none →
      Step scene (scene.drive t visit .passthrough after (.free (visit.freedKey after)))
  /-- What the driver answered is booked, perhaps long after. -/
  | book {scene : Scene τ} (t : τ) {visit : Visit} {admission : Admission} {after : Space}
      {deed : Deed} (alive : Int32 → Bool) :
      scene.stage t = .answered visit admission after deed →
      Step scene (scene.book t visit admission after deed alive)

/-- The scenes that can come about on a budget of `total` bytes. -/
inductive Reachable (total : UInt64) : Scene τ → Prop where
  | fresh (owner : Int32) (quota : MemoryQuota) : Reachable total (.fresh total owner quota)
  | step {scene next : Scene τ} : Reachable total scene → Step scene next → Reachable total next

end Scene

/-! ## The invariant

Every deed of the driver is booked or about to be booked by one thread. So the two logs hold the
same deeds once no call is in flight. -/

namespace Stage

/-- The bytes that are reserved for a call and not settled. -/
def reserved : Stage → ℕ
  | .idle => 0
  | .granted _ bytes => bytes.toNat
  | .answered _ _ _ deed => deed.reserved

/-- What the driver did for a call that is not booked. -/
def unbooked : Stage → List Deed
  | .answered _ _ _ deed => [deed]
  | _ => []

/-- Bytes are reserved for allocations, and an answer calls for the settlement that books what the
driver did. -/
def Sound : Stage → Prop
  | .idle => True
  | .granted visit _ => visit.IsAllocation
  | .answered visit admission after deed => ∀ account : Account,
      visit.verdict account admission 0 after = deed.settlement

end Stage

namespace Scene

variable {τ : Type} [Fintype τ] {total : UInt64} {scene next : Scene τ}

/-- Nothing is lost, the ledger is what was booked and the driver's objects are what the driver did,
and what the driver did is what was booked and what is still to be booked. -/
structure Sound (total : UInt64) (scene : Scene τ) : Prop where
  total_eq : scene.held.budget.total = total
  /-- What is free, charged and reserved makes up the total. -/
  balance : scene.held.budget.free.toNat + scene.held.account.ledger.recorded +
    ∑ t, (scene.stage t).reserved = total.toNat
  /-- What a thread is to book is what the driver did for it. -/
  stage : ∀ t, (scene.stage t).Sound
  /-- The records are what the booked calls leave, in the order of the bookings. -/
  records : scene.held.account.ledger.records.get? = Deed.standing scene.booked
  /-- The driver's allocations are what its calls leave, in their own order. -/
  live : scene.live = Deed.standing scene.driven
  /-- Each call of the driver is booked once, or is still to be booked. -/
  count : ∀ deed, scene.driven.count deed =
    scene.booked.count deed + ∑ t, (scene.stage t).unbooked.count deed

theorem sound_fresh (total : UInt64) (owner : Int32) (quota : MemoryQuota) :
    Sound total (fresh total owner quota : Scene τ) where
  total_eq := rfl
  balance := by
    simp only [fresh, Budget.full, Ledger.recorded_empty, Stage.reserved, Finset.sum_const_zero,
      Nat.add_zero]
  stage _ := trivial
  records := rfl
  live := rfl
  count deed := by
    simp only [fresh, Stage.unbooked, List.count_nil, Finset.sum_const_zero, Nat.add_zero]

/-- When no call is in flight, the two logs hold the same deeds. -/
theorem Sound.perm (h : Sound total scene) (hquiet : ∀ t, scene.stage t = .idle) :
    scene.booked.Perm scene.driven := by
  rw [List.perm_iff_count]
  intro deed
  have hcount := h.count deed
  simp only [hquiet, Stage.unbooked, List.count_nil, Finset.sum_const_zero, Nat.add_zero] at hcount
  exact hcount.symm

/-- And what is not recorded is free. -/
theorem Sound.free (h : Sound total scene) (hquiet : ∀ t, scene.stage t = .idle) :
    scene.held.budget.free.toNat + Charges.sum scene.held.account.ledger.records.get? =
      total.toNat := by
  have hbalance := h.balance
  simp only [hquiet, Stage.reserved, Finset.sum_const_zero, Nat.add_zero] at hbalance
  rwa [← Ledger.recorded_eq_sum]

variable [DecidableEq τ]

omit [Fintype τ] in
/-- An update of the stages keeps them sound. -/
theorem sound_update {stage : τ → Stage} (h : ∀ t, (stage t).Sound) (mover : τ) {turn : Stage}
    (hturn : turn.Sound) (t : τ) : (Function.update stage mover turn t).Sound := by
  by_cases ht : t = mover
  · subst ht
    rwa [Function.update_self]
  · rw [Function.update_of_ne ht]
    exact h t

/-- What the driver does is logged and is under way. -/
theorem Sound.drive (h : Sound total scene) (t : τ) (visit : Visit) (admission : Admission)
    (after : Space) (deed : Deed) (hreserved : (scene.stage t).reserved = deed.reserved)
    (hunbooked : (scene.stage t).unbooked = [])
    (hsettles : (Stage.answered visit admission after deed).Sound) :
    Sound total (scene.drive t visit admission after deed) where
  total_eq := h.total_eq
  balance := by
    have hbalance := h.balance
    have hsum := sum_update Stage.reserved scene.stage t (.answered visit admission after deed)
    have hturn : (Stage.answered visit admission after deed).reserved = deed.reserved := rfl
    simp only [Scene.drive]
    omega
  stage := sound_update h.stage t hsettles
  records := h.records
  live := by
    rw [Scene.drive, Deed.standing_cons, ← h.live]
  count other := by
    have hcount := h.count other
    have hsum := sum_update (fun stage : Stage => stage.unbooked.count other) scene.stage t
      (.answered visit admission after deed)
    have hturn : (Stage.answered visit admission after deed).unbooked = [deed] := rfl
    rw [hunbooked, hturn] at hsum
    simp only [Scene.drive, List.count_cons, List.count_nil] at hsum ⊢
    omega

/-- A reservation moves bytes from the counter into the hands of a thread. -/
theorem Sound.reserve (h : Sound total scene) {t : τ} {visit : Visit} {bytes : UInt64}
    {budget : Budget} (hidle : scene.stage t = .idle)
    (hadmission : scene.held.account.admission scene.held.budget visit.minor visit.request
      visit.args visit.space = (.reserved bytes, budget)) :
    Sound total (scene.grant t visit bytes budget) := by
  rw [Account.admission_eq] at hadmission
  have htotal := scene.held.budget.total_serve
    (scene.held.account.demand visit.minor visit.request visit.args visit.space)
  have hfree := scene.held.budget.free_serve
    (scene.held.account.demand visit.minor visit.request visit.args visit.space)
  rw [hadmission] at htotal hfree
  obtain ⟨hdemand, -, -⟩ := Budget.serve_eq_reserved_iff.1 hadmission
  obtain ⟨hheap, hfunction, -, -⟩ := Account.demand_eq_some_iff.1 hdemand
  refine ⟨htotal.trans h.total_eq, ?_, sound_update h.stage t ⟨hheap, hfunction⟩, h.records, h.live,
    ?_⟩
  · -- the bytes go from the counter to the thread
    have hbalance := h.balance
    have hsum := sum_update Stage.reserved scene.stage t (.granted visit bytes)
    have hturn : (Stage.granted visit bytes).reserved = bytes.toNat := rfl
    have hold : (scene.stage t).reserved = 0 := by rw [hidle]; rfl
    simp only [Scene.grant, Admission.bytes] at hfree ⊢
    omega
  · -- the driver has done nothing yet
    intro other
    have hcount := h.count other
    have hsum := sum_update (fun stage : Stage => stage.unbooked.count other) scene.stage t
      (.granted visit bytes)
    have hturn : (Stage.granted visit bytes).unbooked = [] := rfl
    have hold : (scene.stage t).unbooked = [] := by rw [hidle]; rfl
    rw [hold, hturn] at hsum
    simp only [Scene.grant] at hsum ⊢
    omega

/-- What is booked takes its bytes out of the hands of the thread, and is in both logs then. -/
theorem Sound.book (h : Sound total scene) {t : τ} {visit : Visit} {admission : Admission}
    {after : Space} {deed : Deed} (hanswered : scene.stage t = .answered visit admission after deed)
    (alive : Int32 → Bool) :
    Sound total (scene.book t visit admission after deed alive) := by
  have hsettles : visit.verdict scene.held.account admission 0 after = deed.settlement := by
    have hstage := h.stage t
    rw [hanswered] at hstage
    exact hstage scene.held.account
  refine ⟨(Holding.total_settle _ _ _ _ _).trans h.total_eq, ?_,
    sound_update h.stage t trivial, ?_, h.live, ?_⟩
  · have hbalance := h.balance
    have hsum := sum_update Stage.reserved scene.stage t .idle
    have hturn : Stage.idle.reserved = 0 := rfl
    have hold : (scene.stage t).reserved = deed.settlement.inHand := by
      rw [hanswered, deed.inHand_settlement]
      rfl
    have hroom : scene.held.budget.free.toNat + scene.held.account.ledger.recorded +
        deed.settlement.inHand ≤ scene.held.budget.total.toNat := by
      rw [h.total_eq]
      omega
    -- what a free strikes or a charge replaces is released in the same step
    have hsettle := Holding.balance_settle hroom alive visit.args after
    simp only [Scene.book, hsettles]
    omega
  · rw [Scene.book, hsettles, Holding.settle_eq, Deed.standing_cons, ← h.records]
    exact deed.records_book _
  · intro other
    have hcount := h.count other
    have hsum := sum_update (fun stage : Stage => stage.unbooked.count other) scene.stage t .idle
    have hturn : Stage.idle.unbooked = [] := rfl
    have hold : (scene.stage t).unbooked = [deed] := by rw [hanswered]; rfl
    rw [hold, hturn] at hsum
    simp only [Scene.book, List.count_cons, List.count_nil] at hsum ⊢
    omega

/-- **Every step keeps the invariant.** -/
theorem Sound.step (h : Sound total scene) (hstep : Step scene next) : Sound total next := by
  cases hstep with
  | reserve t visit bytes budget hidle hadmission => exact h.reserve hidle hadmission
  | @allocate t visit bytes after hgranted hkeeps hstatus hfresh =>
    have halloc : visit.IsAllocation := by
      have hstage := h.stage t
      rw [hgranted] at hstage
      exact hstage
    refine h.drive t visit _ after _ ?_ ?_ ?_
    · rw [hgranted]
      rfl
    · rw [hgranted]
      rfl
    · intro account
      have hfunction := (hkeeps halloc.1).trans halloc.2
      exact Visit.verdict_charge halloc.1 rfl hfunction hstatus
  | free t visit after hidle hfree hstatus hroot hlive =>
    refine h.drive t visit _ after _ ?_ ?_ ?_
    · rw [hidle]
      rfl
    · rw [hidle]
      rfl
    · intro account
      rw [Visit.verdict, if_pos rfl, Account.settlement_free hfree.control hfree.number,
        FreeBlock.decode?, if_pos hfree.fits]
      exact if_pos ⟨hstatus, hroot⟩
  | book t alive hanswered => exact h.book hanswered alive

/-- The invariant holds in whatever comes about. -/
theorem Reachable.sound (h : Reachable total scene) : Sound total scene := by
  induction h with
  | fresh owner quota => exact sound_fresh total owner quota
  | step _ hstep ih => exact ih.step hstep

/-- **The ledger agrees with the driver exactly if nothing was overtaken.** When no call is in
flight, what was booked is what the driver did, in some order, and what is not recorded is free. The
records are the driver's live allocations if and only if, for each key, the deed that was booked
last is the one that the driver did last. -/
theorem Reachable.agrees_iff (h : Reachable total scene) (hquiet : ∀ t, scene.stage t = .idle) :
    scene.booked.Perm scene.driven ∧
    scene.held.budget.free.toNat + Charges.sum scene.held.account.ledger.records.get? =
      total.toNat ∧
    ((scene.held.account.ledger.records.get? = scene.live ∧
        scene.held.budget.free.toNat + scene.live.sum = total.toNat) ↔
      ∀ key, Deed.last? scene.booked key = Deed.last? scene.driven key) := by
  have hsound := h.sound
  have hperm := hsound.perm hquiet
  have hfree := hsound.free hquiet
  refine ⟨hperm, hfree, ?_⟩
  rw [← Deed.standing_eq_iff hperm, ← hsound.records, ← hsound.live]
  constructor
  · rintro ⟨hagree, -⟩
    exact hagree
  · intro hagree
    rw [← hagree]
    exact ⟨rfl, hfree⟩

/-! ## One handle, two allocations

The first thread frees handle 7, and is stopped before that is booked. The second one allocates, is
given handle 7 and books its allocation. Then the first one goes on. -/

/-- The memory after an allocation that was given handle 7. -/
def seven (visit : Visit) : Space :=
  visit.space.setWord32 (visit.args + HeapBlock.memoryOffset) 7

/-- The call that frees handle 7. -/
def freeSeven : Visit where
  minor := controlMinor
  request := .readWrite freeNumber 16
  args := 8
  space := Space.blank.setWord32 16 7

/-- A thread has reserved `size` bytes, and the driver has allocated them under handle 7. -/
def allocateSeven (scene : Scene (Fin 2)) (t : Fin 2) (size : UInt64) : Scene (Fin 2) :=
  let visit := Visit.allocation 8 size
  (scene.grant t visit size (scene.held.taking size).budget).drive t visit (.reserved size)
    (seven visit) (.allocate ⟨0, 7⟩ size)

/-- And has booked them. -/
def bookSeven (scene : Scene (Fin 2)) (t : Fin 2) (size : UInt64) : Scene (Fin 2) :=
  let visit := Visit.allocation 8 size
  scene.book t visit (.reserved size) (seven visit) (.allocate ⟨0, 7⟩ size) fun _ => true

/-- The first thread has allocated 4096 bytes. -/
def allocated : Scene (Fin 2) :=
  ((fresh 65536 1 ⟨0, 65536⟩).allocateSeven 0 4096).bookSeven 0 4096

/-- Then it frees them, and before that is booked the second thread allocates 8192 bytes and is
given the same handle. -/
def overtaken : Scene (Fin 2) :=
  let freed := allocated.drive 0 freeSeven .passthrough freeSeven.space (.free ⟨0, 7⟩)
  ((freed.allocateSeven 1 8192).bookSeven 1 8192).book 0 freeSeven .passthrough freeSeven.space
    (.free ⟨0, 7⟩) fun _ => true

theorem reachable_allocated : Reachable 65536 allocated := by
  have hfresh : Reachable 65536 (fresh 65536 1 ⟨0, 65536⟩ : Scene (Fin 2)) := .fresh 1 ⟨0, 65536⟩
  have hgranted := hfresh.step
    (.reserve 0 (.allocation 8 4096) 4096 ⟨65536, 61440, 1⟩ rfl (by decide))
  have hdriven := hgranted.step (.allocate 0 (seven (.allocation 8 4096)) rfl
    (fun _ => by decide) (by decide) (by decide))
  exact hdriven.step (.book 0 (fun _ => true) rfl)

/-- The free of handle 7 can be overtaken. -/
theorem reachable_overtaken : Reachable 65536 overtaken := by
  -- the driver has freed handle 7, and nobody has booked it
  have hfreed := reachable_allocated.step (.free 0 freeSeven freeSeven.space rfl
    ⟨by decide, by decide, by decide⟩ (by decide) (by decide) (by decide))
  have hgranted := hfreed.step
    (.reserve 1 (.allocation 8 8192) 8192 ⟨65536, 53248, 1⟩ rfl (by decide))
  have hdriven := hgranted.step (.allocate 1 (seven (.allocation 8 8192)) rfl
    (fun _ => by decide) (by decide) (by decide))
  have hbooked := hdriven.step (.book 1 (fun _ => true) rfl)
  exact hbooked.step (.book 0 (fun _ => true) rfl)

theorem allocated_quiet : ∀ t, allocated.stage t = .idle := Fin.forall_fin_two.2 ⟨rfl, rfl⟩

theorem overtaken_quiet : ∀ t, overtaken.stage t = .idle := Fin.forall_fin_two.2 ⟨rfl, rfl⟩

/-- Without the second allocation the ledger agrees with the driver. -/
theorem allocated_agrees :
    allocated.held.account.ledger.records.get? = allocated.live ∧
      allocated.held.budget.free.toNat + allocated.live.sum = 65536 :=
  (reachable_allocated.agrees_iff allocated_quiet).2.2.2 fun _ => rfl

/-- With it the driver has 8192 bytes allocated, and the ledger knows nothing of them. -/
theorem overtaken_disagrees :
    Reachable 65536 overtaken ∧ (∀ t, overtaken.stage t = .idle) ∧
      overtaken.live ⟨0, 7⟩ = some 8192 ∧
      overtaken.held.account.ledger.records.get? ⟨0, 7⟩ = none ∧
      overtaken.held.account.ledger.records.get? ≠ overtaken.live ∧
      overtaken.held.budget.free = overtaken.held.budget.total := by
  have hlive : overtaken.live ⟨0, 7⟩ = some 8192 := by decide
  have hrecord : overtaken.held.account.ledger.records.get? ⟨0, 7⟩ = none := by decide
  refine ⟨reachable_overtaken, overtaken_quiet, hlive, hrecord, ?_, by decide⟩
  intro hagree
  rw [hagree, hlive] at hrecord
  cases hrecord

end Scene

end GpuQuota.Accounting
