import GpuQuota.Proofs.Pacing.Opening
import Mathlib.Algebra.Group.Nat.Defs

/-!
# A region is ready before anybody uses it

One process at most writes the first parameters of a region, and nobody comes inside before all of
them are written. So a process under a quota starts with a limit that somebody wrote, and a monitor
that is the only one finds its own limit in the region when it is done, whoever came first.

* `Entry.Fits` says what the region and the log must have come to for each point that a process can
  be at, and `Entry.Move.fits` that a step keeps this;
* `Opening.Orderly` adds what holds of all processes together: one of them writes at a time, and
  what was written last stands in the region;
* `Opening.Reachable.ready_in_time` is the result.
-/

namespace GpuQuota.Pacing

open GpuQuota.Settings GpuQuota.Shared

/-- Storing a parameter does not make a region ready. -/
@[simp] theorem TokenRegion.readiness_store (region : TokenRegion) (word : Word) :
    (region.store word).readiness = region.readiness := by
  cases word <;> rfl

/-- Nor does it open the gate. -/
@[simp] theorem TokenRegion.gate_store (region : TokenRegion) (word : Word) :
    (region.store word).gate = region.gate := by
  cases word <;> rfl

/-- A limit with room for a sign is read as it was written. -/
theorem atLeast_toInt32 {limit : UInt32} (h : limit.toNat < 2 ^ 31) :
    atLeast 0 limit.toInt32 = limit := by
  have hsign : limit.toInt32.toInt = limit.toNat :=
    BitVec.toInt_eq_toNat_of_lt (show 2 * limit.toNat < 2 ^ 32 by omega)
  have hmax : max limit.toInt32 0 = limit.toInt32 := by
    change (if limit.toInt32 ≤ 0 then 0 else limit.toInt32 : Int32) = _
    split
    · next hle =>
      rw [Int32.le_iff_toInt_le, hsign, Int32.toInt_zero] at hle
      rw [← Int32.toInt_inj, hsign, Int32.toInt_zero]
      omega
    · rfl
  rw [atLeast, hmax, UInt32.toUInt32_toInt32]

namespace Party

variable {party : Party}

/-- The first parameters include the limit. -/
theorem limit_mem_first (party : Party) : .limit party.limitWord ∈ party.first :=
  List.mem_cons_self

/-- They include no other one. -/
theorem eq_of_limit_mem_first {word : Int32} (h : .limit word ∈ party.first) :
    word = party.limitWord := by
  simpa [first] using h

/-- A monitor that adopts a limit stores it. -/
theorem limit_mem_adoption (party : Party) (rate old : Int32) :
    .limit party.limitWord ∈ party.adoption rate old :=
  List.mem_cons_of_mem _ List.mem_cons_self

/-- And no other one. -/
theorem eq_of_limit_mem_adoption {word rate old : Int32}
    (h : .limit word ∈ party.adoption rate old) : word = party.limitWord := by
  simpa [adoption] using h

end Party

namespace Entry

/-- The process has claimed the region and has not opened the gate yet. -/
def IsBuilding : Entry → Prop
  | .laying _ => True
  | .announcing => True
  | .opening => True
  | _ => False

/-- What has been stored, by a process at this point with the deeds `did`. -/
def Fits (party : Party) (readiness : Readiness) (did : Deed → Prop) : Entry → Prop
  | .outside => True
  | .checking => True
  | .waiting => True
  | .laying rest => readiness = .preparing ∧ did .claimed ∧ (∀ word ∈ rest, word ∈ party.first) ∧
      ∀ word ∈ party.first, word ∈ rest ∨ did (.stored word)
  | .rescaling _ => readiness = .ready ∧ party.isMonitor
  | .adopting rest => readiness = .ready ∧ party.isMonitor ∧
      ∀ word, .limit word ∈ rest → word = party.limitWord
  | _ => readiness = .ready

namespace Fits

variable {party : Party} {readiness : Readiness} {did more : Deed → Prop} {entry : Entry}

/-- What has been done once stays done. -/
theorem mono (h : entry.Fits party readiness did) (hmore : ∀ deed, did deed → more deed) :
    entry.Fits party readiness more := by
  cases entry with
  | laying rest =>
    obtain ⟨hpreparing, hclaimed, hrest, hstored⟩ := h
    exact ⟨hpreparing, hmore _ hclaimed, hrest, fun word hword =>
      (hstored word hword).imp_right (hmore _)⟩
  | _ => exact h

/-- In a fresh region nobody has come far, so what happens to it does not matter to anybody. -/
theorem of_fresh (h : entry.Fits party .fresh did) (readiness : Readiness) :
    ¬ entry.IsBuilding ∧ entry.Fits party readiness did := by
  cases entry with
  | outside => exact ⟨id, trivial⟩
  | checking => exact ⟨id, trivial⟩
  | waiting => exact ⟨id, trivial⟩
  | laying rest => exact absurd h.1 (by decide)
  | rescaling old => exact absurd h.1 (by decide)
  | adopting rest => exact absurd h.1 (by decide)
  | _ =>
    have hready : Readiness.fresh = .ready := h
    cases hready

/-- When the region becomes ready, this matters to the one that builds only. -/
theorem of_ready (h : entry.Fits party readiness did) (hbuilding : ¬ entry.IsBuilding) :
    entry.Fits party .ready did := by
  cases entry with
  | outside => trivial
  | checking => trivial
  | waiting => trivial
  | laying rest => exact absurd trivial hbuilding
  | rescaling old => exact ⟨rfl, h.2⟩
  | adopting rest => exact ⟨rfl, h.2⟩
  | _ => rfl

end Fits

/-! ## What a step does

Each access is one of few kinds, and the log grows by one entry at most. What a process has to know
in order to go on, that nobody else is building, or that the region is ready, is read off the
readiness word, which only goes forward. -/

namespace Move

variable {party : Party} {region after : TokenRegion} {entry turn : Entry} {deeds : List Deed}

/-- An access is noted once or not at all. -/
theorem deeds_cases (h : Move party region entry deeds after turn) :
    deeds = [] ∨ ∃ deed, deeds = [deed] := by
  cases h with
  | claim => exact .inr ⟨_, rfl⟩
  | lay => exact .inr ⟨_, rfl⟩
  | openGate => exact .inr ⟨_, rfl⟩
  | pass => exact .inr ⟨_, rfl⟩
  | putBack => exact .inr ⟨_, rfl⟩
  | adopt => exact .inr ⟨_, rfl⟩
  | _ => exact .inl rfl

/-- A claim succeeds on a fresh region only, and takes it. -/
theorem readiness_claim {region claimed : TokenRegion} (h : region.claim = (true, claimed)) :
    region.readiness = .fresh ∧ claimed = { region with readiness := .preparing } := by
  rw [TokenRegion.claim] at h
  split at h
  · next hfresh => exact ⟨hfresh, (Prod.mk.inj h).2.symm⟩
  · cases h

/-- A region is claimed once, and becomes ready by the process that has stored everything. -/
theorem readiness_cases (h : Move party region entry deeds after turn) :
    after.readiness = region.readiness ∨
    (region.readiness = .fresh ∧ entry = .outside ∧ after.readiness = .preparing) ∨
    (entry = .laying [] ∧ after.readiness = .ready) := by
  cases h with
  | claim _ hclaim =>
    obtain ⟨hfresh, rfl⟩ := readiness_claim hclaim
    exact .inr (.inl ⟨hfresh, rfl, rfl⟩)
  | lay => exact .inl (TokenRegion.readiness_store _ _)
  | ready => exact .inr (.inr ⟨rfl, rfl⟩)
  | adopt => exact .inl (TokenRegion.readiness_store _ _)
  | _ => exact .inl rfl

/-- Nobody begins to write the first parameters but on a fresh region. -/
theorem isBuilding (h : Move party region entry deeds after turn) (hturn : turn.IsBuilding) :
    entry.IsBuilding ∨ region.readiness = .fresh := by
  cases h with
  | claim _ hclaim => exact .inr (readiness_claim hclaim).1
  | lay => exact .inl trivial
  | ready => exact .inl trivial
  | announce => exact .inl trivial
  | openGate => exact .inl trivial
  | jam => exact .inl trivial
  | _ => exact absurd hturn id

/-- Only one that builds sets up, and it builds no longer. -/
theorem setUp (h : Move party region entry deeds after turn) (hdeed : .setUp ∈ deeds) :
    entry = .opening ∧ ¬ turn.IsBuilding ∧ deeds = [.setUp] := by
  cases h with
  | openGate =>
    refine ⟨rfl, ?_, rfl⟩
    split <;> exact id
  | _ => simp at hdeed

/-- What is stored is the first of the words that are still to be stored. -/
theorem stored (h : Move party region entry deeds after turn) {word : Word}
    (hdeed : .stored word ∈ deeds) :
    ∃ rest, after = region.store word ∧ deeds = [.stored word] ∧
      (entry = .laying (word :: rest) ∨ entry = .adopting (word :: rest)) := by
  cases h with
  | @lay other rest =>
    obtain rfl : word = other := by simpa using hdeed
    exact ⟨rest, rfl, rfl, .inl rfl⟩
  | @adopt other rest =>
    obtain rfl : word = other := by simpa using hdeed
    exact ⟨rest, rfl, rfl, .inr rfl⟩
  | _ => simp at hdeed

/-- The limit in the region changes when one is stored. -/
theorem limitWord_cases (h : Move party region entry deeds after turn) :
    (after.limitWord = region.limitWord ∧ ∀ word, .stored (.limit word) ∉ deeds) ∨
    deeds = [.stored (.limit after.limitWord)] := by
  have hstore : ∀ word : Word, deeds = [.stored word] → after = region.store word →
      (after.limitWord = region.limitWord ∧ ∀ word, .stored (.limit word) ∉ deeds) ∨
      deeds = [.stored (.limit after.limitWord)] := by
    rintro word rfl rfl
    cases word with
    | limit word => exact .inr rfl
    | _ => exact .inl ⟨rfl, by simp⟩
  cases h with
  | claim _ hclaim =>
    obtain ⟨-, rfl⟩ := readiness_claim hclaim
    exact .inl ⟨rfl, by simp⟩
  | lay => exact hstore _ rfl rfl
  | adopt => exact hstore _ rfl rfl
  | _ => exact .inl ⟨rfl, by simp⟩

/-- A process starts with the limit that it finds inside. -/
theorem joined {tokens : UInt32} (h : Move party region entry deeds after turn)
    (hturn : turn = .joined tokens) : entry = .inside ∧ tokens = region.limit := by
  cases h with
  | join =>
    obtain rfl := Entry.joined.inj hturn
    exact ⟨rfl, rfl⟩
  | openGate => split at hturn <;> cases hturn
  | _ => cases hturn

/-- Whoever passes the gate has found it open. -/
theorem count_ne_zero_of_wait? {gate after : Semaphore} (h : gate.wait? = some after) :
    gate.count ≠ 0 := by
  intro hzero
  simp [Semaphore.wait?, Semaphore.tryWait, hzero] at h

variable {did more : Deed → Prop}

/-- The gate is opened in a region that is ready. -/
theorem gate_ready (h : Move party region entry deeds after turn)
    (hfits : entry.Fits party region.readiness did)
    (hgate : region.gate.count ≠ 0 → region.readiness = .ready) (hopen : after.gate.count ≠ 0) :
    after.readiness = .ready := by
  cases h with
  | claim _ hclaim =>
    obtain ⟨hfresh, rfl⟩ := readiness_claim hclaim
    exact absurd ((hgate hopen).symm.trans hfresh) (by decide)
  | lay =>
    rw [TokenRegion.gate_store] at hopen
    rw [TokenRegion.readiness_store]
    exact hgate hopen
  | adopt =>
    rw [TokenRegion.gate_store] at hopen
    rw [TokenRegion.readiness_store]
    exact hgate hopen
  | ready => rfl
  | openGate => exact hfits
  | putBack => exact hfits
  | take htaken => exact hgate (count_ne_zero_of_wait? htaken)
  | _ => exact hgate hopen

/-- **A step keeps what must have been done at each point.** -/
theorem fits (h : Move party region entry deeds after turn)
    (hfits : entry.Fits party region.readiness did)
    (hgate : region.gate.count ≠ 0 → region.readiness = .ready)
    (hdid : ∀ deed, did deed → more deed) (hdeeds : ∀ deed ∈ deeds, more deed) :
    turn.Fits party after.readiness more := by
  cases h with
  | claim _ hclaim =>
    obtain ⟨-, rfl⟩ := readiness_claim hclaim
    exact ⟨rfl, hdeeds _ List.mem_cons_self, fun word hword => hword, fun word hword => .inl hword⟩
  | lose => trivial
  | come => trivial
  -- a word that was still to be stored is stored now
  | @lay word rest =>
    obtain ⟨hpreparing, hclaimed, hrest, hstored⟩ := hfits
    refine ⟨?_, hdid _ hclaimed, fun other hother => hrest _ (List.mem_cons_of_mem _ hother), ?_⟩
    · rwa [TokenRegion.readiness_store]
    · intro other hother
      rcases hstored other hother with hmem | hdone
      · rcases List.mem_cons.1 hmem with rfl | hmem
        · exact .inr (hdeeds _ List.mem_cons_self)
        · exact .inl hmem
      · exact .inr (hdid _ hdone)
  | ready => rfl
  | announce => exact hfits
  | openGate =>
    split
    · exact hfits
    · trivial
  | jam => exact hfits
  | pass hready => exact eq_of_beq hready
  | wait => trivial
  | take htaken => exact hgate (count_ne_zero_of_wait? htaken)
  | putBack => exact hfits
  | spill => exact hfits
  | keep => exact hfits
  | compare hmonitor => exact ⟨hfits, hmonitor⟩
  | rescale => exact ⟨hfits.1, hfits.2, fun word hword => Party.eq_of_limit_mem_adoption hword⟩
  | adopt =>
    obtain ⟨hready, hmonitor, hrest⟩ := hfits
    refine ⟨?_, hmonitor, fun other hother => hrest _ (List.mem_cons_of_mem _ hother)⟩
    rwa [TokenRegion.readiness_store]
  | adopted => exact hfits.1
  | republish => exact hfits
  | join => exact hfits

end Move

/-! ## The limit of a monitor

Whoever sets a region up, and a monitor that adopts a limit, stores its own limit among other
parameters. Once no such store is left to it, the limit word is its own, unless somebody else has
stored one in between (`Entry.Settles`). That nobody does is a matter of the only monitor, and comes
later. -/

/-- A process that has stored its limit, and not seen another one since, finds it in the region. -/
def Settles (word limitWord : Int32) : Entry → Prop
  | .laying rest => (∀ other, .limit other ∉ rest) → limitWord = word
  | .adopting rest => (∀ other, .limit other ∉ rest) → limitWord = word
  | .announcing => limitWord = word
  | .opening => limitWord = word
  | .republishing => limitWord = word
  | .attached => limitWord = word
  | _ => True

/-- Storing the last limit of a list settles the limit word. -/
theorem settles_store {region : TokenRegion} {limitWord : Int32} {word : Word} {rest : List Word}
    (hrest : ∀ other, .limit other ∈ word :: rest → other = limitWord)
    (h : (∀ other, .limit other ∉ word :: rest) → region.limitWord = limitWord)
    (hnone : ∀ other, .limit other ∉ rest) : (region.store word).limitWord = limitWord := by
  have hold : (∀ other, .limit other ≠ word) → region.limitWord = limitWord := by
    intro hword
    refine h fun other hmem => ?_
    rcases List.mem_cons.1 hmem with heq | hmem
    · exact hword other heq
    · exact hnone other hmem
  cases word with
  | limit other => exact hrest other List.mem_cons_self
  | _ => exact hold fun other heq => nomatch heq

/-- Whoever has settled its limit finds it settled after its own next access. -/
theorem Move.settles {party : Party} {region after : TokenRegion} {entry turn : Entry}
    {deeds : List Deed} {did : Deed → Prop} (h : Move party region entry deeds after turn)
    (hfits : entry.Fits party region.readiness did)
    (hsettles : entry.Settles party.limitWord region.limitWord) :
    turn.Settles party.limitWord after.limitWord := by
  cases h with
  | claim => exact fun hnone => absurd party.limit_mem_first (hnone _)
  | lay =>
    obtain ⟨-, -, hrest, -⟩ := hfits
    exact settles_store (fun other hmem => Party.eq_of_limit_mem_first (hrest _ hmem)) hsettles
  | ready => exact hsettles fun other hmem => nomatch hmem
  | announce => exact hsettles
  | openGate =>
    split
    · exact hsettles
    · trivial
  | keep _ hlimit => exact hlimit
  | rescale => exact fun hnone => absurd (party.limit_mem_adoption _ _) (hnone _)
  | adopt => exact settles_store hfits.2.2 hsettles
  | adopted => exact hsettles fun other hmem => nomatch hmem
  | republish => exact hsettles
  | _ => trivial

/-- While the first parameters are written, only the one that writes them has stored anything. -/
theorem Fits.settles {party : Party} {did : Deed → Prop} {entry : Entry}
    (h : entry.Fits party .preparing did) (hbuilding : ¬ entry.IsBuilding)
    (word limitWord : Int32) : entry.Settles word limitWord := by
  cases entry with
  | laying rest => exact absurd trivial hbuilding
  | announcing => exact absurd trivial hbuilding
  | opening => exact absurd trivial hbuilding
  | adopting rest => exact absurd h.1 (by decide)
  | republishing =>
    have hready : Readiness.preparing = .ready := h
    cases hready
  | attached =>
    have hready : Readiness.preparing = .ready := h
    cases hready
  | _ => trivial

end Entry

/-! ## All processes

The invariant of all processes together. Each of them stands where the region and the log allow it
(`fits`), one at most is building, the region is set up once at most, and what is laid down was
written by one of the parties. -/

namespace Opening

variable {π : Type}

/-- Somebody claimed the region, and has stored all the first parameters. -/
def Laid (party : π → Party) (log : List (π × Deed)) : Prop :=
  ∃ w, (w, .claimed) ∈ log ∧ ∀ word ∈ (party w).first, (w, .stored word) ∈ log

/-- A longer log tells of the same parameters. -/
theorem Laid.mono {party : π → Party} {log more : List (π × Deed)} (h : Laid party log)
    (hmore : ∀ event ∈ log, event ∈ more) : Laid party more := by
  obtain ⟨w, hclaimed, hstored⟩ := h
  exact ⟨w, hmore _ hclaimed, fun word hword => hmore _ (hstored word hword)⟩

/-- The number of set-ups that returned that they were the first. -/
def setUps (log : List (π × Deed)) : ℕ := log.countP fun event => event.2 = .setUp

/-- One process at most is the first, and what it has to store is stored before anybody passes. -/
structure Orderly (party : π → Party) (now : Opening π) : Prop where
  /-- What each process has come to is noted, and fits the region. -/
  fits : ∀ i, (now.entry i).Fits (party i) now.region.readiness fun deed => (i, deed) ∈ now.log
  /-- The gate is opened for a ready region only. -/
  gate_ready : now.region.gate.count ≠ 0 → now.region.readiness = .ready
  /-- One process at most lays the first parameters. -/
  builder_unique : ∀ i j, (now.entry i).IsBuilding → (now.entry j).IsBuilding → i = j
  /-- Before it is done, no set-up has returned that it was the first. -/
  setUps_eq_zero : (now.region.readiness = .fresh ∨ ∃ i, (now.entry i).IsBuilding) →
    setUps now.log = 0
  /-- One set-up at most ever does. -/
  setUps_le : setUps now.log ≤ 1
  /-- A ready region has had all the words of the process that claimed it. -/
  laid : now.region.readiness = .ready → Laid party now.log
  /-- They were stored before anybody passed. -/
  laid_before : ∀ later earlier i, now.log = later ++ (i, .passed) :: earlier → Laid party earlier

variable {party : π → Party} {now next : Opening π}
variable {i : π} {region : TokenRegion} {turn : Entry} {deeds : List Deed}

/-- A region is set up by the access that opens it, and by no other. -/
theorem setUps_append (hmove : Entry.Move (party i) now.region (now.entry i) deeds region turn) :
    setUps (deeds.map (Prod.mk i) ++ now.log) = setUps now.log ∨
    (now.entry i = .opening ∧ ¬ turn.IsBuilding ∧
      setUps (deeds.map (Prod.mk i) ++ now.log) = setUps now.log + 1) := by
  by_cases hdeed : .setUp ∈ deeds
  · obtain ⟨hopening, hturn, rfl⟩ := hmove.setUp hdeed
    refine .inr ⟨hopening, hturn, ?_⟩
    simp [setUps]
  · refine .inl ?_
    rw [setUps, List.countP_append, setUps, Nat.add_eq_right, List.countP_eq_zero]
    intro event hmem hset
    obtain ⟨deed, hdone, rfl⟩ := List.mem_map.1 hmem
    have hsetUp : deed = .setUp := of_decide_eq_true hset
    rw [hsetUp] at hdone
    exact hdeed hdone

namespace Orderly

/-- On a fresh region nobody is building. -/
theorem not_isBuilding (h : now.Orderly party) (hfresh : now.region.readiness = .fresh)
    (j : π) : ¬ (now.entry j).IsBuilding := by
  have hfits := h.fits j
  rw [hfresh] at hfits
  exact (hfits.of_fresh .fresh).1

/-- A region that is ready has its parameters written down in the log. -/
theorem laid_put (h : now.Orderly party)
    (hmove : Entry.Move (party i) now.region (now.entry i) deeds region turn)
    (hready : region.readiness = .ready) : Laid party now.log := by
  rcases hmove.readiness_cases with hsame | ⟨-, -, hpreparing⟩ | ⟨hlaying, -⟩
  · exact h.laid (hsame.symm.trans hready)
  · exact absurd (hpreparing.symm.trans hready) (by decide)
  · have hfits := h.fits i
    rw [hlaying] at hfits
    obtain ⟨-, hclaimed, -, hstored⟩ := hfits
    exact ⟨i, hclaimed, fun word hword => (hstored word hword).resolve_left List.not_mem_nil⟩

/-- Somebody that passes finds the region ready. -/
theorem laid_of_passed (h : now.Orderly party)
    (hmove : Entry.Move (party i) now.region (now.entry i) deeds region turn)
    (hpassed : .passed ∈ deeds) : Laid party now.log := by
  have hfits := h.fits i
  generalize now.entry i = entry at hmove hfits
  cases hmove with
  | pass hready => exact h.laid (eq_of_beq hready)
  | putBack => exact h.laid hfits
  | _ => simp at hpassed

theorem fresh : (Opening.fresh : Opening π).Orderly party where
  fits _ := trivial
  gate_ready h := absurd rfl h
  builder_unique _ _ h := h.elim
  setUps_eq_zero _ := rfl
  setUps_le := Nat.zero_le _
  laid h := nomatch h
  laid_before later earlier i h := by
    cases later <;> cases h

end Orderly

variable [DecidableEq π]

/-- One that builds after a step has built before, unless the region was fresh. -/
theorem isBuilding_put (hmove : Entry.Move (party i) now.region (now.entry i) deeds region turn)
    {j : π} (hbuilding : ((now.put i deeds region turn).entry j).IsBuilding) :
    (now.entry j).IsBuilding ∨ (j = i ∧ now.region.readiness = .fresh) := by
  by_cases hj : j = i
  · subst hj
    rw [entry_put] at hbuilding
    exact (hmove.isBuilding hbuilding).imp_right fun hfresh => ⟨rfl, hfresh⟩
  · rw [entry_put_of_ne _ _ _ _ hj] at hbuilding
    exact .inl hbuilding

namespace Orderly

/-- Wherever a process stood, its place is still allowed after an access of any other. -/
theorem fits_put (h : now.Orderly party)
    (hmove : Entry.Move (party i) now.region (now.entry i) deeds region turn) (j : π) :
    ((now.put i deeds region turn).entry j).Fits (party j) region.readiness
      fun deed => (j, deed) ∈ (now.put i deeds region turn).log := by
  have hmore : ∀ deed, (j, deed) ∈ now.log → (j, deed) ∈ (now.put i deeds region turn).log :=
    fun deed hmem => (mem_log_put _ _ _ _).2 (.inr hmem)
  by_cases hj : j = i
  · subst hj
    rw [entry_put]
    exact hmove.fits (h.fits j) h.gate_ready hmore fun deed hmem =>
      (mem_log_put _ _ _ _).2 (.inl ⟨rfl, hmem⟩)
  · rw [entry_put_of_ne _ _ _ _ hj]
    have hfits := h.fits j
    rcases hmove.readiness_cases with hsame | ⟨hfresh, -, -⟩ | ⟨hlaying, hready⟩
    · rw [hsame]
      exact hfits.mono hmore
    · rw [hfresh] at hfits
      exact (hfits.of_fresh region.readiness).2.mono hmore
    · have hbuilding : ¬ (now.entry j).IsBuilding := by
        intro hbuilding
        refine hj (h.builder_unique j i hbuilding ?_)
        rw [hlaying]
        trivial
      rw [hready]
      exact (hfits.of_ready hbuilding).mono hmore

/-- And there is still one at most that is building. -/
theorem unique_put (h : now.Orderly party)
    (hmove : Entry.Move (party i) now.region (now.entry i) deeds region turn) (j k : π)
    (hj : ((now.put i deeds region turn).entry j).IsBuilding)
    (hk : ((now.put i deeds region turn).entry k).IsBuilding) : j = k := by
  rcases isBuilding_put hmove hj with hj | ⟨rfl, hfresh⟩
  · rcases isBuilding_put hmove hk with hk | ⟨-, hfresh⟩
    · exact h.builder_unique j k hj hk
    · exact absurd hj (h.not_isBuilding hfresh j)
  · rcases isBuilding_put hmove hk with hk | ⟨rfl, -⟩
    · exact absurd hk (h.not_isBuilding hfresh k)
    · rfl

/-- Nothing is set up while somebody builds. -/
theorem setUps_put (h : now.Orderly party)
    (hmove : Entry.Move (party i) now.region (now.entry i) deeds region turn)
    (hbuilding : region.readiness = .fresh ∨
      ∃ j, ((now.put i deeds region turn).entry j).IsBuilding) :
    setUps (now.put i deeds region turn).log = 0 := by
  have hfresh : region.readiness = .fresh → now.region.readiness = .fresh := by
    intro hfresh
    rcases hmove.readiness_cases with hsame | ⟨hfresh, -, -⟩ | ⟨-, hready⟩
    · rw [← hsame, hfresh]
    · exact hfresh
    · exact absurd (hready.symm.trans hfresh) (by decide)
  have hbefore : now.region.readiness = .fresh ∨ ∃ j, (now.entry j).IsBuilding := by
    rcases hbuilding with hregion | ⟨j, hj⟩
    · exact .inl (hfresh hregion)
    · rcases isBuilding_put hmove hj with hj | ⟨-, hnow⟩
      · exact .inr ⟨j, hj⟩
      · exact .inl hnow
  rcases setUps_append hmove with hsame | ⟨hopening, hturn, -⟩
  · exact hsame.trans (h.setUps_eq_zero hbefore)
  · -- the one that opens the gate was the one that built, and it builds no longer
    have hopened : (now.entry i).IsBuilding := by
      rw [hopening]
      trivial
    rcases hbuilding with hregion | ⟨j, hj⟩
    · exact absurd hopened (h.not_isBuilding (hfresh hregion) i)
    · rcases isBuilding_put hmove hj with hjnow | ⟨-, hnow⟩
      · obtain rfl := h.builder_unique j i hjnow hopened
        rw [entry_put] at hj
        exact absurd hj hturn
      · exact absurd hopened (h.not_isBuilding hnow i)

/-- An access keeps the order. -/
theorem put (h : now.Orderly party)
    (hmove : Entry.Move (party i) now.region (now.entry i) deeds region turn) :
    (now.put i deeds region turn).Orderly party where
  fits := h.fits_put hmove
  gate_ready := hmove.gate_ready (h.fits i) h.gate_ready
  builder_unique := h.unique_put hmove
  setUps_eq_zero := h.setUps_put hmove
  setUps_le := by
    rcases setUps_append hmove with hsame | ⟨hopening, -, hone⟩
    · exact Nat.le_trans (Nat.le_of_eq hsame) h.setUps_le
    · -- nobody else has opened the gate before
      have hzero : setUps now.log = 0 := by
        refine h.setUps_eq_zero (.inr ⟨i, ?_⟩)
        rw [hopening]
        trivial
      exact Nat.le_of_eq (hone.trans (congrArg Nat.succ hzero))
  laid hready := (h.laid_put hmove hready).mono fun event hevent => List.mem_append_right _ hevent
  laid_before later earlier j hlog := by
    rcases hmove.deeds_cases with rfl | ⟨deed, rfl⟩
    · exact h.laid_before later earlier j hlog
    · cases later with
      | nil =>
        obtain ⟨hevent, rfl⟩ := List.cons.inj hlog
        obtain ⟨-, rfl⟩ := Prod.mk.inj hevent
        exact h.laid_of_passed hmove List.mem_cons_self
      | cons event later =>
        obtain ⟨-, hlog⟩ := List.cons.inj hlog
        exact h.laid_before later earlier j hlog

end Orderly

/-- So the order is kept for ever. -/
theorem Reachable.orderly (h : Reachable party now) : now.Orderly party := by
  induction h with
  | fresh => exact .fresh
  | step _ hstep ih =>
    obtain ⟨i, hmove⟩ := hstep
    exact ih.put hmove

/-! ## Limits

Every limit that has been stored is that of a party, and the one that was stored last stands in the
region. So a process that joins starts with the limit of somebody. -/

/-- Every limit that was stored is one that somebody has, and the last one stands in the region. -/
structure Limited (party : π → Party) (now : Opening π) : Prop where
  /-- A limit is stored by the process that claimed the region, or by a monitor. -/
  stored : ∀ j word, (j, .stored (.limit word)) ∈ now.log →
    word = (party j).limitWord ∧ ((j, .claimed) ∈ now.log ∨ (party j).isMonitor)
  /-- The one in the region is one of them. -/
  last : (∃ j word, (j, .stored (.limit word)) ∈ now.log) →
    ∃ j, (j, .stored (.limit now.region.limitWord)) ∈ now.log
  /-- Who has joined has begun with the tokens of one. -/
  joined : ∀ i tokens, now.entry i = .joined tokens →
    ∃ j, (j, .stored (.limit (party j).limitWord)) ∈ now.log ∧
      tokens = atLeast 0 (party j).limitWord

namespace Limited

omit [DecidableEq π] in
/-- A process stores its own limit. -/
theorem stored_of_move (h : now.Orderly party)
    (hmove : Entry.Move (party i) now.region (now.entry i) deeds region turn) {word : Int32}
    (hdeed : .stored (.limit word) ∈ deeds) :
    word = (party i).limitWord ∧ ((i, .claimed) ∈ now.log ∨ (party i).isMonitor) := by
  have hfits := h.fits i
  obtain ⟨rest, -, -, hentry | hentry⟩ := hmove.stored hdeed
  · rw [hentry] at hfits
    obtain ⟨-, hclaimed, hrest, -⟩ := hfits
    exact ⟨Party.eq_of_limit_mem_first (hrest _ List.mem_cons_self), .inl hclaimed⟩
  · rw [hentry] at hfits
    obtain ⟨-, hmonitor, hrest⟩ := hfits
    exact ⟨hrest _ List.mem_cons_self, .inr hmonitor⟩

omit [DecidableEq π] in
/-- Once the region is ready, the limit in it is somebody's. -/
theorem exists_of_laid (h : now.Limited party) (hlaid : Laid party now.log) :
    ∃ j, (j, .stored (.limit (party j).limitWord)) ∈ now.log ∧
      now.region.limitWord = (party j).limitWord := by
  obtain ⟨w, -, hstored⟩ := hlaid
  obtain ⟨j, hlast⟩ := h.last ⟨w, _, hstored _ (party w).limit_mem_first⟩
  have hword := (h.stored j _ hlast).1
  exact ⟨j, hword ▸ hlast, hword⟩

/-- An access stores the limit of its own party, or leaves it. -/
theorem put (h : now.Limited party) (horderly : now.Orderly party)
    (hmove : Entry.Move (party i) now.region (now.entry i) deeds region turn) :
    (now.put i deeds region turn).Limited party := by
  have hmore : ∀ event ∈ now.log, event ∈ (now.put i deeds region turn).log :=
    fun event hevent => List.mem_append_right _ hevent
  constructor
  · intro j word hmem
    rcases (mem_log_put _ _ _ _).1 hmem with ⟨rfl, hdeed⟩ | hmem
    · obtain ⟨hword, hwriter⟩ := stored_of_move horderly hmove hdeed
      exact ⟨hword, hwriter.imp_left (hmore _)⟩
    · obtain ⟨hword, hwriter⟩ := h.stored j word hmem
      exact ⟨hword, hwriter.imp_left (hmore _)⟩
  · rintro ⟨j, word, hmem⟩
    rcases hmove.limitWord_cases with ⟨hsame, hnone⟩ | hdeeds
    · rcases (mem_log_put _ _ _ _).1 hmem with ⟨-, hdeed⟩ | hmem
      · exact absurd hdeed (hnone word)
      · obtain ⟨k, hlast⟩ := h.last ⟨j, word, hmem⟩
        refine ⟨k, hmore _ ?_⟩
        change (k, Deed.stored (.limit region.limitWord)) ∈ now.log
        rwa [hsame]
    · refine ⟨i, (mem_log_put _ _ _ _).2 (.inl ⟨rfl, ?_⟩)⟩
      rw [hdeeds]
      exact List.mem_cons_self
  · intro j tokens hjoined
    by_cases hj : j = i
    · subst hj
      rw [entry_put] at hjoined
      obtain ⟨hinside, rfl⟩ := hmove.joined hjoined
      have hready := horderly.fits j
      rw [hinside] at hready
      obtain ⟨k, hstored, hword⟩ := h.exists_of_laid (horderly.laid hready)
      exact ⟨k, hmore _ hstored, congrArg (atLeast 0) hword⟩
    · rw [entry_put_of_ne _ _ _ _ hj] at hjoined
      obtain ⟨k, hstored, htokens⟩ := h.joined j tokens hjoined
      exact ⟨k, hmore _ hstored, htokens⟩

omit [DecidableEq π] in
theorem fresh : (Opening.fresh : Opening π).Limited party where
  stored _ _ h := nomatch h
  last h := by
    obtain ⟨j, word, hmem⟩ := h
    cases hmem
  joined _ _ h := nomatch h

end Limited

/-- What is stored last stays the limit, whatever comes about. -/
theorem Reachable.limited (h : Reachable party now) : now.Limited party := by
  induction h with
  | fresh => exact .fresh
  | step hreach hstep ih =>
    obtain ⟨i, hmove⟩ := hstep
    exact ih.put hreach.orderly hmove

/-! ## The only monitor

Where one party is a monitor and no other, nobody stores a limit behind it: the others store theirs
only while the region is being set up, and that comes first. -/

/-- While nobody else adopts a limit, the limit of the only monitor stays once it is stored. -/
theorem Reachable.settles (h : Reachable party now) {m : π}
    (honly : ∀ i, (party i).isMonitor ↔ i = m) :
    (now.entry m).Settles (party m).limitWord now.region.limitWord := by
  induction h with
  | fresh => trivial
  | @step before _ hreach hstep ih =>
    obtain ⟨i, hmove⟩ := hstep
    have horderly := hreach.orderly
    by_cases him : i = m
    · subst him
      rw [entry_put]
      exact hmove.settles (horderly.fits i) ih
    · rw [entry_put_of_ne _ _ _ _ (Ne.symm him)]
      have hfits := horderly.fits i
      rcases hmove.limitWord_cases with ⟨hsame, -⟩ | hdeeds
      · exact hsame ▸ ih
      · obtain ⟨rest, -, -, hentry | hentry⟩ := hmove.stored (hdeeds ▸ List.mem_cons_self)
        · -- somebody else writes the first parameters, so the monitor has stored nothing yet
          rw [hentry] at hfits
          have hmonitor := horderly.fits m
          rw [hfits.1] at hmonitor
          refine hmonitor.settles (fun hbuilding => him ?_) _ _
          refine horderly.builder_unique i m ?_ hbuilding
          rw [hentry]
          trivial
        · rw [hentry] at hfits
          exact absurd ((honly i).1 hfits.2.1) him

/-! ## The result

All three parts are read off the invariants, for a process that has come to the point in question: a
standing wait, a process with its tokens, a monitor that is done. -/

/-- **A region is ready in time.** One set-up at most returns that it was the first. No wait for the
first parameters returns before all of them are stored. A process under a quota starts with the
limit that the first process or a monitor has stored, and not with the zero of a fresh region. And
where one monitor takes part, its limit stands in the region when it is done. -/
theorem Reachable.ready_in_time (h : Reachable party now)
    (hsign : ∀ i, (party i).quota.percent.toNat < 2 ^ 31) :
    setUps now.log ≤ 1 ∧
    (∀ later earlier i, now.log = later ++ (i, .passed) :: earlier →
      ∃ w, (w, .claimed) ∈ earlier ∧ ∀ word ∈ (party w).first, (w, .stored word) ∈ earlier) ∧
    (∀ i tokens, now.entry i = .joined tokens →
      ∃ j, ((j, .claimed) ∈ now.log ∨ (party j).isMonitor) ∧
        (j, .stored (.limit (party j).limitWord)) ∈ now.log ∧
        tokens = (party j).quota.percent ∧ ((∀ k, (party k).quota.percent ≠ 0) → tokens ≠ 0)) ∧
    ∀ m, (∀ i, (party i).isMonitor ↔ i = m) → now.entry m = .attached →
      now.region.limit = (party m).quota.percent := by
  refine ⟨h.orderly.setUps_le, h.orderly.laid_before, ?_, ?_⟩
  · intro i tokens hjoined
    obtain ⟨j, hstored, htokens⟩ := h.limited.joined i tokens hjoined
    rw [Party.limitWord, atLeast_toInt32 (hsign j)] at htokens
    refine ⟨j, (h.limited.stored j _ hstored).2, hstored, htokens, ?_⟩
    intro hnonzero
    rw [htokens]
    exact hnonzero j
  · intro m honly hattached
    have hsettles := h.settles honly
    rw [hattached] at hsettles
    have hlimit : now.region.limitWord = (party m).limitWord := hsettles
    rw [TokenRegion.limit, hlimit, Party.limitWord, atLeast_toInt32 (hsign m)]

/-- A process with a quota of 80 waits at the gate of a fresh region until a monitor with a quota of
50 has taken it over. -/
theorem ready_in_time_of_waiting :
    ∃ (party : Fin 2 → Party) (now : Opening (Fin 2)), Reachable party now ∧
      (∀ i, (party i).quota.percent.toNat < 2 ^ 31) ∧ (∀ i, (party i).isMonitor ↔ i = 1) ∧
      now.entry 0 = .joined 50 ∧ now.entry 1 = .attached ∧
      setUps now.log ≤ 1 ∧ now.region.limit = (party 1).quota.percent := by
  let party : Fin 2 → Party := fun i => if i = 0 then ⟨false, {}, ⟨0, 80⟩⟩ else ⟨true, {}, ⟨0, 50⟩⟩
  let ready : TokenRegion := (TokenRegion.justSetUp 50 (ThrottleConfig.waitIntervalNs {})).publish
  have hsign : ∀ i, (party i).quota.percent.toNat < 2 ^ 31 := by decide
  have honly : ∀ i, (party i).isMonitor ↔ i = 1 := by decide
  -- the process comes to the gate
  have hwait : Entry.Moves (party 0) ({}, .outside) ({}, .waiting) :=
    (Entry.Moves.single (.come (by decide))).tail (.wait (by decide))
  obtain ⟨one, hone, hregion, hentry⟩ := steps_of_moves (fresh : Opening (Fin 2)) 0 hwait
  -- the monitor takes the region over
  have htakeOver : Monitor.takeOver? {} (party 1).config (party 1).quota = some (.ok ready) := rfl
  have hattach : Entry.Moves (party 1) ({}, .outside) (ready, .attached) := by
    obtain ⟨after, heq, hmoves⟩ | ⟨fault, _, heq, _⟩ := Entry.Moves.takeOver (by decide) htakeOver
    · obtain rfl := Except.ok.inj heq
      exact hmoves
    · cases heq
  have hsecond : Entry.Moves (party 1) (one.region, one.entry 1) (ready, .attached) := by
    rw [hregion, hentry]
    exact hattach
  obtain ⟨two, htwo, hready, hattached⟩ := steps_of_moves one 1 hsecond
  -- the gate is open, and the process goes on
  have hjoin : Entry.Moves (party 0) (ready, .waiting) (ready, .joined 50) :=
    ((Entry.Moves.single (.take rfl)).tail (.putBack rfl)).tail (.join (by decide))
  have hthird : Entry.Moves (party 0) (two.region, two.entry 0) (ready, .joined 50) := by
    rw [hready, hattached, hentry]
    exact hjoin
  obtain ⟨three, hthree, -, hjoined⟩ := steps_of_moves two 0 hthird
  have hreach : Reachable party three :=
    ((Reachable.fresh.steps hone).steps htwo).steps hthree
  have hentries : three.entry 0 = .joined 50 ∧ three.entry 1 = .attached := by
    rw [hjoined, hattached]
    exact ⟨rfl, rfl⟩
  obtain ⟨hsetUps, -, -, hmonitor⟩ := hreach.ready_in_time hsign
  exact ⟨party, three, hreach, hsign, honly, hentries.1, hentries.2, hsetUps,
    hmonitor 1 honly hentries.2⟩

end Opening

end GpuQuota.Pacing
