import GpuQuota.Proofs.Pacing.Readiness
import Mathlib.Data.Set.Card
import Mathlib.Tactic.Ring

/-!
# Nobody is left at the gate

The first process opens the gate of a region by a single post, however many wait there. Whoever
takes the gate's token puts it back before going inside, so the token is passed on from one to the
next.

* `Entry.Move.tokens_eq` says where the token goes in one step: a step that is not the opening moves
  it between the gate and the hands of a process;
* `Opening.Reachable.tokens_eq` counts it over all processes: there are as many tokens as the gate
  has been opened, which is once at most;
* `Opening.Reachable.gate_relayed` is what follows: after the opening the token is at the gate or in
  the hands of one process, and everybody who waits can still come inside.
-/

namespace GpuQuota

namespace Shared.Semaphore

theorem count_wait? {semaphore after : Semaphore} (h : semaphore.wait? = some after) :
    after.count + 1 = semaphore.count := by
  rw [wait?, tryWait] at h
  split at h
  · next hwait =>
    split at hwait
    · cases hwait
    · obtain rfl := Option.some.inj h
      obtain ⟨-, rfl⟩ := Prod.mk.inj hwait
      dsimp only
      omega
  · cases h

theorem wait?_of_pos {semaphore : Semaphore} (h : 0 < semaphore.count) :
    semaphore.wait? = some ⟨semaphore.count - 1⟩ := by
  rw [wait?, tryWait, if_neg (Nat.ne_of_gt h)]

theorem post_of_lt {semaphore : Semaphore} (h : semaphore.count < largest) :
    semaphore.post = .ok ⟨semaphore.count + 1⟩ := if_pos h

end Shared.Semaphore

namespace Pacing

open GpuQuota.Settings GpuQuota.Shared

/-! ## One process

The token is at the gate or with the process, and a step either moves it or leaves it where it is.
-/

namespace Entry

/-- The tokens of the gate that a process has in its hands. -/
def tokens : Entry → ℕ
  | .passing => 1
  | _ => 0

/-- A process has the token only while it goes through the gate. -/
theorem tokens_eq_zero {entry : Entry} (h : entry ≠ .passing) : entry.tokens = 0 := by
  cases entry with
  | passing => exact absurd rfl h
  | _ => rfl

/-- Only the opening brings a token in, and while the gate has room none is lost. -/
theorem Move.tokens_eq {party : Party} {region after : TokenRegion} {entry turn : Entry}
    {deeds : List Deed} (h : Move party region entry deeds after turn)
    (hroom : region.gate.count < Semaphore.largest) :
    after.gate.count + turn.tokens = region.gate.count + entry.tokens + deeds.count .setUp := by
  -- only the operations on the gate touch it
  cases h with
  | claim _ hclaim =>
    obtain ⟨-, rfl⟩ := readiness_claim hclaim
    rfl
  | lay =>
    rw [TokenRegion.gate_store]
    rfl
  | adopt =>
    rw [TokenRegion.gate_store]
    rfl
  | openGate hpost =>
    have hcount := Semaphore.count_post hpost
    have htokens : (if party.isMonitor then Entry.republishing else .checking).tokens = 0 := by
      split <;> rfl
    rw [htokens]
    exact hcount
  | take htake => exact Semaphore.count_wait? htake
  | putBack hpost => exact Semaphore.count_post hpost
  | spill hpost =>
    rw [Semaphore.post_of_lt hroom] at hpost
    cases hpost
  | _ => rfl

end Entry

/-! ## All processes

Any number of processes may be there, so those that hold the token are counted as a set. One step
changes whether a single process belongs to it. -/

namespace Opening

variable {π : Type}

/-- The processes that have the gate's token in their hands. -/
def holders (now : Opening π) : Set π := {i | now.entry i = .passing}

variable [DecidableEq π]

/-- What one process has in its hands, and what all others have. -/
theorem encard_passing (entry : π → Entry) (i : π) (turn : Entry) :
    {j | Function.update entry i turn j = .passing}.encard =
      {j | j ≠ i ∧ entry j = .passing}.encard + turn.tokens := by
  by_cases hturn : turn = .passing
  · have hset : {j | Function.update entry i turn j = .passing} =
        insert i {j | j ≠ i ∧ entry j = .passing} := by
      ext j
      by_cases hj : j = i
      · simp [hj, hturn]
      · simp [hj]
    rw [hset, Set.encard_insert_of_notMem fun hmem => hmem.1 rfl, hturn]
    rfl
  · have hset : {j | Function.update entry i turn j = .passing} =
        {j | j ≠ i ∧ entry j = .passing} := by
      ext j
      by_cases hj : j = i
      · simp [hj, hturn]
      · simp [hj]
    rw [hset, Entry.tokens_eq_zero hturn, Nat.cast_zero, add_zero]

variable {party : π → Party} {now : Opening π}
variable {i : π} {region : TokenRegion} {turn : Entry} {deeds : List Deed}

omit [DecidableEq π] in
theorem setUps_deeds (log : List (π × Deed)) :
    setUps (deeds.map (Prod.mk i) ++ log) = setUps log + deeds.count .setUp := by
  rw [setUps, List.countP_append, List.countP_map, Nat.add_comm]
  rfl

/-- A step of one process moves a token between the gate and its hands. -/
theorem tokens_put (hmove : Entry.Move (party i) now.region (now.entry i) deeds region turn)
    (hroom : now.region.gate.count < Semaphore.largest) :
    (region.gate.count : ℕ∞) + (now.put i deeds region turn).holders.encard =
      now.region.gate.count + now.holders.encard + deeds.count .setUp := by
  have hmoved := congrArg (Nat.cast : ℕ → ℕ∞) (hmove.tokens_eq hroom)
  push_cast at hmoved
  have hafter : (now.put i deeds region turn).holders.encard =
      {j | j ≠ i ∧ now.entry j = .passing}.encard + turn.tokens := encard_passing now.entry i turn
  have hbefore : now.holders.encard =
      {j | j ≠ i ∧ now.entry j = .passing}.encard + (now.entry i).tokens := by
    rw [← encard_passing now.entry i (now.entry i), Function.update_eq_self]
    rfl
  calc (region.gate.count : ℕ∞) + (now.put i deeds region turn).holders.encard
      = {j | j ≠ i ∧ now.entry j = .passing}.encard + (region.gate.count + turn.tokens) := by
        rw [hafter]
        ring
    _ = now.region.gate.count + now.holders.encard + deeds.count .setUp := by
        rw [hmoved, hbefore]
        ring

omit [DecidableEq π] in
/-- There is one token at most, so the gate has room. -/
theorem count_le_one (horderly : now.Orderly party)
    (htokens : (now.region.gate.count : ℕ∞) + now.holders.encard = setUps now.log) :
    now.region.gate.count ≤ 1 := by
  have hle : (now.region.gate.count : ℕ∞) ≤ setUps now.log := htokens ▸ le_self_add
  exact (Nat.cast_le.1 hle).trans horderly.setUps_le

/-- **Tokens are neither lost nor made.** The gate and all hands have one for each opening. -/
theorem Reachable.tokens_eq (h : Reachable party now) :
    (now.region.gate.count : ℕ∞) + now.holders.encard = setUps now.log := by
  induction h with
  | fresh => simp [Opening.fresh, holders, setUps]
  | step hreach hstep ih =>
    obtain ⟨i, hmove⟩ := hstep
    have hroom := (count_le_one hreach.orderly ih).trans_lt (by decide : 1 < Semaphore.largest)
    refine (tokens_put hmove hroom).trans ?_
    rw [ih, put, setUps_deeds]
    push_cast
    rfl

/-! ## After the opening

Nobody who waits is cut off, for whoever has the token can put it back. -/

variable (party) in
/-- Somebody who waits comes inside once the token is at the gate. -/
theorem exists_inside_of_count (hcount : now.region.gate.count = 1)
    (hwaiting : now.entry i = .waiting) :
    ∃ next, Relation.ReflTransGen (Step party) now next ∧ next.entry i = .inside := by
  have htake : now.region.gate.wait? = some ⟨0⟩ := by
    rw [Semaphore.wait?_of_pos (by omega), hcount]
  have hmoves : Entry.Moves (party i) (now.region, now.entry i)
      ({ now.region with gate := ⟨1⟩ }, .inside) := by
    rw [hwaiting]
    exact (Entry.Moves.single (.take htake)).tail (.putBack rfl)
  obtain ⟨next, hsteps, -, hentry⟩ := steps_of_moves now i hmoves
  refine ⟨next, hsteps, ?_⟩
  rw [hentry, Function.update_self]

/-- Somebody who waits comes inside even if another one has the token. -/
theorem Reachable.exists_inside (h : Reachable party now) (hopened : setUps now.log ≠ 0)
    (hwaiting : now.entry i = .waiting) :
    ∃ next, Relation.ReflTransGen (Step party) now next ∧ next.entry i = .inside := by
  have htokens := h.tokens_eq
  have hle := count_le_one h.orderly htokens
  rcases Nat.eq_zero_or_pos now.region.gate.count with hzero | hpos
  · -- the holder puts the token back first
    obtain ⟨j, hj⟩ : now.holders.Nonempty := by
      rw [Set.nonempty_iff_ne_empty, Ne, ← Set.encard_eq_zero]
      intro hnone
      rw [hzero, hnone, Nat.cast_zero, zero_add] at htokens
      exact hopened (Nat.cast_eq_zero.1 htokens.symm)
    have hput : now.region.gate.post = .ok ⟨1⟩ := by
      rw [Semaphore.post_of_lt (by rw [hzero]; decide), hzero]
    have hmoves : Entry.Moves (party j) (now.region, now.entry j)
        ({ now.region with gate := ⟨1⟩ }, .inside) := by
      rw [show now.entry j = .passing from hj]
      exact Entry.Moves.single (.putBack hput)
    obtain ⟨given, hsteps, hregion, hentry⟩ := steps_of_moves now j hmoves
    have hji : i ≠ j := by
      rintro rfl
      exact nomatch hwaiting.symm.trans hj
    have hstill : given.entry i = .waiting := by
      rw [hentry, Function.update_of_ne hji, hwaiting]
    have hcount : given.region.gate.count = 1 := by
      rw [hregion]
    obtain ⟨next, hrest, hinside⟩ := exists_inside_of_count party hcount hstill
    exact ⟨next, hsteps.trans hrest, hinside⟩
  · exact exists_inside_of_count party (by omega) hwaiting

/-- **Nobody is left at the gate.** Before the first process opens the gate, no token is there and
nobody has one in its hands. From then on there is exactly one, at the gate or in the hands of a
process that is about to put it back: a process that waits at an empty gate waits for another one to
do so, and where nobody has the token in its hands it is at the gate for those who come later. So
everybody who waits can come inside. -/
theorem Reachable.gate_relayed (h : Reachable party now) :
    (setUps now.log = 0 → now.region.gate.count = 0 ∧ ∀ i, now.entry i ≠ .passing) ∧
    (setUps now.log ≠ 0 →
      (now.region.gate.count : ℕ∞) + now.holders.encard = 1 ∧
      (∀ i, now.entry i = .waiting → now.region.gate.count = 0 → ∃ j, now.entry j = .passing) ∧
      ((∀ i, now.entry i ≠ .passing) → now.region.gate.count = 1) ∧
      ∀ i, now.entry i = .waiting →
        ∃ next, Relation.ReflTransGen (Step party) now next ∧ next.entry i = .inside) := by
  have htokens := h.tokens_eq
  refine ⟨?_, ?_⟩
  · intro hclosed
    rw [hclosed, Nat.cast_zero, add_eq_zero, Nat.cast_eq_zero, Set.encard_eq_zero] at htokens
    exact ⟨htokens.1, fun i hi => Set.eq_empty_iff_forall_notMem.1 htokens.2 i hi⟩
  · intro hopened
    have hone : setUps now.log = 1 :=
      Nat.le_antisymm h.orderly.setUps_le (Nat.one_le_iff_ne_zero.2 hopened)
    rw [hone, Nat.cast_one] at htokens
    -- the token is at the gate where nobody has it in its hands
    have hgate : (∀ i, now.entry i ≠ .passing) → now.region.gate.count = 1 := by
      intro hnobody
      have hempty : now.holders = ∅ := Set.eq_empty_iff_forall_notMem.2 hnobody
      rw [hempty, Set.encard_empty, add_zero] at htokens
      exact_mod_cast htokens
    refine ⟨htokens, ?_, hgate, fun i => h.exists_inside hopened⟩
    intro i _ hzero
    by_contra! hnobody
    rw [hgate hnobody] at hzero
    cases hzero

/-- Two processes wait at the gate of a fresh region, a monitor opens it, and one of the two has
taken the token: the other can come inside nevertheless. -/
theorem gate_relayed_of_taken :
    ∃ (party : Fin 3 → Party) (now : Opening (Fin 3)), Reachable party now ∧
      now.region.gate.count = 0 ∧ now.entry 0 = .passing ∧ now.entry 1 = .waiting ∧
      (now.region.gate.count : ℕ∞) + now.holders.encard = 1 ∧
      ∃ next, Relation.ReflTransGen (Step party) now next ∧ next.entry 1 = .inside := by
  let party : Fin 3 → Party := fun i => if i = 2 then ⟨true, {}, ⟨0, 50⟩⟩ else ⟨false, {}, ⟨0, 80⟩⟩
  let ready : TokenRegion := (TokenRegion.justSetUp 50 (ThrottleConfig.waitIntervalNs {})).publish
  -- both processes come to the gate
  have hfirst : Entry.Moves (party 0) ({}, .outside) ({}, .waiting) :=
    (Entry.Moves.single (.come (by decide))).tail (.wait (by decide))
  obtain ⟨one, hone, hregion, hentry⟩ := steps_of_moves (fresh : Opening (Fin 3)) 0 hfirst
  have hsecond : Entry.Moves (party 1) (one.region, one.entry 1) ({}, .waiting) := by
    rw [hregion, hentry]
    exact (Entry.Moves.single (.come (by decide))).tail (.wait (by decide))
  obtain ⟨two, htwo, hregion, hentry'⟩ := steps_of_moves one 1 hsecond
  -- the monitor takes the region over
  have hattach : Entry.Moves (party 2) (two.region, two.entry 2) (ready, .attached) := by
    rw [hregion, hentry', hentry]
    exact .attach (by decide) rfl
  obtain ⟨three, hthree, hready, hattached⟩ := steps_of_moves two 2 hattach
  -- one of the two takes the token
  have htaken : Entry.Moves (party 0) (three.region, three.entry 0)
      ({ ready with gate := ⟨0⟩ }, .passing) := by
    rw [hready, hattached, hentry', hentry]
    exact Entry.Moves.single (.take rfl)
  obtain ⟨four, hfour, hgate, hpassing⟩ := steps_of_moves three 0 htaken
  have hreach : Reachable party four :=
    (((Reachable.fresh.steps hone).steps htwo).steps hthree).steps hfour
  have hentries : four.entry 0 = .passing ∧ four.entry 1 = .waiting := by
    rw [hpassing, hattached, hentry']
    exact ⟨rfl, rfl⟩
  obtain ⟨hclosed, hopen⟩ := hreach.gate_relayed
  have hopened : setUps four.log ≠ 0 := fun hzero => (hclosed hzero).2 0 hentries.1
  obtain ⟨htokens, -, -, hinside⟩ := hopen hopened
  refine ⟨party, four, hreach, ?_, hentries.1, hentries.2, htokens, hinside 1 hentries.2⟩
  rw [hgate]

end Opening

end Pacing

end GpuQuota
