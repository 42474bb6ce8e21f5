import GpuQuota.Proofs.Accounting.Balance
import Mathlib.Data.List.Nodup
import Mathlib.Logic.Function.Basic
import Mathlib.Logic.Relation

/-!
# Operations on the counter take effect one at a time

`Budget` treats each operation as one step. An operation really looks at the counter, works out what
to write, and tries to exchange the value that it saw for the new one; when the exchange fails, and
it may fail for no reason, it starts over with the value that it met. Here any number of threads do
so at once:

* `Attempt` is one access of one thread to the counter, `Contention.Step` lets one thread begin an
  operation, make an access or return;
* `Operation.law` says on natural numbers what an operation does where nothing else happens;
* `Sequential` are the lists of operations that the law explains one after the other.

Every operation takes effect in its last access (`Attempt.cases`): an exchange that succeeds finds
the value that the new one was worked out from, and a denial is decided on a value that the counter
has at that moment, be it loaded or met by a failed exchange. So the order of the last accesses
explains all answers and the counter (`Contention.Reachable.linearizable`), and a thread that nobody
disturbs does what `Budget.perform` does (`Contention.steps_perform`).
-/

namespace GpuQuota.Accounting

open GpuQuota.Number

/-! ## What an operation does by itself

The law speaks of natural numbers and the program of words. An operation is worked out on the word
that was seen, so each of the two is compared with the other once, and the steps of the threads only
refer to `next?`. -/

/-- What an operation returns: a reservation is granted or denied, the others return the counter
that they leave. -/
inductive Answer (κ : Type) where
  | granted (free : κ)
  | denied (free : κ)
  | moved (free : κ)
  deriving DecidableEq, Repr

/-- The answer with another kind of number. -/
def Answer.map {κ ν : Type} (f : κ → ν) : Answer κ → Answer ν
  | .granted free => .granted (f free)
  | .denied free => .denied (f free)
  | .moved free => .moved (f free)

/-- What an operation on a budget returns. -/
def Budget.reply (budget : Budget) : Budget.Operation → Answer UInt64
  | .reserve bytes =>
    match (budget.reserve bytes).1 with
    | .granted free => .granted free
    | .denied free => .denied free
  | .consume bytes => .moved (budget.consume bytes).free
  | .release bytes => .moved (budget.release bytes).free

namespace Budget.Operation

/-- The answer and the counter after an operation under a ceiling. -/
def law (total : ℕ) : Operation → ℕ → Answer ℕ × ℕ
  | .reserve bytes, free =>
    if bytes.toNat ≤ free then (.granted (free - bytes.toNat), free - bytes.toNat)
    else (.denied free, free)
  | .consume bytes, free => (.moved (free - bytes.toNat), free - bytes.toNat)
  | .release bytes, free =>
    (.moved (min (free + bytes.toNat) total), min (free + bytes.toNat) total)

/-- The word to write where `seen` was seen; none where a reservation does not fit. -/
def next? (total : UInt64) : Operation → UInt64 → Option UInt64
  | .reserve bytes, seen => if seen < bytes then none else some (seen - bytes)
  | .consume bytes, seen => some (saturatingSub seen bytes)
  | .release bytes, seen => some (min (saturatingAdd seen bytes) total)

/-- The answer of an operation that wrote `next`. -/
def answer : Operation → UInt64 → Answer UInt64
  | .reserve _, next => .granted next
  | .consume _, next => .moved next
  | .release _, next => .moved next

variable {total seen next : UInt64} {op : Operation}

/-- What is written is what the law says, and so is the answer to it. -/
theorem law_of_next? (h : op.next? total seen = some next) :
    op.law total.toNat seen.toNat = ((op.answer next).map UInt64.toNat, next.toNat) := by
  cases op with
  | reserve bytes =>
    rw [next?, Option.ite_none_left_eq_some, UInt64.not_lt] at h
    obtain ⟨hle, hnext⟩ := h
    obtain rfl := Option.some.inj hnext
    rw [law, if_pos (UInt64.le_iff_toNat_le.1 hle), ← UInt64.toNat_sub_of_le _ _ hle]
    rfl
  | consume bytes =>
    obtain rfl := Option.some.inj h
    rw [law, ← toNat_saturatingSub]
    rfl
  | release bytes =>
    obtain rfl := Option.some.inj h
    have hnext := Budget.toNat_release ⟨total, seen, 0⟩ bytes
    simp only at hnext
    rw [law, ← hnext]
    rfl

/-- Only a reservation that does not fit writes nothing. -/
theorem eq_reserve_of_next?_eq_none (h : op.next? total seen = none) :
    ∃ bytes, op = .reserve bytes ∧ seen < bytes := by
  cases op with
  | reserve bytes =>
    refine ⟨bytes, rfl, ?_⟩
    by_contra hlt
    rw [next?, if_neg hlt] at h
    cases h
  | consume bytes => cases h
  | release bytes => cases h

/-- Where nothing is to be written, the law denies. -/
theorem law_of_next?_eq_none (h : op.next? total seen = none) :
    op.law total.toNat seen.toNat = (.denied seen.toNat, seen.toNat) := by
  obtain ⟨bytes, rfl, hlt⟩ := eq_reserve_of_next?_eq_none h
  rw [law, if_neg (Nat.not_le.2 (UInt64.lt_iff_toNat_lt.1 hlt))]

/-- What is written is what `perform` leaves. -/
theorem perform_of_next? {budget : Budget} (h : op.next? budget.total budget.free = some next) :
    budget.perform op = { budget with free := next } ∧ budget.reply op = op.answer next := by
  cases op with
  | reserve bytes =>
    rw [next?, Option.ite_none_left_eq_some] at h
    obtain ⟨hfits, hnext⟩ := h
    obtain rfl := Option.some.inj hnext
    simp only [perform, reply, Budget.reserve, if_neg hfits, answer, and_self]
  | consume bytes =>
    obtain rfl := Option.some.inj h
    exact ⟨rfl, rfl⟩
  | release bytes =>
    obtain rfl := Option.some.inj h
    exact ⟨rfl, rfl⟩

/-- Where nothing is to be written, `perform` leaves the counter. -/
theorem perform_of_next?_eq_none {budget : Budget}
    (h : op.next? budget.total budget.free = none) :
    budget.perform op = budget ∧ budget.reply op = .denied budget.free := by
  obtain ⟨bytes, rfl, hlt⟩ := eq_reserve_of_next?_eq_none h
  simp only [perform, reply, Budget.reserve, if_pos hlt, and_self]

/-- The law keeps the counter below the ceiling. -/
theorem law_le {total free : ℕ} (h : free ≤ total) (op : Operation) :
    (op.law total free).2 ≤ total := by
  cases op with
  | reserve bytes =>
    rw [law]
    split <;> dsimp only <;> omega
  | consume bytes => exact Nat.le_trans (Nat.sub_le _ _) h
  | release bytes => exact Nat.min_le_right _ _

end Budget.Operation

/-! ## One thread

A failed exchange may be spurious, and it returns the value that it met. So after it a thread is
where it would be after a load. -/

/-- Where a thread is in an operation that began at a given time. -/
inductive Stand where
  /-- in no operation -/
  | idle
  /-- before the load -/
  | called (op : Budget.Operation) (began : ℕ)
  /-- `seen` was seen, and the thread is about to exchange it for `next` -/
  | trying (op : Budget.Operation) (began : ℕ) (seen next : UInt64)
  /-- decided and about to return -/
  | ending (op : Budget.Operation) (began : ℕ) (answer : Answer UInt64)
  deriving DecidableEq

namespace Stand

/-- When the operation began that a thread is in. -/
def began? : Stand → Option ℕ
  | .idle => none
  | .called _ began => some began
  | .trying _ began _ _ => some began
  | .ending _ began _ => some began

/-- What a thread is about to write was worked out from what it saw. -/
def Planned (total : UInt64) : Stand → Prop
  | .trying op _ seen next => op.next? total seen = some next
  | _ => True

/-- No operation of the thread is decided. -/
def Open : Stand → Prop
  | .ending _ _ _ => False
  | _ => True

/-- A thread goes on from the counter as it is. -/
def look (op : Budget.Operation) (began : ℕ) (budget : Budget) : Stand :=
  match op.next? budget.total budget.free with
  | some next => .trying op began budget.free next
  | none => .ending op began (.denied budget.free)

end Stand

/-- One step of one thread inside an operation. The ceiling never changes, so to read it is no step
of its own. -/
inductive Attempt (clock : ℕ) : Budget → Stand → Budget → Stand → Prop where
  /-- An operation begins. -/
  | call {budget : Budget} (op : Budget.Operation) :
      Attempt clock budget .idle budget (.called op clock)
  /-- The counter is loaded. -/
  | load {budget : Budget} {op : Budget.Operation} {began : ℕ} :
      Attempt clock budget (.called op began) budget (.look op began budget)
  /-- The counter is what was seen and is exchanged. -/
  | swap {budget : Budget} {op : Budget.Operation} {began : ℕ} {next : UInt64} :
      Attempt clock budget (.trying op began budget.free next) { budget with free := next }
        (.ending op began (op.answer next))
  /-- The exchange fails, whether or not the counter is what was seen, and meets the counter. -/
  | retry {budget : Budget} {op : Budget.Operation} {began : ℕ} {seen next : UInt64} :
      Attempt clock budget (.trying op began seen next) budget (.look op began budget)

namespace Attempt

variable {clock : ℕ} {budget after : Budget} {stand turn : Stand}

/-- Looking at the counter either leads on to an exchange or decides on a denial. -/
theorem look_cases (op : Budget.Operation) (began : ℕ) (budget : Budget) :
    (∃ next, op.next? budget.total budget.free = some next ∧
      Stand.look op began budget = .trying op began budget.free next) ∨
    (op.next? budget.total budget.free = none ∧
      Stand.look op began budget = .ending op began (.denied budget.free)) := by
  rw [Stand.look]
  cases hnext : op.next? budget.total budget.free with
  | some next => exact .inl ⟨next, rfl, rfl⟩
  | none => exact .inr ⟨rfl, rfl⟩

/-- **An operation takes effect in its last access**: a step either changes nothing for anybody
else, or it decides its operation, and then it does what the law says. -/
theorem cases (h : Attempt clock budget stand after turn) (hplanned : stand.Planned budget.total) :
    (after = budget ∧ turn.Planned budget.total ∧ turn.Open) ∨
    ∃ op began answer, turn = .ending op began answer ∧ stand.began? = some began ∧
      after.total = budget.total ∧ op.law budget.total.toNat budget.free.toNat =
        (answer.map UInt64.toNat, after.free.toNat) := by
  cases h with
  | call op => exact .inl ⟨rfl, trivial, trivial⟩
  | @load op began =>
    rcases look_cases op began budget with ⟨next, hnext, heq⟩ | ⟨hnext, heq⟩
    · rw [heq]
      exact .inl ⟨rfl, hnext, trivial⟩
    · exact .inr ⟨op, began, _, heq, rfl, rfl, Budget.Operation.law_of_next?_eq_none hnext⟩
  | @swap op began next =>
    -- what was seen is what the counter holds, so the plan fits the counter
    exact .inr ⟨op, began, _, rfl, rfl, rfl, Budget.Operation.law_of_next? hplanned⟩
  | @retry op began =>
    -- the exchange failed, and what it met is looked at as if it were loaded
    rcases look_cases op began budget with ⟨next, hnext, heq⟩ | ⟨hnext, heq⟩
    · rw [heq]
      exact .inl ⟨rfl, hnext, trivial⟩
    · exact .inr ⟨op, began, _, heq, rfl, rfl, Budget.Operation.law_of_next?_eq_none hnext⟩

theorem began?_look (op : Budget.Operation) (began : ℕ) (budget : Budget) :
    (Stand.look op began budget).began? = some began := by
  rcases look_cases op began budget with ⟨next, -, heq⟩ | ⟨-, heq⟩ <;> rw [heq] <;> rfl

/-- An operation keeps the time at which it began. -/
theorem began?_eq (h : Attempt clock budget stand after turn) :
    turn.began? = some (stand.began?.getD clock) := by
  cases h with
  | call => rfl
  | load => exact began?_look _ _ _
  | swap => rfl
  | retry => exact began?_look _ _ _

/-- A decided operation makes no further access. -/
theorem isOpen (h : Attempt clock budget stand after turn) : stand.Open := by
  cases h <;> trivial

end Attempt

/-! ## All threads

The clock counts steps. It is there only to tell which operations had returned before another one
began, since those must come before it in the order of effects. -/

/-- An operation that has taken effect. -/
@[ext] structure Act (τ : Type) where
  thread : τ
  op : Budget.Operation
  began : ℕ
  answer : Answer UInt64

/-- A budget, and the threads (`τ`) that work on it. -/
structure Contention (τ : Type) where
  /-- the counter that all of them share -/
  budget : Budget
  /-- the number of steps so far -/
  clock : ℕ
  /-- how far each thread has come with an operation -/
  stand : τ → Stand
  /-- what has returned and when, the newest first -/
  returned : List (Act τ × ℕ)

/-- The operations of a list happen one after the other, the newest first, and lead from a full
counter to `free`. -/
inductive Sequential {τ : Type} (total : ℕ) : List (Act τ) → ℕ → Prop where
  /-- Nothing has happened, and everything is free. -/
  | nil : Sequential total [] total
  /-- An operation answers as its law says, and leaves what its law says. -/
  | cons {acts : List (Act τ)} {act : Act τ} {free after : ℕ} : Sequential total acts free →
      act.op.law total free = (act.answer.map UInt64.toNat, after) →
      Sequential total (act :: acts) after

/-- In a list with the newest first, `early` comes before `late`. -/
def Precedes {α : Type} (acts : List α) (early late : α) : Prop := [late, early].Sublist acts

theorem Sequential.free_le {τ : Type} {total free : ℕ} {acts : List (Act τ)}
    (h : Sequential total acts free) : free ≤ total := by
  induction h with
  | nil => exact Nat.le_refl _
  | @cons acts act free after _ hlaw ih =>
    have hle := Budget.Operation.law_le ih act.op
    rwa [hlaw] at hle

namespace Precedes

variable {α : Type} {acts : List α} {early late : α}

theorem cons (h : Precedes acts early late) (act : α) : Precedes (act :: acts) early late :=
  List.Sublist.cons act h

theorem of_mem (h : early ∈ acts) (act : α) : Precedes (act :: acts) early act :=
  (List.singleton_sublist.2 h).cons_cons act

end Precedes

namespace Contention

variable {τ : Type} [DecidableEq τ]

/-- Nobody has begun anything. -/
def fresh (total : UInt64) (owner : Int32) : Contention τ where
  budget := .full total owner
  clock := 0
  stand _ := .idle
  returned := []

/-- An act has returned. -/
def HasReturned (now : Contention τ) (act : Act τ) : Prop := ∃ ended, (act, ended) ∈ now.returned

/-- A thread is about to return an act. -/
def IsEnding (now : Contention τ) (act : Act τ) : Prop :=
  now.stand act.thread = .ending act.op act.began act.answer

/-- A thread has made a step inside an operation. -/
def put (now : Contention τ) (t : τ) (budget : Budget) (stand : Stand) : Contention τ where
  budget := budget
  clock := now.clock + 1
  stand := Function.update now.stand t stand
  returned := now.returned

/-- A thread has returned an act. -/
def give (now : Contention τ) (act : Act τ) : Contention τ where
  budget := now.budget
  clock := now.clock + 1
  stand := Function.update now.stand act.thread .idle
  returned := (act, now.clock) :: now.returned

/-- One thread makes a step inside an operation, or returns. -/
inductive Step : Contention τ → Contention τ → Prop where
  /-- A thread begins an operation, or reads the counter, or tries to replace it. -/
  | attempt {now : Contention τ} (t : τ) {budget : Budget} {stand : Stand} :
      Attempt now.clock now.budget (now.stand t) budget stand → Step now (now.put t budget stand)
  /-- An operation that is at its end returns. -/
  | answer {now : Contention τ} (act : Act τ) : now.IsEnding act → Step now (now.give act)

/-- What can come about on a counter that starts at its ceiling. -/
inductive Reachable (total : UInt64) : Contention τ → Prop where
  | fresh (owner : Int32) : Reachable total (.fresh total owner)
  | step {now next : Contention τ} : Reachable total now → Step now next → Reachable total next

section Frame

variable (now : Contention τ) (t : τ) (budget : Budget) (stand : Stand)

@[simp] theorem stand_put : (now.put t budget stand).stand t = stand := Function.update_self _ _ _

theorem stand_put_of_ne {t other : τ} (h : other ≠ t) :
    (now.put t budget stand).stand other = now.stand other :=
  Function.update_of_ne h _ _

@[simp] theorem stand_give (act : Act τ) : (now.give act).stand act.thread = .idle :=
  Function.update_self _ _ _

theorem stand_give_of_ne {act : Act τ} {other : τ} (h : other ≠ act.thread) :
    (now.give act).stand other = now.stand other :=
  Function.update_of_ne h _ _

end Frame

/-! ### Times

What the clock says about operations is proved apart from their order: an act that is decided now is
not among those that have returned, and whatever has returned began before now. -/

/-- Nothing ended before it began, a thread began its operation after its last one ended, and all
of that is past. -/
structure Timed (now : Contention τ) : Prop where
  /-- What is under way began in the past. -/
  began_lt : ∀ t began, (now.stand t).began? = some began → began < now.clock
  began_lt_ended : ∀ act ended, (act, ended) ∈ now.returned → act.began < ended
  ended_lt : ∀ act ended, (act, ended) ∈ now.returned → ended < now.clock
  /-- A thread does one thing at a time. -/
  ended_lt_began : ∀ act ended began, (act, ended) ∈ now.returned →
    (now.stand act.thread).began? = some began → ended < began
  /-- No operation returns twice. -/
  returned_nodup : (now.returned.map Prod.fst).Nodup

variable {now next : Contention τ}

omit [DecidableEq τ] in
theorem timed_fresh (total : UInt64) (owner : Int32) :
    (fresh total owner : Contention τ).Timed where
  began_lt _ _ h := nomatch h
  began_lt_ended _ _ h := nomatch h
  ended_lt _ _ h := nomatch h
  ended_lt_began _ _ _ h := nomatch h
  returned_nodup := List.nodup_nil

omit [DecidableEq τ] in
/-- What a thread is at has not returned. -/
theorem Timed.not_hasReturned (h : now.Timed) {act : Act τ}
    (hstand : (now.stand act.thread).began? = some act.began) : ¬ now.HasReturned act := by
  rintro ⟨ended, hmem⟩
  have hended := h.began_lt_ended act ended hmem
  have hbegan := h.ended_lt_began act ended act.began hmem hstand
  omega

/-- A step inside an operation keeps the times; an operation that begins does so now. -/
theorem Timed.put (h : now.Timed) {t : τ} {budget : Budget} {stand : Stand}
    (hattempt : Attempt now.clock now.budget (now.stand t) budget stand) :
    (now.put t budget stand).Timed := by
  have hbegan := hattempt.began?_eq
  constructor
  · intro other began hstand
    by_cases ht : other = t
    · subst ht
      rw [stand_put, hbegan] at hstand
      obtain rfl := Option.some.inj hstand
      cases hold : (now.stand other).began? with
      | none => exact Nat.lt_succ_self _
      | some began => exact Nat.lt_succ_of_lt (h.began_lt other began hold)
    · rw [stand_put_of_ne _ _ _ ht] at hstand
      exact Nat.lt_succ_of_lt (h.began_lt other began hstand)
  · exact h.began_lt_ended
  · exact fun act ended hmem => Nat.lt_succ_of_lt (h.ended_lt act ended hmem)
  · intro act ended began hmem hstand
    by_cases ht : act.thread = t
    · subst ht
      rw [stand_put, hbegan] at hstand
      obtain rfl := Option.some.inj hstand
      cases hold : (now.stand act.thread).began? with
      | none => exact h.ended_lt act ended hmem
      | some began => exact h.ended_lt_began act ended began hmem hold
    · rw [stand_put_of_ne _ _ _ ht] at hstand
      exact h.ended_lt_began act ended began hmem hstand
  · exact h.returned_nodup

/-- A return keeps the times; it happens now, after its operation began. -/
theorem Timed.give (h : now.Timed) {act : Act τ} (hending : now.IsEnding act) :
    (now.give act).Timed := by
  have hbegan : (now.stand act.thread).began? = some act.began := by
    rw [hending]
    rfl
  constructor
  · intro other began hstand
    by_cases ht : other = act.thread
    · rw [ht, stand_give] at hstand
      cases hstand
    · rw [stand_give_of_ne _ ht] at hstand
      exact Nat.lt_succ_of_lt (h.began_lt other began hstand)
  · intro other ended hmem
    rcases List.mem_cons.1 hmem with heq | hmem
    · obtain ⟨rfl, rfl⟩ := Prod.mk.inj heq
      exact h.began_lt _ _ hbegan
    · exact h.began_lt_ended other ended hmem
  · intro other ended hmem
    rcases List.mem_cons.1 hmem with heq | hmem
    · obtain ⟨rfl, rfl⟩ := Prod.mk.inj heq
      exact Nat.lt_succ_self _
    · exact Nat.lt_succ_of_lt (h.ended_lt other ended hmem)
  · -- a thread that has returned has not begun anything else
    intro other ended began hmem hstand
    by_cases ht : other.thread = act.thread
    · rw [ht, stand_give] at hstand
      cases hstand
    · rcases List.mem_cons.1 hmem with heq | hmem
      · exact absurd (congrArg Act.thread (Prod.mk.inj heq).1) ht
      · rw [stand_give_of_ne _ ht] at hstand
        exact h.ended_lt_began other ended began hmem hstand
  · -- the same act cannot have returned before: its thread was still at it
    refine List.nodup_cons.2 ⟨?_, h.returned_nodup⟩
    intro hmem
    obtain ⟨⟨other, ended⟩, hreturned, rfl⟩ := List.mem_map.1 hmem
    exact h.not_hasReturned hbegan ⟨ended, hreturned⟩

/-! ### The order of effects

The order is that in which operations are decided, not that in which they begin or return. It grows
at its end only, by `Explains.decided`. -/

/-- The acts of a list, the newest first, are those that have taken effect, and they explain the
counter. -/
structure Explains (total : UInt64) (now : Contention τ) (acts : List (Act τ)) : Prop where
  total_eq : now.budget.total = total
  /-- What a thread is about to write was worked out from what it saw. -/
  planned : ∀ t, (now.stand t).Planned total
  /-- Nothing takes effect twice. -/
  nodup : acts.Nodup
  /-- All that has returned has taken effect, and so has what is at its end. -/
  mem_iff : ∀ act, act ∈ acts ↔ now.HasReturned act ∨ now.IsEnding act
  /-- One after the other they lead to the counter that is there. -/
  sequential : Sequential total.toNat acts now.budget.free.toNat
  /-- What ended before another began comes before it. -/
  precedes : ∀ early ended late, (early, ended) ∈ now.returned → late ∈ acts →
    ended < late.began → Precedes acts early late

variable {total : UInt64} {acts : List (Act τ)}

omit [DecidableEq τ] in
theorem explains_fresh (total : UInt64) (owner : Int32) :
    Explains total (fresh total owner : Contention τ) [] where
  total_eq := rfl
  planned _ := trivial
  nodup := List.nodup_nil
  mem_iff act := by
    constructor
    · intro hmem
      cases hmem
    · rintro (⟨ended, hmem⟩ | hending)
      · cases hmem
      · cases hending
  sequential := .nil
  precedes _ _ _ h := nomatch h

omit [DecidableEq τ] in
/-- A thread whose operation is not decided is not about to return. -/
theorem not_isEnding {act : Act τ} (h : (now.stand act.thread).Open) : ¬ now.IsEnding act := by
  intro hending
  rw [IsEnding] at hending
  rw [hending] at h
  exact h

theorem isEnding_put_of_ne {act : Act τ} {t : τ} (h : act.thread ≠ t) (budget : Budget)
    (stand : Stand) : (now.put t budget stand).IsEnding act ↔ now.IsEnding act := by
  rw [IsEnding, IsEnding, stand_put_of_ne _ _ _ h]

omit [DecidableEq τ] in
/-- A thread is about to return one act only. -/
theorem isEnding_iff {act other : Act τ} (hthread : other.thread = act.thread)
    (h : now.stand act.thread = .ending act.op act.began act.answer) :
    now.IsEnding other ↔ other = act := by
  rw [IsEnding, hthread, h]
  constructor
  · intro heq
    obtain ⟨hop, hbegan, hanswer⟩ := Stand.ending.inj heq
    exact Act.ext hthread hop.symm hbegan.symm hanswer.symm
  · rintro rfl
    rfl

/-- A step that decides nothing leaves the order alone. -/
theorem Explains.quiet (h : Explains total now acts) {t : τ} {stand : Stand}
    (hopen : (now.stand t).Open) (hturn : stand.Open) (hplanned : stand.Planned total) :
    Explains total (now.put t now.budget stand) acts where
  total_eq := h.total_eq
  planned other := by
    by_cases ht : other = t
    · rw [ht, stand_put]
      exact hplanned
    · rw [stand_put_of_ne _ _ _ ht]
      exact h.planned other
  nodup := h.nodup
  mem_iff act := by
    rw [h.mem_iff act]
    refine or_congr Iff.rfl ?_
    by_cases ht : act.thread = t
    · subst ht
      refine iff_of_false (not_isEnding hopen) (not_isEnding ?_)
      rwa [stand_put]
    · exact (isEnding_put_of_ne ht _ _).symm
  sequential := h.sequential
  precedes := h.precedes

/-- A step that decides an operation puts it behind all others. -/
theorem Explains.decided (h : Explains total now acts) (htimed : now.Timed) {act : Act τ}
    {budget : Budget} (hopen : (now.stand act.thread).Open)
    (hbegan : (now.stand act.thread).began? = some act.began) (htotal : budget.total = total)
    (hlaw : act.op.law total.toNat now.budget.free.toNat =
      (act.answer.map UInt64.toNat, budget.free.toNat)) :
    Explains total (now.put act.thread budget (.ending act.op act.began act.answer))
      (act :: acts) where
  total_eq := htotal
  planned other := by
    by_cases ht : other = act.thread
    · rw [ht, stand_put]
      trivial
    · rw [stand_put_of_ne _ _ _ ht]
      exact h.planned other
  nodup := by
    rw [List.nodup_cons, h.mem_iff act]
    exact ⟨not_or.2 ⟨htimed.not_hasReturned hbegan, not_isEnding hopen⟩, h.nodup⟩
  mem_iff other := by
    rw [List.mem_cons, h.mem_iff other]
    by_cases ht : other.thread = act.thread
    · -- the thread was at nothing that had taken effect, and now it is at this act
      have hone : (now.put act.thread budget (.ending act.op act.began act.answer)).IsEnding other ↔
          other = act := isEnding_iff ht (stand_put _ _ _ _)
      have hnone : ¬ now.IsEnding other := not_isEnding (by rwa [ht])
      rw [hone, or_iff_left hnone]
      exact or_comm
    · have hne : other ≠ act := fun heq => ht (congrArg Act.thread heq)
      rw [isEnding_put_of_ne ht, or_iff_right hne]
      exact Iff.rfl
  sequential := h.sequential.cons hlaw
  precedes early ended late hreturned hmem hlt := by
    rcases List.mem_cons.1 hmem with rfl | hmem
    · exact .of_mem ((h.mem_iff early).2 (.inl ⟨ended, hreturned⟩)) _
    · exact (h.precedes early ended late hreturned hmem hlt).cons _

/-- A return moves an act from those that are about to return to those that have. -/
theorem Explains.give (h : Explains total now acts) (htimed : now.Timed) {act : Act τ}
    (hending : now.IsEnding act) : Explains total (now.give act) acts where
  total_eq := h.total_eq
  planned other := by
    by_cases ht : other = act.thread
    · rw [ht, stand_give]
      trivial
    · rw [stand_give_of_ne _ ht]
      exact h.planned other
  nodup := h.nodup
  mem_iff other := by
    rw [h.mem_iff other]
    have hreturned : (now.give act).HasReturned other ↔ other = act ∨ now.HasReturned other := by
      simp only [HasReturned, Contention.give, List.mem_cons, Prod.mk.injEq, exists_or,
        exists_and_left, exists_eq, and_true]
    rw [hreturned]
    by_cases ht : other.thread = act.thread
    · have hone : now.IsEnding other ↔ other = act := isEnding_iff ht hending
      have hnone : ¬ (now.give act).IsEnding other := not_isEnding (by rw [ht, stand_give]; trivial)
      rw [hone, or_iff_left hnone]
      exact or_comm
    · have hne : other ≠ act := fun heq => ht (congrArg Act.thread heq)
      rw [IsEnding, IsEnding, stand_give_of_ne _ ht, or_iff_right hne]
  sequential := h.sequential
  precedes early ended late hreturned hmem hlt := by
    rcases List.mem_cons.1 hreturned with heq | hreturned
    · -- nothing has begun after a return that happens now
      obtain ⟨rfl, rfl⟩ := Prod.mk.inj heq
      rcases (h.mem_iff late).1 hmem with ⟨ended, hlate⟩ | hlate
      · have hbegan := htimed.began_lt_ended late ended hlate
        have hended := htimed.ended_lt late ended hlate
        omega
      · have hbegan := htimed.began_lt late.thread late.began (by rw [hlate]; rfl)
        omega
    · exact h.precedes early ended late hreturned hmem hlt

/-- **Whatever step is made, there is an order that explains it**: the one before, or that with one
act more at its end. -/
theorem Explains.step (h : Explains total now acts) (htimed : now.Timed) (hstep : Step now next) :
    ∃ acts, Explains total next acts := by
  cases hstep with
  | @attempt t budget stand hattempt =>
    have hplanned := h.planned t
    rw [← h.total_eq] at hplanned
    rcases hattempt.cases hplanned with
      ⟨rfl, hturn, hopen⟩ | ⟨op, began, answer, rfl, hbegan, htotal, hlaw⟩
    · rw [h.total_eq] at hturn
      exact ⟨acts, h.quiet hattempt.isOpen hopen hturn⟩
    · let act : Act τ := ⟨t, op, began, answer⟩
      rw [h.total_eq] at htotal hlaw
      have hdecided : Explains total (now.put act.thread budget _) (act :: acts) :=
        h.decided htimed hattempt.isOpen hbegan htotal hlaw
      exact ⟨act :: acts, hdecided⟩
  | answer act hending => exact ⟨acts, h.give htimed hending⟩

/-- Every step keeps the times. -/
theorem Timed.step (h : now.Timed) (hstep : Step now next) : next.Timed := by
  cases hstep with
  | attempt t hattempt => exact h.put hattempt
  | answer act hending => exact h.give hending

/-- The times are right in whatever comes about. -/
theorem Reachable.timed (h : Reachable total now) : now.Timed := by
  induction h with
  | fresh owner => exact timed_fresh total owner
  | step _ hstep ih => exact ih.step hstep

/-- Whatever comes about is explained by some order. -/
theorem Reachable.explains (h : Reachable total now) : ∃ acts, Explains total now acts := by
  induction h with
  | fresh owner => exact ⟨[], explains_fresh total owner⟩
  | step hreach hstep ih =>
    obtain ⟨acts, hacts⟩ := ih
    exact hacts.step hreach.timed hstep

/-- **The counter is linearizable.** What has returned, together with what is decided and about to
return, happened in one order, each at once: the law explains the answers and the counter, and what
had returned before something else began comes before it. The counter stays below its ceiling. -/
theorem Reachable.linearizable (h : Reachable total now) :
    now.budget.total = total ∧ now.budget.free ≤ total ∧ (now.returned.map Prod.fst).Nodup ∧
    ∃ acts : List (Act τ), acts.Nodup ∧
      (∀ act, act ∈ acts ↔ now.HasReturned act ∨ now.IsEnding act) ∧
      Sequential total.toNat acts now.budget.free.toNat ∧
      ∀ early ended late, (early, ended) ∈ now.returned → late ∈ acts → ended < late.began →
        Precedes acts early late := by
  obtain ⟨acts, hacts⟩ := h.explains
  exact ⟨hacts.total_eq, UInt64.le_iff_toNat_le.2 hacts.sequential.free_le,
    h.timed.returned_nodup, acts, hacts.nodup, hacts.mem_iff, hacts.sequential, hacts.precedes⟩

/-- Two threads see 100 bytes and want 60 each. One exchange succeeds, the other fails and meets the
40 bytes that are left, so its reservation is denied. -/
theorem linearizable_of_overtaken :
    ∃ now : Contention (Fin 2), Reachable 100 now ∧ now.budget.free = 40 ∧
      now.IsEnding ⟨0, .reserve 60, 0, .granted 40⟩ ∧
      now.IsEnding ⟨1, .reserve 60, 1, .denied 40⟩ ∧
      ∃ acts : List (Act (Fin 2)),
        (∀ act, act ∈ acts ↔ now.HasReturned act ∨ now.IsEnding act) ∧ Sequential 100 acts 40 := by
  -- both have called, both have loaded
  let loaded : Contention (Fin 2) := ((((fresh 100 1).put 0 (.full 100 1)
    (.called (.reserve 60) 0)).put 1 (.full 100 1) (.called (.reserve 60) 1)).put 0 (.full 100 1)
    (.look (.reserve 60) 0 (.full 100 1))).put 1 (.full 100 1) (.look (.reserve 60) 1 (.full 100 1))
  have hloaded : Reachable 100 loaded :=
    ((((Reachable.fresh 1).step (.attempt 0 (.call _))).step (.attempt 1 (.call _))).step
      (.attempt 0 .load)).step (.attempt 1 .load)
  have hstand : loaded.stand 0 = .trying (.reserve 60) 0 100 40 := rfl
  have hswap : Attempt loaded.clock (.full 100 1) (loaded.stand 0) ⟨100, 40, 1⟩
      (.ending (.reserve 60) 0 (.granted 40)) := by
    rw [hstand]
    exact .swap
  have hmet : Reachable 100 ((loaded.put 0 ⟨100, 40, 1⟩ (.ending (.reserve 60) 0 (.granted 40))).put
      1 ⟨100, 40, 1⟩ (.look (.reserve 60) 1 ⟨100, 40, 1⟩)) :=
    (hloaded.step (.attempt 0 hswap)).step (.attempt 1 .retry)
  obtain ⟨-, -, -, acts, -, hmem, hsequential, -⟩ := hmet.linearizable
  exact ⟨_, hmet, rfl, rfl, rfl, acts, hmem, hsequential⟩

/-! ### A thread that nobody disturbs -/

/-- A thread that has decided an operation returns it and is idle again. -/
theorem steps_give {last : Contention τ} {act : Act τ} (hidle : now.stand act.thread = .idle)
    (hsteps : Relation.ReflTransGen Step now last) (hstand : last.stand = Function.update now.stand
      act.thread (.ending act.op act.began act.answer)) :
    Relation.ReflTransGen Step now (last.give act) ∧ (last.give act).stand = now.stand := by
  constructor
  · refine hsteps.tail (.answer act ?_)
    rw [IsEnding, hstand, Function.update_self]
  · rw [Contention.give, hstand, Function.update_idem, ← hidle, Function.update_eq_self]

/-- **By itself an operation does and returns what `Budget.perform` says**, and leaves its thread as
it was. -/
theorem steps_perform (now : Contention τ) {t : τ} (hidle : now.stand t = .idle)
    (op : Budget.Operation) :
    ∃ next ended, Relation.ReflTransGen Step now next ∧ next.budget = now.budget.perform op ∧
      next.returned = (⟨t, op, now.clock, now.budget.reply op⟩, ended) :: now.returned ∧
      next.stand = now.stand := by
  let looked := (now.put t now.budget (.called op now.clock)).put t now.budget
    (.look op now.clock now.budget)
  let act : Act τ := ⟨t, op, now.clock, now.budget.reply op⟩
  have hcalled : Step now (now.put t now.budget (.called op now.clock)) := by
    refine .attempt t ?_
    rw [hidle]
    exact .call op
  have hlooked : Relation.ReflTransGen Step now looked := by
    refine (Relation.ReflTransGen.single hcalled).tail (.attempt t ?_)
    rw [stand_put]
    exact .load
  rcases Attempt.look_cases op now.clock now.budget with ⟨next, hnext, hlook⟩ | ⟨hnext, hlook⟩
  · -- the exchange succeeds at once
    obtain ⟨hperform, hreply⟩ := Budget.Operation.perform_of_next? hnext
    have hswap : Step looked (looked.put t { now.budget with free := next }
        (.ending op now.clock (op.answer next))) := by
      refine .attempt t ?_
      rw [stand_put, hlook]
      exact .swap
    have hstand : (looked.put t { now.budget with free := next }
        (.ending op now.clock (op.answer next))).stand =
          Function.update now.stand act.thread (.ending act.op act.began act.answer) := by
      simp only [put, looked, act, Function.update_idem, hreply]
    obtain ⟨hsteps, hsame⟩ := steps_give hidle (hlooked.tail hswap) hstand
    exact ⟨_, _, hsteps, hperform.symm, rfl, hsame⟩
  · -- the load decides on a denial
    obtain ⟨hperform, hreply⟩ := Budget.Operation.perform_of_next?_eq_none hnext
    have hstand : looked.stand =
        Function.update now.stand act.thread (.ending act.op act.began act.answer) := by
      simp only [put, looked, act, Function.update_idem, hlook, hreply]
    obtain ⟨hsteps, hsame⟩ := steps_give hidle hlooked hstand
    exact ⟨_, _, hsteps, hperform.symm, rfl, hsame⟩

end Contention

end GpuQuota.Accounting
