import GpuQuota.Accounting.Budget
import GpuQuota.Pacing.TokenRegion
import Mathlib.Data.Nat.Notation
import Mathlib.Logic.Function.Basic
import Mathlib.Logic.Relation

/-!
# Joining a region step by step

`Store.join` joins a region as if nobody else were there. In truth any number of processes join the
region of one name at once, and each gives way to others between any two calls of the system and any
two accesses to the memory. The one that finds the name free creates the object, which is empty at
first, gives it its length, maps it, stores the contents word by word and sets the magic word. The
others open the object, wait until it is long enough, map it, and wait for the magic word. A wait
either goes on, which changes nothing, or ends because its time is over.

* `Joining.Move` is one step of one process, and `Founding.Step` lets one of them move;
* `Founding.Reachable` is what any number of steps lead to while nobody takes the name away;
* `Joining.Moves.join`: a process that nobody interrupts ends as `Store.join` says.
-/

namespace GpuQuota.Shared

variable {ι α : Type}

/-- How a kind of region is laid out for given parameters. -/
structure Blueprint (ι α : Type) where
  /-- the length of the object in bytes -/
  size : ℕ
  /-- what an object full of zeroes reads as -/
  blank : α
  /-- the stores that lay an object out, in their order -/
  stores : ι → List (α → α)

/-- Carries stores out one after the other. -/
def carryOut (contents : α) (stores : List (α → α)) : α :=
  stores.foldl (fun contents store => store contents) contents

/-- The contents of a region that is laid out. -/
def Blueprint.contents (plan : Blueprint ι α) (init : ι) : α :=
  carryOut plan.blank (plan.stores init)

/-- An object as the system keeps it. -/
structure Object (α : Type) where
  length : ℕ
  contents : α
  /-- whether the magic word is set -/
  published : Bool

/-- What an object is to those who join. -/
def Object.segment (object : Object α) : Segment α :=
  if object.published then .laidOut object.contents else .blank

/-- A region that a process has joined, as it finds it then. -/
structure Found (α : Type) where
  /-- whether the process laid the region out -/
  created : Bool
  /-- what it finds in it -/
  contents : α

/-- How far a process has come with joining. -/
inductive Joining (α : Type) where
  /-- nothing has been done -/
  | outside
  /-- the name was free, and the object is new and empty -/
  | created
  /-- the new object has its length -/
  | sized
  /-- these stores are still to be carried out, and then the magic word is set -/
  | laying (rest : List (α → α))
  /-- the name was taken -/
  | beaten
  /-- the object is open, and its length is awaited -/
  | opened
  /-- the object is long enough -/
  | fitting
  /-- the object is mapped, and its magic word is awaited -/
  | mapped
  /-- joining has returned -/
  | done (answer : Except RegionFault (Found α))

/-- What is noted of the steps of a process. -/
inductive Milestone where
  /-- it created the object, and so it has to lay it out -/
  | created
  /-- it began to lay the object out -/
  | began
  deriving DecidableEq

namespace Joining

/-- One step of a process that joins the region of a name with parameters of its own. -/
inductive Move (plan : Blueprint ι α) (name : String) (init : ι) :
    Option (Object α) → Joining α → List Milestone → Option (Object α) → Joining α → Prop where
  /-- The name is free, and it is bound to a new object without length. -/
  | create : Move plan name init none .outside [.created] (some ⟨0, plan.blank, false⟩) .created
  /-- The new object gets its length. -/
  | giveLength {object : Object α} :
      Move plan name init (some object) .created []
        (some { object with length := plan.size }) .sized
  /-- It is mapped, and laying it out begins. -/
  | mapNew {object : Object α} :
      Move plan name init (some object) .sized [.began] (some object) (.laying (plan.stores init))
  /-- The next store is carried out. -/
  | lay {object : Object α} {store : α → α} {rest : List (α → α)} :
      Move plan name init (some object) (.laying (store :: rest)) []
        (some { object with contents := store object.contents }) (.laying rest)
  /-- All of them are, and the magic word is set. -/
  | publish {object : Object α} :
      Move plan name init (some object) (.laying []) [] (some { object with published := true })
        (.done (.ok ⟨true, object.contents⟩))
  /-- The name is taken. -/
  | lose {object : Object α} :
      Move plan name init (some object) .outside [] (some object) .beaten
  /-- The object of the name is opened. -/
  | openTaken {object : Object α} :
      Move plan name init (some object) .beaten [] (some object) .opened
  /-- The name has been taken away in between, and the process starts again. -/
  | retry : Move plan name init none .beaten [] none .outside
  /-- The name has been taken away in between, and the process gives up. -/
  | lost : Move plan name init none .beaten [] none (.done (.error (.openFailed name .notFound)))
  /-- The object has its length. -/
  | fit {object : Object α} : plan.size ≤ object.length →
      Move plan name init (some object) .opened [] (some object) .fitting
  /-- The time is over, and it has not. -/
  | tooShort {object : Object α} : object.length < plan.size →
      Move plan name init (some object) .opened [] (some object) (.done (.error (.notReady name)))
  /-- The object is mapped. -/
  | mapTaken {object : Object α} :
      Move plan name init (some object) .fitting [] (some object) .mapped
  /-- Its magic word is set. -/
  | attach {object : Object α} : object.published →
      Move plan name init (some object) .mapped [] (some object)
        (.done (.ok ⟨false, object.contents⟩))
  /-- The time is over, and it is not. -/
  | tooLate {object : Object α} : ¬ object.published →
      Move plan name init (some object) .mapped [] (some object) (.done (.error (.notReady name)))

/-! ### Without interruption

Each of the runs below is one of `Store.join`'s outcomes: a new region, one that is attached to, and
one that is given up. -/

/-- What a process comes to by itself. -/
def Moves (plan : Blueprint ι α) (name : String) (init : ι) :
    Option (Object α) × Joining α → Option (Object α) × Joining α → Prop :=
  Relation.ReflTransGen fun now next =>
    ∃ milestones, Move plan name init now.1 now.2 milestones next.1 next.2

namespace Moves

variable {plan : Blueprint ι α} {name : String} {init : ι} {object : Object α}
variable {before middle after : Option (Object α)} {start turn last : Joining α}
variable {milestones : List Milestone}

theorem single (h : Move plan name init before start milestones after turn) :
    Moves plan name init (before, start) (after, turn) :=
  Relation.ReflTransGen.single ⟨milestones, h⟩

theorem tail (h : Moves plan name init (before, start) (middle, turn))
    (hmove : Move plan name init middle turn milestones after last) :
    Moves plan name init (before, start) (after, last) :=
  Relation.ReflTransGen.tail h ⟨milestones, hmove⟩

theorem trans (h : Moves plan name init (before, start) (middle, turn))
    (hrest : Moves plan name init (middle, turn) (after, last)) :
    Moves plan name init (before, start) (after, last) :=
  Relation.ReflTransGen.trans h hrest

/-- By itself a process carries out whatever stores it has left. -/
theorem lay (object : Object α) (stores : List (α → α)) :
    Moves plan name init (some object, .laying stores)
      (some { object with contents := carryOut object.contents stores }, .laying []) := by
  induction stores generalizing object with
  | nil => exact .refl
  | cons store rest ih =>
    exact (single .lay).trans (ih { object with contents := store object.contents })

/-- A process that finds the name free creates the object and lays it out. -/
theorem create : Moves plan name init (none, .outside)
    (some ⟨plan.size, plan.contents init, true⟩, .done (.ok ⟨true, plan.contents init⟩)) := by
  have hmapped : Moves plan name init (none, .outside)
      (some ⟨plan.size, plan.blank, false⟩, .laying (plan.stores init)) :=
    ((single .create).tail .giveLength).tail .mapNew
  exact (hmapped.trans (lay _ _)).tail .publish

/-- A process that finds the name taken opens the object. -/
theorem beaten : Moves plan name init (some object, .outside) (some object, .opened) :=
  (single .lose).tail .openTaken

/-- It attaches to an object that is laid out. -/
theorem attach (hlength : plan.size ≤ object.length) (hpublished : object.published = true) :
    Moves plan name init (some object, .opened)
      (some object, .done (.ok ⟨false, object.contents⟩)) :=
  ((single (.fit hlength)).tail .mapTaken).tail (.attach hpublished)

/-- It gives up where nobody lays the object out, as soon as its time is over. -/
theorem giveUp (hblank : ¬ object.published) :
    Moves plan name init (some object, .opened)
      (some object, .done (.error (.notReady name))) := by
  rcases Nat.lt_or_ge object.length plan.size with hshort | hlong
  · exact single (.tooShort hshort)
  · exact ((single (.fit hlong)).tail .mapTaken).tail (.tooLate hblank)

/-- **A join that nobody interrupts ends as `Store.join` says**, in a store where the name is bound
to the same object. An object that is laid out has its length. -/
theorem join (store : Store α) (hname : isRegionName name = true)
    (hsystem : nameFault? name = none)
    (hstore : (store.lookup name).map Prod.snd = before.map Object.segment)
    (hlength : ∀ object, before = some object → object.published = true →
      plan.size ≤ object.length) :
    ∃ after answer, Moves plan name init (before, .outside) (after, .done answer) ∧
      answer.map Found.created = (store.join name (plan.contents init)).1.map Joined.created ∧
      ((store.join name (plan.contents init)).2.lookup name).map Prod.snd =
        after.map Object.segment := by
  simp only [Store.join, hname, hsystem, Bool.not_true, Option.isSome_none, Bool.false_eq_true,
    if_false]
  -- the object is there or it is not, and if it is, it is laid out or it is not
  cases before with
  | none =>
    have hfree : store.lookup name = none := Option.map_eq_none_iff.1 hstore
    refine ⟨_, _, create, ?_, ?_⟩
    · rw [hfree]
      rfl
    · rw [hfree, Store.lookup_add]
      rfl
  | some object =>
    obtain ⟨⟨handle, segment⟩, hlookup, hsegment⟩ := Option.map_eq_some_iff.1 hstore
    obtain rfl : segment = object.segment := hsegment
    rw [hlookup]
    by_cases hpublished : object.published = true
    · have hlong := hlength object rfl hpublished
      refine ⟨some object, _, beaten.trans (attach hlong hpublished), ?_, ?_⟩
      · simp [Object.segment, hpublished, Except.map]
      · simp [hlookup, Object.segment, hpublished]
    · refine ⟨some object, _, beaten.trans (giveUp hpublished), ?_, ?_⟩
      · simp [Object.segment, hpublished, Except.map]
      · simp [hlookup, Object.segment, hpublished]

end Moves

end Joining

/-- The object of a name with all the processes (`π`) that join it. -/
structure Founding (π α : Type) where
  /-- the object that the name is bound to -/
  object : Option (Object α)
  /-- how far each process has come -/
  joining : π → Joining α
  /-- what has been done by whom, the newest first -/
  log : List (π × Milestone)

namespace Founding

variable {π : Type} [DecidableEq π]

/-- The name is free, and everybody is outside. -/
def unbound : Founding π α where
  object := none
  joining _ := .outside
  log := []

/-- A process has made a step. -/
def put (now : Founding π α) (i : π) (milestones : List Milestone) (object : Option (Object α))
    (turn : Joining α) : Founding π α where
  object := object
  joining := Function.update now.joining i turn
  log := milestones.map (Prod.mk i) ++ now.log

/-- A process moves. -/
inductive Step (plan : Blueprint ι α) (name : String) (init : π → ι) (i : π) :
    Founding π α → Founding π α → Prop where
  | move {now : Founding π α} {milestones : List Milestone} {object : Option (Object α)}
      {turn : Joining α} :
      Joining.Move plan name (init i) now.object (now.joining i) milestones object turn →
      Step plan name init i now (now.put i milestones object turn)

/-- What some processes come to while the others do nothing. -/
def StepsOf (plan : Blueprint ι α) (name : String) (init : π → ι) (moving : π → Prop) :
    Founding π α → Founding π α → Prop :=
  Relation.ReflTransGen fun now next => ∃ i, moving i ∧ Step plan name init i now next

/-- What can come about with a name that is free. -/
inductive Reachable (plan : Blueprint ι α) (name : String) (init : π → ι) :
    Founding π α → Prop where
  | unbound : Reachable plan name init .unbound
  | step {now next : Founding π α} (i : π) : Reachable plan name init now →
      Step plan name init i now next → Reachable plan name init next

section Put

variable (now : Founding π α) (i : π) (milestones : List Milestone) (object : Option (Object α))
variable (turn : Joining α)

@[simp] theorem joining_put : (now.put i milestones object turn).joining i = turn :=
  Function.update_self _ _ _

variable {i}

theorem joining_put_of_ne {other : π} (h : other ≠ i) :
    (now.put i milestones object turn).joining other = now.joining other :=
  Function.update_of_ne h _ _

end Put

variable {plan : Blueprint ι α} {name : String} {init : π → ι} {now next : Founding π α}

theorem Reachable.steps {moving : π → Prop} (h : Reachable plan name init now)
    (hsteps : StepsOf plan name init moving now next) : Reachable plan name init next := by
  induction hsteps with
  | refl => exact h
  | tail _ hstep ih =>
    obtain ⟨i, -, hstep⟩ := hstep
    exact ih.step i hstep

/-- What a process comes to by itself happens among all processes. -/
theorem steps_of_moves (now : Founding π α) (i : π) {after : Option (Object α) × Joining α}
    (h : Joining.Moves plan name (init i) (now.object, now.joining i) after) :
    ∃ next, StepsOf plan name init (· = i) now next ∧ next.object = after.1 ∧
      next.joining = Function.update now.joining i after.2 := by
  induction h with
  | refl => exact ⟨now, .refl, rfl, (Function.update_eq_self _ _).symm⟩
  | @tail middle last _ hmove ih =>
    obtain ⟨next, hsteps, hobject, hjoining⟩ := ih
    obtain ⟨milestones, hmove⟩ := hmove
    have hturn : next.joining i = middle.2 := by
      rw [hjoining, Function.update_self]
    rw [← hobject, ← hturn] at hmove
    refine ⟨next.put i milestones last.1 last.2, hsteps.tail ⟨i, rfl, .move hmove⟩, rfl, ?_⟩
    rw [put, hjoining, Function.update_idem]

end Founding

/-! ## The two kinds of regions

Budgets and token regions are laid out by plans of their own, and both plans come to what the
regions are to hold at first. -/

/-- A budget is laid out for a ceiling and the process that owns it. -/
def budgetPlan : Blueprint (UInt64 × Int32) Accounting.Budget where
  size := 32
  blank := ⟨0, 0, 0⟩
  stores init := [fun budget => { budget with owner := init.2 },
    fun budget => { budget with total := init.1 }, fun budget => { budget with free := init.1 }]

theorem contents_budgetPlan (total : UInt64) (owner : Int32) :
    budgetPlan.contents (total, owner) = .full total owner := rfl

/-- A token region is laid out without parameters: its gate is closed, and all else is zero. -/
def tokenPlan : Blueprint Unit Pacing.TokenRegion where
  size := 96
  blank := {}
  stores _ := [fun region => { region with gate := ⟨0⟩ }]

theorem contents_tokenPlan : tokenPlan.contents () = {} := rfl

end GpuQuota.Shared
