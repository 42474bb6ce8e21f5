import GpuQuota.Proofs.Shared.Founding
import Mathlib.Data.Fin.VecNotation

/-!
# One process creates a region

However many processes join the region of a free name at once, one of them creates the object. Only
it stores anything in it, and it sets the magic word when everything is stored. Whoever else gets in
does so after that, so it finds what the creator stored.

* `Object.BuiltTo` says what the creator has made of the object at each of its points, and
  `Joining.Follows` what the others can have come to;
* `Founding.Founded` puts both together, and `Founding.Founded.step` says that every step keeps it;
* `Founding.Reachable.one_creator` is the result.
-/

namespace GpuQuota.Shared

variable {ι α : Type}

/-- What the process that created an object has made of it, by the point that it is at. -/
def Object.BuiltTo (plan : Blueprint ι α) (init : ι) (object : Object α) : Joining α → Prop
  | .created => object.contents = plan.blank ∧ object.published = false
  | .sized => object.contents = plan.blank ∧ object.published = false
  | .laying rest => carryOut object.contents rest = plan.contents init ∧ object.published = false
  | .done answer => answer = .ok ⟨true, plan.contents init⟩ ∧
      object.contents = plan.contents init ∧ object.published = true
  | _ => False

namespace Joining

/-- What a process that was not the first can have come to. -/
def Follows (name : String) (object : Object α) : Joining α → Prop
  | .outside => True
  | .beaten => True
  | .opened => True
  | .fitting => True
  | .mapped => True
  | .done answer => answer = .error (.notReady name) ∨
      object.published = true ∧ answer = .ok ⟨false, object.contents⟩
  | _ => False

/-- What the creator has noted by the point that it is at. -/
def milestones : Joining α → List Milestone
  | .created => [.created]
  | .sized => [.created]
  | _ => [.began, .created]

/-- While the magic word is not set, whoever was not the first can only have given up, so it does
not matter what becomes of the object. -/
theorem Follows.of_blank {name : String} {object : Object α} {turn : Joining α}
    (h : turn.Follows name object) (hblank : object.published = false) (after : Object α) :
    turn.Follows name after := by
  cases turn with
  | done answer =>
    rcases h with hanswer | ⟨hpublished, -⟩
    · exact .inl hanswer
    · rw [hblank] at hpublished
      cases hpublished
  | _ => exact h

namespace Move

variable {plan : Blueprint ι α} {name : String} {init : ι} {object : Object α}
variable {after : Option (Object α)} {turn last : Joining α} {done : List Milestone}

/-- The first step creates the object. -/
theorem of_unbound (h : Move plan name init none .outside done after last) :
    done = [.created] ∧ after = some ⟨0, plan.blank, false⟩ ∧ last = .created := by
  cases h
  exact ⟨rfl, rfl, rfl⟩

/-- A step of the creator brings the object further, as long as the magic word is not set. -/
theorem of_creator (h : Move plan name init (some object) turn done after last)
    (hbuilt : object.BuiltTo plan init turn) :
    object.published = false ∧ last.milestones = done ++ turn.milestones ∧
      ∃ next, after = some next ∧ next.BuiltTo plan init last := by
  cases h with
  | giveLength => exact ⟨hbuilt.2, rfl, _, rfl, hbuilt⟩
  | mapNew =>
    obtain ⟨hcontents, hblank⟩ := hbuilt
    refine ⟨hblank, rfl, object, rfl, ?_, hblank⟩
    rw [hcontents, Blueprint.contents]
  | lay => exact ⟨hbuilt.2, rfl, _, rfl, hbuilt⟩
  | publish =>
    obtain ⟨hcontents, hblank⟩ := hbuilt
    have hstored : object.contents = plan.contents init := hcontents
    refine ⟨hblank, rfl, _, rfl, ?_, hstored, rfl⟩
    rw [hstored]
  | _ => exact hbuilt.elim

/-- A step of any other process changes nothing but its own point. -/
theorem of_follower (h : Move plan name init (some object) turn done after last)
    (hfollows : turn.Follows name object) :
    done = [] ∧ after = some object ∧ last.Follows name object := by
  cases h with
  | lose => exact ⟨rfl, rfl, trivial⟩
  | openTaken => exact ⟨rfl, rfl, trivial⟩
  | fit => exact ⟨rfl, rfl, trivial⟩
  | tooShort => exact ⟨rfl, rfl, .inl rfl⟩
  | mapTaken => exact ⟨rfl, rfl, trivial⟩
  | attach hpublished => exact ⟨rfl, rfl, .inr ⟨hpublished, rfl⟩⟩
  | tooLate => exact ⟨rfl, rfl, .inl rfl⟩
  | _ => exact hfollows.elim

end Move

end Joining

namespace Founding

variable {π : Type}

/-- The name is bound to an object that one process has created, and only that one has changed it.
-/
structure Founded (plan : Blueprint ι α) (name : String) (init : π → ι) (now : Founding π α) (c : π)
    (object : Object α) : Prop where
  /-- The name is still bound to it. -/
  object_eq : now.object = some object
  /-- The object is as far as its creator has come. -/
  built : object.BuiltTo plan (init c) (now.joining c)
  /-- The others have changed nothing. -/
  follows : ∀ i, i ≠ c → (now.joining i).Follows name object
  /-- All that was done is the creator's. -/
  log_eq : now.log = (now.joining c).milestones.map (Prod.mk c)

/-- How often an object has been created. -/
def creations (log : List (π × Milestone)) : ℕ := log.countP fun event => event.2 = .created

/-- How often a process has begun to lay the object out. -/
def layouts (log : List (π × Milestone)) : ℕ := log.countP fun event => event.2 = .began

variable {plan : Blueprint ι α} {name : String} {init : π → ι} {now next : Founding π α} {c : π}
variable {object : Object α}

namespace Founded

theorem creations_eq (h : now.Founded plan name init c object) : creations now.log = 1 := by
  rw [h.log_eq]
  cases now.joining c <;> rfl

theorem layouts_le (h : now.Founded plan name init c object) : layouts now.log ≤ 1 := by
  rw [h.log_eq]
  cases now.joining c with
  | created => exact Nat.zero_le 1
  | sized => exact Nat.zero_le 1
  | _ => exact Nat.le_refl 1

/-- The log tells who the creator is. -/
theorem mem_log_iff (h : now.Founded plan name init c object) {i : π} :
    (i, .created) ∈ now.log ↔ i = c := by
  rw [h.log_eq]
  cases now.joining c <;> simp [Joining.milestones]

/-- The magic word is set when the creator is done. -/
theorem done_of_published (h : now.Founded plan name init c object)
    (hpublished : object.published = true) :
    now.joining c = .done (.ok ⟨true, plan.contents (init c)⟩) ∧
      object.contents = plan.contents (init c) := by
  have hbuilt := h.built
  cases hturn : now.joining c with
  | done answer =>
    rw [hturn] at hbuilt
    obtain ⟨rfl, hcontents, -⟩ := hbuilt
    exact ⟨rfl, hcontents⟩
  | _ => simp [hturn, Object.BuiltTo, hpublished] at hbuilt

/-- The magic word is not set while the creator is not done. -/
theorem published_of_open (h : now.Founded plan name init c object)
    (hopen : ∀ answer, now.joining c ≠ .done answer) : object.published = false := by
  cases hpublished : object.published with
  | false => rfl
  | true => exact absurd (h.done_of_published hpublished).1 (hopen _)

/-- Whoever is done is the creator with what it stored, or one that found this, or has given up. -/
theorem answer_cases (h : now.Founded plan name init c object) {i : π}
    {answer : Except RegionFault (Found α)} (hdone : now.joining i = .done answer) :
    (i = c ∧ answer = .ok ⟨true, plan.contents (init c)⟩) ∨
      (i ≠ c ∧ answer = .ok ⟨false, plan.contents (init c)⟩ ∧ object.published = true) ∨
      (i ≠ c ∧ answer = .error (.notReady name)) := by
  by_cases hi : i = c
  · subst hi
    have hbuilt := h.built
    rw [hdone] at hbuilt
    exact .inl ⟨rfl, hbuilt.1⟩
  · have hfollows := h.follows i hi
    rw [hdone] at hfollows
    rcases hfollows with hanswer | ⟨hpublished, hanswer⟩
    · exact .inr (.inr ⟨hi, hanswer⟩)
    · rw [(h.done_of_published hpublished).2] at hanswer
      exact .inr (.inl ⟨hi, hanswer, hpublished⟩)

/-- While the creator is not done, whoever else is has given up. -/
theorem answer_of_blank (h : now.Founded plan name init c object)
    (hblank : object.published = false) {i : π} (hi : i ≠ c)
    {answer : Except RegionFault (Found α)} (hdone : now.joining i = .done answer) :
    answer = .error (.notReady name) := by
  rcases h.answer_cases hdone with ⟨heq, -⟩ | ⟨-, -, hpublished⟩ | ⟨-, hanswer⟩
  · exact absurd heq hi
  · rw [hblank] at hpublished
    cases hpublished
  · exact hanswer

variable [DecidableEq π]

/-- **Every step keeps what one creator has made.** -/
theorem step (h : now.Founded plan name init c object) {i : π}
    (hstep : Step plan name init i now next) : ∃ after, next.Founded plan name init c after := by
  obtain ⟨hmove⟩ := hstep
  rename_i done after last
  rw [h.object_eq] at hmove
  by_cases hi : i = c
  · -- the creator moves, so the magic word was not set, and nobody can have seen the object change
    subst hi
    obtain ⟨hblank, hnoted, object, rfl, hbuilt⟩ := hmove.of_creator h.built
    refine ⟨object, rfl, ?_, ?_, ?_⟩
    · rwa [joining_put]
    · intro j hj
      rw [joining_put_of_ne _ _ _ _ hj]
      exact (h.follows j hj).of_blank hblank object
    · rw [joining_put, hnoted, List.map_append, ← h.log_eq]
      rfl
  · -- anybody else only changes its own point
    obtain ⟨rfl, rfl, hlast⟩ := hmove.of_follower (h.follows i hi)
    have hc : (now.put i [] (some object) last).joining c = now.joining c :=
      joining_put_of_ne _ _ _ _ (Ne.symm hi)
    refine ⟨object, rfl, ?_, ?_, ?_⟩
    · rw [hc]
      exact h.built
    · intro j hj
      by_cases hji : j = i
      · subst hji
        rwa [joining_put]
      · rw [joining_put_of_ne _ _ _ _ hji]
        exact h.follows j hj
    · rw [hc]
      exact h.log_eq

end Founded

variable [DecidableEq π]

/-- The first step of all founds the region. -/
theorem founded_of_unbound {i : π} (hstep : Step plan name init i unbound next) :
    next.Founded plan name init i ⟨0, plan.blank, false⟩ := by
  obtain ⟨hmove⟩ := hstep
  obtain ⟨rfl, rfl, rfl⟩ := hmove.of_unbound
  refine ⟨rfl, ?_, ?_, ?_⟩
  · rw [joining_put]
    exact ⟨rfl, rfl⟩
  · intro j hj
    rw [joining_put_of_ne _ _ _ _ hj]
    trivial
  · rw [joining_put]
    rfl

/-- Either nobody has done anything, or there is one creator. -/
theorem Reachable.founded (h : Reachable plan name init now) :
    now = Founding.unbound ∨ ∃ c object, now.Founded plan name init c object := by
  induction h with
  | unbound => exact .inl rfl
  | step i _ hstep ih =>
    rcases ih with rfl | ⟨c, object, hfounded⟩
    · exact .inr ⟨i, _, founded_of_unbound hstep⟩
    · exact .inr ⟨c, hfounded.step hstep⟩

/-! ## A creator that has stopped

A creator may stop for ever at any point before the magic word. The others then give up when their
time is over, whoever they are. -/

/-- A process that does nothing stays where it is, and nothing is struck from the log. -/
theorem joining_of_stepsOf {moving : π → Prop} (hstill : ¬ moving c)
    (hsteps : StepsOf plan name init moving now next) :
    next.joining c = now.joining c ∧ ∀ event ∈ now.log, event ∈ next.log := by
  induction hsteps with
  | refl => exact ⟨rfl, fun _ hevent => hevent⟩
  | tail _ hstep ih =>
    obtain ⟨i, hmoving, ⟨-⟩⟩ := hstep
    have hne : c ≠ i := fun heq => hstill (heq ▸ hmoving)
    refine ⟨?_, ?_⟩
    · rw [joining_put_of_ne _ _ _ _ hne]
      exact ih.1
    · intro event hevent
      exact List.mem_append_right _ (ih.2 event hevent)

/-- While the creator is not done, whoever else is not done yet can still give up. -/
theorem Founded.giveUp (h : now.Founded plan name init c object)
    (hblank : object.published = false) {i : π} (hi : i ≠ c)
    (hopen : ∀ answer, now.joining i ≠ .done answer) :
    ∃ last, StepsOf plan name init (· = i) now last ∧
      last.joining i = .done (.error (.notReady name)) := by
  have hunset : ¬ object.published = true := by
    rw [hblank]
    exact Bool.false_ne_true
  have hgiveUp : Joining.Moves plan name (init i) (some object, .opened)
      (some object, .done (.error (.notReady name))) := .giveUp hunset
  have hmoves : Joining.Moves plan name (init i) (now.object, now.joining i)
      (some object, .done (.error (.notReady name))) := by
    have hfollows := h.follows i hi
    rw [h.object_eq]
    -- wherever it is, its wait can end, since the magic word is not set
    cases hturn : now.joining i with
    | outside => exact Joining.Moves.beaten.trans hgiveUp
    | beaten => exact (Joining.Moves.single .openTaken).trans hgiveUp
    | opened => exact hgiveUp
    | fitting => exact (Joining.Moves.single .mapTaken).tail (.tooLate hunset)
    | mapped => exact Joining.Moves.single (.tooLate hunset)
    | done answer => exact absurd hturn (hopen answer)
    | _ =>
      rw [hturn] at hfollows
      exact hfollows.elim
  obtain ⟨last, hsteps, -, hlast⟩ := steps_of_moves now i hmoves
  refine ⟨last, hsteps, ?_⟩
  rw [hlast, Function.update_self]

/-! ## The result -/

/-- **One process creates a region.** As soon as anybody has tried, one process has created the
object and no other ever does, and the object is laid out once at most. Whoever gets in without
having created the object does so after its creator is done, and finds what the creator laid out
with its own parameters. While the creator stays where it is without having set the magic word, all
others can only give up, and they can. -/
theorem Reachable.one_creator (h : Reachable plan name init now) :
    creations now.log ≤ 1 ∧
    (∀ i, now.joining i ≠ .outside → creations now.log = 1) ∧
    layouts now.log ≤ 1 ∧
    (∀ i contents, now.joining i = .done (.ok ⟨false, contents⟩) →
      ∃ c, c ≠ i ∧ (c, .created) ∈ now.log ∧ contents = plan.contents (init c) ∧
        now.joining c = .done (.ok ⟨true, plan.contents (init c)⟩)) ∧
    ∀ c, (c, .created) ∈ now.log → (∀ answer, now.joining c ≠ .done answer) →
      ∀ next, StepsOf plan name init (· ≠ c) now next → ∀ i, i ≠ c →
        (∀ answer, next.joining i = .done answer → answer = .error (.notReady name)) ∧
        ((∀ answer, next.joining i ≠ .done answer) →
          ∃ last, StepsOf plan name init (· = i) next last ∧
            last.joining i = .done (.error (.notReady name))) := by
  rcases h.founded with rfl | ⟨c, object, hfounded⟩
  · -- nobody has done anything
    refine ⟨Nat.zero_le 1, fun i hi => absurd rfl hi, Nat.zero_le 1, ?_, ?_⟩
    · intro i contents hdone
      cases hdone
    · intro c hcreated
      cases hcreated
  · refine ⟨Nat.le_of_eq hfounded.creations_eq, fun _ _ => hfounded.creations_eq,
      hfounded.layouts_le, ?_, ?_⟩
    · intro i contents hdone
      rcases hfounded.answer_cases hdone with
        ⟨-, hanswer⟩ | ⟨hi, hanswer, hpublished⟩ | ⟨-, hanswer⟩
      · cases hanswer
      · cases hanswer
        exact ⟨c, hi.symm, hfounded.mem_log_iff.2 rfl, rfl,
          (hfounded.done_of_published hpublished).1⟩
      · cases hanswer
    · -- the invariant holds after the others have moved, with the creator where it was
      intro creator hcreated hopen next hsteps i hi
      obtain rfl : creator = c := hfounded.mem_log_iff.1 hcreated
      obtain ⟨hstill, hlog⟩ := joining_of_stepsOf (fun hne => hne rfl) hsteps
      rcases (h.steps hsteps).founded with rfl | ⟨other, after, hafter⟩
      · cases hlog _ hcreated
      · obtain rfl : creator = other := hafter.mem_log_iff.1 (hlog _ hcreated)
        have hblank : after.published = false := by
          refine hafter.published_of_open fun answer => ?_
          rw [hstill]
          exact hopen answer
        exact ⟨fun answer hdone => hafter.answer_of_blank hblank hi hdone,
          fun hunfinished => hafter.giveUp hblank hi hunfinished⟩

/-- Two processes bring ceilings of their own. The second creates the budget, and the first, which
waits for it, finds the ceiling of the second. -/
theorem one_creator_of_attached :
    ∃ now : Founding (Fin 2) Accounting.Budget,
      Reachable budgetPlan "budget" ![(100, 1), (200, 2)] now ∧
        now.joining 0 = .done (.ok ⟨false, .full 200 2⟩) ∧ creations now.log ≤ 1 ∧
        ∃ c, c ≠ 0 ∧ (c, .created) ∈ now.log := by
  have hcreated : Reachable budgetPlan "budget" ![(100, 1), (200, 2)] _ :=
    Reachable.unbound.step (1 : Fin 2) (.move .create)
  have hopened := (hcreated.step 0 (.move .lose)).step 0 (.move .openTaken)
  have hmapped := (hopened.step 1 (.move .giveLength)).step 1 (.move .mapNew)
  have hwaiting := (hmapped.step 0 (.move (.fit (Nat.le_refl 32)))).step 0 (.move .mapTaken)
  have hlaid := ((hwaiting.step 1 (.move .lay)).step 1 (.move .lay)).step 1 (.move .lay)
  have hattached := (hlaid.step 1 (.move .publish)).step 0 (.move (.attach rfl))
  obtain ⟨hcreations, -, -, hfound, -⟩ := hattached.one_creator
  obtain ⟨c, hc, hcreator, -⟩ := hfound 0 _ rfl
  exact ⟨_, hattached, rfl, hcreations, c, hc, hcreator⟩

end Founding

end GpuQuota.Shared
