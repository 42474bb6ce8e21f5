import GpuQuota.Pacing.Bucket
import Mathlib.Data.Fintype.Basic
import Mathlib.Logic.Function.Basic

/-!
# No wake-up is lost

The threads of a process take tokens from one bucket, and a lock guards it. A thread that finds the
bucket empty gives the lock away and falls asleep in one step. Whoever adds tokens tells the
sleepers when the lock is free again: one of them if the bucket then had one token, and all of them
if it had more. Between the adding and the telling anything may happen to the bucket, and other
threads may be faster than those that were woken.

* `Waking.Step` lets one thread move: it takes a token, finds none, falls asleep, adds tokens, tells
  the others, or wakes up by itself;
* `Waking.Watched` is what every step keeps: beside tokens and a sleeper there is a thread that has
  been woken and has not looked yet, or one that is still to tell, and beside two tokens it is to
  tell all;
* `Waking.Reachable.no_wakeup_lost` is what that comes to.
-/

namespace GpuQuota.Pacing

/-- How far a thread has come with a bucket. -/
inductive Turn where
  /-- it does nothing with the bucket -/
  | idle
  /-- it has found the bucket empty, and has the lock as yet -/
  | parking
  /-- it waits to be told -/
  | asleep
  /-- it has been woken, and has not looked into the bucket since -/
  | awake
  /-- it has left so many tokens in the bucket, and is about to tell those that sleep -/
  | telling (count : UInt64)
  deriving DecidableEq

namespace Turn

/-- The thread may go for a token: it begins to, or it has been woken to look again. -/
def Seeks : Turn → Prop
  | .idle => True
  | .awake => True
  | _ => False

/-- The thread after everybody has been told. -/
def roused : Turn → Turn
  | .asleep => .awake
  | turn => turn

theorem roused_ne_asleep (turn : Turn) : turn.roused ≠ .asleep := by
  cases turn <;> exact nofun

theorem roused_eq_parking {turn : Turn} (h : turn.roused = .parking) : turn = .parking := by
  cases turn with
  | parking => rfl
  | _ => exact nomatch h

end Turn

/-- A bucket with the threads (`τ`) that use it. -/
structure Waking (τ : Type) where
  bucket : Bucket
  /-- how far each thread has come -/
  turn : τ → Turn

namespace Waking

variable {τ : Type}

/-- A bucket that nobody has used yet. -/
def start (bucket : Bucket) : Waking τ where
  bucket := bucket
  turn _ := .idle

/-- Nobody has the lock: a thread has it for more than one step only to fall asleep. -/
def Unlocked (now : Waking τ) : Prop := ∀ t, now.turn t ≠ .parking

instance [Fintype τ] (now : Waking τ) : Decidable now.Unlocked :=
  inferInstanceAs (Decidable (∀ t, now.turn t ≠ .parking))

/-- Everybody is told. -/
def rouse (now : Waking τ) : Waking τ := { now with turn := fun t => (now.turn t).roused }

variable [DecidableEq τ]

/-- A thread has made a step. -/
def put (now : Waking τ) (t : τ) (bucket : Bucket) (turn : Turn) : Waking τ where
  bucket := bucket
  turn := Function.update now.turn t turn

/-- One step of a thread. -/
inductive Step : Waking τ → Waking τ → Prop where
  /-- A thread that looks finds a token. -/
  | take {now : Waking τ} {bucket : Bucket} (t : τ) : now.Unlocked → (now.turn t).Seeks →
      now.bucket.take? = some bucket → Step now (now.put t bucket .idle)
  /-- It finds none, and keeps the lock. -/
  | miss {now : Waking τ} (t : τ) : now.Unlocked → (now.turn t).Seeks →
      now.bucket.take? = none → Step now (now.put t now.bucket .parking)
  /-- The lock is given away and the thread sleeps, with nothing in between. -/
  | park {now : Waking τ} (t : τ) : now.turn t = .parking →
      Step now (now.put t now.bucket .asleep)
  /-- A thread that does not want to wait goes without a token. -/
  | leave {now : Waking τ} (t : τ) : now.Unlocked → now.turn t = .idle →
      now.bucket.take? = none → Step now (now.put t now.bucket .idle)
  /-- Tokens are put in, and the lock is given away before anybody is told. -/
  | add {now : Waking τ} (t : τ) (count : UInt64) : now.Unlocked → now.turn t = .idle →
      Step now (now.put t (now.bucket.add count) (.telling (now.bucket.add count).tokens))
  /-- There is nothing to tell of an empty bucket. -/
  | tellNobody {now : Waking τ} (t : τ) : now.turn t = .telling 0 →
      Step now (now.put t now.bucket .idle)
  /-- One token wakes one of those that sleep. -/
  | tellOne {now : Waking τ} (t u : τ) : now.turn t = .telling 1 → now.turn u = .asleep →
      Step now ((now.put u now.bucket .awake).put t now.bucket .idle)
  /-- Nobody sleeps. -/
  | tellInVain {now : Waking τ} (t : τ) : now.turn t = .telling 1 →
      (∀ u, now.turn u ≠ .asleep) → Step now (now.put t now.bucket .idle)
  /-- Several tokens wake everybody. -/
  | tellAll {now : Waking τ} {count : UInt64} (t : τ) : now.turn t = .telling count → 1 < count →
      Step now (now.rouse.put t now.bucket .idle)
  /-- A sleeper wakes up without having been told. -/
  | stir {now : Waking τ} (t : τ) : now.turn t = .asleep →
      Step now (now.put t now.bucket .awake)

/-- What can come about with a bucket. -/
inductive Reachable (bucket : Bucket) : Waking τ → Prop where
  | start : Reachable bucket (.start bucket)
  | step {now next : Waking τ} : Reachable bucket now → Step now next → Reachable bucket next

section Put

variable (now : Waking τ) (t : τ) (bucket : Bucket) (turn : Turn)

@[simp] theorem turn_put : (now.put t bucket turn).turn t = turn := Function.update_self _ _ _

variable {t}

theorem turn_put_of_ne {other : τ} (h : other ≠ t) :
    (now.put t bucket turn).turn other = now.turn other := Function.update_of_ne h _ _

variable {now bucket turn}

/-- A thread that is at a point now has come there in this step or was there before. -/
theorem turn_of_put {other : τ} {point : Turn} (h : (now.put t bucket turn).turn other = point) :
    (other = t ∧ turn = point) ∨ (other ≠ t ∧ now.turn other = point) := by
  by_cases hother : other = t
  · subst hother
    exact .inl ⟨rfl, (turn_put now other bucket turn).symm.trans h⟩
  · exact .inr ⟨hother, (turn_put_of_ne now bucket turn hother).symm.trans h⟩

end Put

/-! ## What every step keeps

What has to be shown is that a sleeper beside tokens will be woken. A thread that tells one more
than it must is no harm, so only enough telling has to be kept, and that is the invariant. -/

/-- Somebody has left more than `least` tokens and is still to tell. -/
def Told (now : Waking τ) (least : UInt64) : Prop :=
  ∃ t count, now.turn t = .telling count ∧ least < count

/-- Nobody sleeps through tokens. -/
structure Watched (now : Waking τ) : Prop where
  /-- a thread that falls asleep has found the bucket empty, and has had the lock since -/
  empty : ∀ t, now.turn t = .parking → now.bucket.tokens = 0
  /-- While there is a token, somebody is awake to take it, or is about to be. -/
  some_told : 0 < now.bucket.tokens → ∀ t, now.turn t = .asleep →
    (∃ u, now.turn u = .awake) ∨ now.Told 0
  /-- While there are several, everybody who sleeps is about to be woken. -/
  all_told : 1 < now.bucket.tokens → ∀ t, now.turn t = .asleep → now.Told 1

variable {now next : Waking τ} {t : τ} {bucket : Bucket} {turn : Turn} {least : UInt64}

omit [DecidableEq τ] in
/-- Whoever is to tell about many tokens is to tell about fewer. -/
theorem Told.mono {less : UInt64} (h : now.Told least) (hle : less ≤ least) : now.Told less := by
  obtain ⟨t, count, hturn, hcount⟩ := h
  exact ⟨t, count, hturn, UInt64.lt_of_le_of_lt hle hcount⟩

/-- What is still to be told stays so, unless the thread that moves has told it. -/
theorem Told.put (h : now.Told least)
    (hother : ∀ count, now.turn t = .telling count → ¬ least < count) :
    (now.put t bucket turn).Told least := by
  obtain ⟨u, count, hturn, hcount⟩ := h
  have hne : u ≠ t := by
    rintro rfl
    exact hother count hturn hcount
  exact ⟨u, count, (turn_put_of_ne now bucket turn hne).trans hturn, hcount⟩

/-- A thread that has added more than so many tokens is to tell about them. -/
theorem told_put {count : UInt64} (h : least < count) :
    (now.put t bucket (.telling count)).Told least := ⟨t, count, turn_put _ _ _ _, h⟩

omit [DecidableEq τ] in
/-- Nobody sleeps through the tokens of a bucket that has none. -/
theorem watched_of_empty (h : now.bucket.tokens = 0) : now.Watched where
  empty _ _ := h
  some_told hpos := by
    rw [h] at hpos
    exact absurd hpos (by decide)
  all_told hpos := by
    rw [h] at hpos
    exact absurd hpos (by decide)

omit [DecidableEq τ] in
/-- Where nobody sleeps there is nothing to watch. -/
theorem watched_of_awake (hempty : ∀ t, now.turn t = .parking → now.bucket.tokens = 0)
    (h : ∀ t, now.turn t ≠ .asleep) : now.Watched where
  empty := hempty
  some_told _ t hasleep := absurd hasleep (h t)
  all_told _ t hasleep := absurd hasleep (h t)

namespace Watched

/-- A token is taken. If one is left there were two, and then all are still to be told. -/
theorem take (h : now.Watched) (hfree : now.Unlocked) (hseeks : (now.turn t).Seeks)
    (htake : now.bucket.take? = some bucket) : (now.put t bucket .idle).Watched := by
  have htokens := Bucket.tokens_take htake
  have hsilent : ∀ count, now.turn t = .telling count → ¬ 1 < count := by
    intro count hturn
    rw [hturn] at hseeks
    exact hseeks.elim
  -- beside two tokens everybody is to be told of, and that stays true beside the one left
  have htold : 0 < bucket.tokens → ∀ u, (now.put t bucket .idle).turn u = .asleep →
      (now.put t bucket .idle).Told 1 := by
    intro hpos u hasleep
    obtain ⟨-, hturn⟩ | ⟨-, hasleep⟩ := turn_of_put hasleep
    · cases hturn
    · refine (h.all_told ?_ u hasleep).put hsilent
      rw [UInt64.lt_iff_toNat_lt] at hpos ⊢
      change 0 < bucket.tokens.toNat at hpos
      change 1 < now.bucket.tokens.toNat
      omega
  refine ⟨?_, ?_, ?_⟩
  · intro u hparking
    obtain ⟨-, hturn⟩ | ⟨-, hparking⟩ := turn_of_put hparking
    · cases hturn
    · exact absurd hparking (hfree u)
  · intro hpos u hasleep
    exact .inr ((htold hpos u hasleep).mono (by decide))
  · intro hmany
    exact htold (UInt64.lt_trans (by decide) hmany)

/-- Tokens are added, and they are still to be told of. -/
theorem add (hfree : now.Unlocked) (t : τ) (bucket : Bucket) :
    (now.put t bucket (.telling bucket.tokens)).Watched where
  empty u hparking := by
    obtain ⟨-, hturn⟩ | ⟨-, hparking⟩ := turn_of_put hparking
    · cases hturn
    · exact absurd hparking (hfree u)
  some_told hpos _ _ := .inr (told_put hpos)
  all_told hmany _ _ := told_put hmany

/-- A sleeper wakes up. -/
theorem stir (h : now.Watched) (hasleep : now.turn t = .asleep) :
    (now.put t now.bucket .awake).Watched where
  empty u hparking := by
    obtain ⟨-, hturn⟩ | ⟨-, hparking⟩ := turn_of_put hparking
    · cases hturn
    · exact h.empty u hparking
  some_told _ _ _ := .inl ⟨t, turn_put _ _ _ _⟩
  all_told hmany u hsleeper := by
    obtain ⟨-, hturn⟩ | ⟨-, hsleeper⟩ := turn_of_put hsleeper
    · cases hturn
    · refine (h.all_told hmany u hsleeper).put ?_
      intro count hturn
      cases hturn.symm.trans hasleep

/-- A thread has told one other, or none of an empty bucket. -/
theorem tell (h : now.Watched) {count : UInt64} (hturn : now.turn t = .telling count)
    (hle : ¬ 1 < count) (htold : count = 0 ∨ ∃ u, now.turn u = .awake) :
    (now.put t now.bucket .idle).Watched := by
  have hsilent : ∀ {least}, ¬ least < count → ∀ other, now.turn t = .telling other →
      ¬ least < other := by
    intro least hle other hother
    cases hturn.symm.trans hother
    exact hle
  -- a thread that was woken stays awake, since the one that tells was not asleep
  have hawake : (∃ u, now.turn u = .awake) →
      ∃ u, (now.put t now.bucket .idle).turn u = .awake := by
    rintro ⟨u, hu⟩
    have hne : u ≠ t := by
      rintro rfl
      cases hturn.symm.trans hu
    exact ⟨u, (turn_put_of_ne _ _ _ hne).trans hu⟩
  refine ⟨?_, ?_, ?_⟩
  · intro u hparking
    obtain ⟨-, heq⟩ | ⟨-, hparking⟩ := turn_of_put hparking
    · cases heq
    · exact h.empty u hparking
  · intro hpos u hasleep
    obtain ⟨-, heq⟩ | ⟨-, hasleep⟩ := turn_of_put hasleep
    · cases heq
    · rcases htold with rfl | hu
      · exact (h.some_told hpos u hasleep).imp hawake fun htold =>
          htold.put (hsilent (by decide))
      · exact .inl (hawake hu)
  · intro hmany u hasleep
    obtain ⟨-, heq⟩ | ⟨-, hasleep⟩ := turn_of_put hasleep
    · cases heq
    · exact (h.all_told hmany u hasleep).put (hsilent hle)

/-- Once all have been told, nobody sleeps. -/
theorem tellAll (h : now.Watched) (t : τ) : (now.rouse.put t now.bucket .idle).Watched := by
  refine watched_of_awake ?_ ?_
  · intro u hparking
    obtain ⟨-, hturn⟩ | ⟨-, hparking⟩ := turn_of_put hparking
    · cases hturn
    · exact h.empty u (Turn.roused_eq_parking hparking)
  · intro u hasleep
    obtain ⟨-, hturn⟩ | ⟨-, hasleep⟩ := turn_of_put hasleep
    · cases hturn
    · exact Turn.roused_ne_asleep _ hasleep

/-- **Every step keeps the sleepers watched.** -/
theorem step (h : now.Watched) (hstep : Step now next) : next.Watched := by
  cases hstep with
  | take t hfree hseeks htake => exact h.take hfree hseeks htake
  | miss t hfree hseeks hnone => exact watched_of_empty (Bucket.take?_eq_none_iff.1 hnone)
  | park t hparking => exact watched_of_empty (h.empty t hparking)
  | leave t hfree hidle hnone => exact watched_of_empty (Bucket.take?_eq_none_iff.1 hnone)
  | add t count hfree hidle => exact add hfree t _
  | tellNobody t hturn => exact h.tell hturn (by decide) (.inl rfl)
  -- the sleeper is woken first, and then the thread is done with telling
  | tellOne t u hturn hasleep =>
    have hne : t ≠ u := by
      rintro rfl
      cases hturn.symm.trans hasleep
    have hstill : (now.put u now.bucket .awake).turn t = .telling 1 :=
      (turn_put_of_ne _ _ _ hne).trans hturn
    exact (h.stir hasleep).tell hstill (by decide) (.inr ⟨u, turn_put _ _ _ _⟩)
  | tellInVain t hturn hnobody =>
    refine watched_of_awake ?_ ?_
    · intro u hparking
      obtain ⟨-, heq⟩ | ⟨-, hparking⟩ := turn_of_put hparking
      · cases heq
      · exact h.empty u hparking
    · intro u hasleep
      obtain ⟨-, heq⟩ | ⟨-, hasleep⟩ := turn_of_put hasleep
      · cases heq
      · exact hnobody u hasleep
  | tellAll t hturn hmany => exact h.tellAll t
  | stir t hasleep => exact h.stir hasleep

end Watched

/-- The invariant holds in whatever comes about. -/
theorem Reachable.watched {initial : Bucket} (h : Reachable initial now) : now.Watched := by
  induction h with
  | start => exact watched_of_awake (fun _ hparking => nomatch hparking) fun _ => nofun
  | step _ hstep ih => exact ih.step hstep

/-! ## The result -/

/-- **No wake-up is lost.** It never happens that tokens are there and a thread sleeps, while nobody
has been woken who is still to look and nobody is still to tell those that sleep. And where more
than one token is there beside a sleeper, somebody is still to tell all of them. -/
theorem Reachable.no_wakeup_lost {initial : Bucket} (h : Reachable initial now) :
    ¬ (0 < now.bucket.tokens ∧ (∃ t, now.turn t = .asleep) ∧ (∀ t, now.turn t ≠ .awake) ∧
      ∀ t count, now.turn t = .telling count → count = 0) ∧
    (1 < now.bucket.tokens → (∃ t, now.turn t = .asleep) →
      ∃ t count, now.turn t = .telling count ∧ 1 < count) := by
  refine ⟨?_, ?_⟩
  · rintro ⟨hpos, ⟨t, hasleep⟩, hawake, htelling⟩
    rcases h.watched.some_told hpos t hasleep with ⟨u, hu⟩ | ⟨u, count, hu, hcount⟩
    · exact hawake u hu
    · rw [htelling u count hu] at hcount
      exact absurd hcount (by decide)
  · rintro hmany ⟨t, hasleep⟩
    exact h.watched.all_told hmany t hasleep

/-- Two threads sleep when a third adds a token and tells one of them: beside the token and the one
that still sleeps, the other one is awake. -/
theorem no_wakeup_lost_of_one_told :
    ∃ now : Waking (Fin 3), Reachable ⟨0⟩ now ∧ now.bucket.tokens = 1 ∧ now.turn 0 = .asleep ∧
      now.turn 1 = .awake ∧
      ¬ (0 < now.bucket.tokens ∧ (∃ t, now.turn t = .asleep) ∧ (∀ t, now.turn t ≠ .awake) ∧
        ∀ t count, now.turn t = .telling count → count = 0) := by
  have hfirst : Reachable ⟨0⟩ _ := Reachable.start.step (.miss (0 : Fin 3) nofun trivial rfl)
  have hasleep : Reachable ⟨0⟩ _ := hfirst.step (.park 0 rfl)
  have hsecond : Reachable ⟨0⟩ _ := hasleep.step (.miss 1 (by decide) trivial rfl)
  have hboth : Reachable ⟨0⟩ _ := hsecond.step (.park 1 rfl)
  have hadded : Reachable ⟨0⟩ _ := hboth.step (.add 2 1 (by decide) rfl)
  have htold : Reachable ⟨0⟩ _ := hadded.step (.tellOne 2 1 rfl rfl)
  exact ⟨_, htold, rfl, rfl, rfl, htold.no_wakeup_lost.1⟩

end Waking

end GpuQuota.Pacing
