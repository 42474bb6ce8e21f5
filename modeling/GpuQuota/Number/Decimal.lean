/-!
# Reading whole numbers

Decimal numbers as settings, limits and command lines write them: an optional sign and one or
more digits, read from the left, refused at the first character that is no digit or the first
digit that takes the value past the bound. Which of two faults is reported is thereby fixed: the
one further to the left.

* `digits_eq_ok_iff`: reading succeeds on exactly the digit strings whose value is in bounds.
-/

namespace GpuQuota.Number

/-- Why a text is no whole number in its bounds. -/
inductive Malformed where
  | empty
  | badDigit
  | tooLarge
  | tooSmall
  deriving DecidableEq, Repr

/-- The usual wording of each fault. -/
def Malformed.message : Malformed → String
  | .empty => "cannot parse integer from empty string"
  | .badDigit => "invalid digit found in string"
  | .tooLarge => "number too large to fit in target type"
  | .tooSmall => "number too small to fit in target type"

/-- The value of an ASCII digit. -/
def digit? (c : Char) : Option Nat :=
  if '0' ≤ c ∧ c ≤ '9' then some (c.toNat - '0'.toNat) else none

/-- What a digit with `n` digits behind it counts. -/
def powerOfTen (n : Nat) : Nat := Nat.pow 10 n

/-- Reads on from the value of the digits so far; a value past `bound` is the fault `excess`. -/
def digits (bound : Nat) (excess : Malformed) : Nat → List Char → Except Malformed Nat
  | value, [] => .ok value
  | value, c :: rest =>
    match digit? c with
    | none => .error .badDigit
    | some d =>
      let next := value * 10 + d
      if next ≤ bound then digits bound excess next rest else .error excess

/-- A number up to `bound`, with or without a plus sign. -/
def readUnsigned (bound : Nat) : List Char → Except Malformed Nat
  | [] => .error .empty
  | ['+'] => .error .badDigit
  | '+' :: rest => digits bound .tooLarge 0 rest
  | s => digits bound .tooLarge 0 s

/-- A number from `-low` to `high`, with or without a sign. -/
def readSigned (low high : Nat) : List Char → Except Malformed Int
  | [] => .error .empty
  | ['+'] => .error .badDigit
  | ['-'] => .error .badDigit
  | '+' :: rest => (digits high .tooLarge 0 rest).map Int.ofNat
  | '-' :: rest => (digits low .tooSmall 0 rest).map fun n => -Int.ofNat n
  | s => (digits high .tooLarge 0 s).map Int.ofNat

/-- The value of a digit string, read on from `value`; other characters count as nothing. -/
def valueFrom (value : Nat) (s : List Char) : Nat :=
  s.foldl (fun acc c => acc * 10 + (digit? c).getD 0) value

theorem le_valueFrom (value : Nat) (s : List Char) : value ≤ valueFrom value s := by
  induction s generalizing value with
  | nil => exact Nat.le_refl _
  | cons c rest ih =>
    exact Nat.le_trans (by omega) (ih (value * 10 + (digit? c).getD 0))

theorem digits_eq_ok_iff {bound value n : Nat} {excess : Malformed} {s : List Char}
    (hv : value ≤ bound) :
    digits bound excess value s = .ok n ↔
      (∀ c ∈ s, (digit? c).isSome) ∧ n = valueFrom value s ∧ n ≤ bound := by
  induction s generalizing value with
  | nil =>
    simp only [digits, Except.ok.injEq, List.not_mem_nil, false_implies, implies_true, valueFrom,
      List.foldl_nil, true_and]
    constructor
    · rintro rfl; exact ⟨rfl, hv⟩
    · rintro ⟨rfl, _⟩; rfl
  | cons c rest ih =>
    cases hd : digit? c with
    | none => simp [digits, hd]
    | some d =>
      have hfold : valueFrom value (c :: rest) = valueFrom (value * 10 + d) rest := by
        simp [valueFrom, hd]
      by_cases hb : value * 10 + d ≤ bound
      · simp only [digits, hd, hb, if_true, ih hb, hfold, List.mem_cons, forall_eq_or_imp,
          Option.isSome_some, true_and]
      · have := le_valueFrom (value * 10 + d) rest
        simp only [digits, hd, hb, if_false, hfold, reduceCtorEq, false_iff, not_and]
        intro _ hn
        omega

end GpuQuota.Number
