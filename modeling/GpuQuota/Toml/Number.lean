import GpuQuota.Number.Decimal
import GpuQuota.Toml.Item
import GpuQuota.Toml.Text

/-!
# Numbers, dates and times of documents

Numbers may have underscores between two digits. An integer fits 64 bits with a sign; it is
decimal without leading zeros and with or without a sign, or starts with `0x`, `0o` or `0b`. A
float has a fraction, an exponent or both, and is not beyond the largest one of 64 bits. Dates and
times are those of the calendar.
-/

namespace GpuQuota.Toml

open GpuQuota.Number

/-! ## Digits

An underscore stands between two digits or not at all. -/

/-- The digits that follow a first one, without the underscores between them. -/
def moreDigits (isDigit : Char → Bool) : List Char → List Char × List Char
  | '_' :: c :: rest =>
    if isDigit c then
      let (digits, rest) := moreDigits isDigit rest
      (c :: digits, rest)
    else ([], '_' :: c :: rest)
  | c :: rest =>
    if isDigit c then
      let (digits, rest) := moreDigits isDigit rest
      (c :: digits, rest)
    else ([], c :: rest)
  | [] => ([], [])

/-- One or more digits. -/
def digitRun (isDigit : Char → Bool) : Reader (List Char)
  | c :: rest =>
    if isDigit c then
      let (digits, rest) := moreDigits isDigit rest
      some (c :: digits, rest)
    else none
  | [] => none

/-- Whether a character is a decimal digit. -/
def isDecimal (c : Char) : Bool := (digit? c).isSome

/-- Whether there is a minus sign, and what follows the sign, if there is one. -/
def sign : List Char → Bool × List Char
  | '+' :: rest => (false, rest)
  | '-' :: rest => (true, rest)
  | s => (false, s)

/-- A sign, if there is one, and the digits of a number without leading zeros. -/
def decimalInt (s : List Char) : Option ((Bool × List Char) × List Char) :=
  match sign s with
  | (negative, '0' :: rest) => some ((negative, ['0']), rest)
  | (negative, rest) => do
    let (digits, rest) ← digitRun isDecimal rest
    some ((negative, digits), rest)

/-! ## Integers

The two ends of the range are not symmetric, so the sign is looked at before the bound. -/

/-- The largest integer. -/
def largest : Nat := (1 <<< 63) - 1

/-- Digits in a base other than ten. -/
def basedInt (base : Nat) (s : List Char) : Option (Int × List Char) := do
  let isDigit := fun c => (hexDigit? c).any (· < base)
  let (digits, rest) ← digitRun isDigit s
  let value := digits.foldl (fun value c => value * base + (hexDigit? c).getD 0) 0
  if value ≤ largest then some (value, rest) else none

/-- An integer in any base. -/
def integer : Reader Int
  | '0' :: 'x' :: rest => basedInt 16 rest
  | '0' :: 'o' :: rest => basedInt 8 rest
  | '0' :: 'b' :: rest => basedInt 2 rest
  | s => do
    let ((negative, digits), rest) ← decimalInt s
    let value := valueFrom 0 digits
    if negative then if value ≤ largest + 1 then some (-value, rest) else none
    else if value ≤ largest then some (value, rest) else none

/-! ## Floats

Only whether a float is well formed and not beyond the largest one matters here: no setting is a
float, so its value is not computed. -/

/-- The least number that is rounded to infinity. -/
def infinityBound : Nat := (1 <<< 1024) - (1 <<< 970)

/-- Whether `mantissa * 10 ^ exponent` is too large for a float. Numbers of fewer than 300 or more
than 400 digits need no arithmetic. -/
def isInfinite (mantissa : Nat) (exponent : Int) : Bool :=
  let digits := (Nat.toDigits 10 mantissa).length + exponent
  if mantissa = 0 ∨ digits < 300 then false
  else if 400 < digits then true
  else if 0 ≤ exponent then infinityBound ≤ mantissa * powerOfTen exponent.toNat
  else infinityBound * powerOfTen (-exponent).toNat ≤ mantissa

/-- The exponent of a float, zero if there is none. -/
def exponent? : List Char → Option (Int × List Char)
  | 'e' :: rest | 'E' :: rest => do
    let (negative, rest) := sign rest
    let (digits, rest) ← digitRun isDecimal rest
    let value : Int := valueFrom 0 digits
    some (if negative then -value else value, rest)
  | s => some (0, s)

/-- What follows a float that starts the text. -/
def finite? (s : List Char) : Option (List Char) := do
  let ((negative, whole), rest) ← decimalInt s
  let (fraction, rest) ← match rest with
    | '.' :: rest => digitRun isDecimal rest
    | 'e' :: _ | 'E' :: _ => some ([], rest)
    | _ => none
  let (exponent, rest) ← exponent? rest
  if !negative && isInfinite (valueFrom 0 (whole ++ fraction)) (exponent - fraction.length) then
    none
  else some rest

/-- What follows one of the words for infinity and for no number. -/
def special? (s : List Char) : Option (List Char) :=
  match (sign s).2 with
  | 'i' :: 'n' :: 'f' :: rest | 'n' :: 'a' :: 'n' :: rest => some rest
  | _ => none

/-! ## Dates and times

Dates and times are read for the same reason: a document that holds a bad one is none. -/

/-- A number of two digits, from `low` to `high`. -/
def twoDigits (low high : Nat) : Reader Nat
  | a :: b :: rest => do
    let value := (← digit? a) * 10 + (← digit? b)
    if low ≤ value ∧ value ≤ high then some (value, rest) else none
  | _ => none

/-- Whether February has 29 days. -/
def isLeapYear (year : Nat) : Bool := year % 4 = 0 && (year % 100 ≠ 0 || year % 400 = 0)

/-- The days of a month. -/
def daysIn (year month : Nat) : Nat :=
  if month = 2 then if isLeapYear year then 29 else 28
  else if month = 4 ∨ month = 6 ∨ month = 9 ∨ month = 11 then 30
  else 31

/-- What follows a date that starts the text. -/
def date? (s : List Char) : Option (List Char) := do
  let (century, rest) ← twoDigits 0 99 s
  let (year, rest) ← twoDigits 0 99 rest
  match rest with
  | '-' :: rest =>
    let (month, rest) ← twoDigits 1 12 rest
    match rest with
    | '-' :: rest => (twoDigits 1 (daysIn (century * 100 + year) month) rest).map Prod.snd
    | _ => none
  | _ => none

/-- What follows an hour and a minute that start the text. -/
def clock? (s : List Char) : Option (List Char) := do
  let (_, rest) ← twoDigits 0 23 s
  match rest with
  | ':' :: rest => (twoDigits 0 59 rest).map Prod.snd
  | _ => none

/-- What follows a time that starts the text: hour, minute, second, and a fraction of it. -/
def time? (s : List Char) : Option (List Char) := do
  match ← clock? s with
  | ':' :: rest =>
    let (_, rest) ← twoDigits 0 60 rest
    match rest with
    | '.' :: c :: more => some (if isDecimal c then more.dropWhile isDecimal else rest)
    | _ => some rest
  | _ => none

/-- What follows the offset of a time, which may be missing. -/
def dropOffset : List Char → List Char
  | 'Z' :: rest | 'z' :: rest => rest
  | '+' :: rest => (clock? rest).getD ('+' :: rest)
  | '-' :: rest => (clock? rest).getD ('-' :: rest)
  | s => s

/-- What follows a date, a time or both that start the text. -/
def moment? (s : List Char) : Option (List Char) :=
  match date? s with
  | none => time? s
  | some rest =>
    match rest with
    | 'T' :: more | 't' :: more | ' ' :: more => some (((time? more).map dropOffset).getD rest)
    | _ => some rest

/-! ## All of them

What starts with a digit may be any of these, so the longer forms are tried first. -/

/-- A number, a date or a time. -/
def number : Reader Item := fun s =>
  match moment? s with
  | some rest => some (.moment, rest)
  | none =>
    match finite? s <|> special? s with
    | some rest => some (.float, rest)
    | none => (integer s).map fun (value, rest) => (.integer value, rest)

end GpuQuota.Toml
