import GpuQuota.Number.Decimal
import GpuQuota.Settings.Config
import GpuQuota.Settings.ControlGroup

/-!
# The command line of a monitor

A monitor is told which device and control group to look after and the limit of the group, in that
order, and takes some options anywhere among them. A value is judged when the next argument is
reached and not before; so of two faults the one further to the left is reported, except that an
argument that nothing can make sense of is reported before a value to its left.

* `config_finish`: the variable stands in for the option that is not given.
-/

namespace GpuQuota.Settings.CommandLine

open GpuQuota.Number

/-- What the command line asks for. -/
structure Request where
  quota : ComputeQuota
  group : String
  intervalMs : Option UInt64
  config : Option String
  verbose : Bool
  deriving DecidableEq, Repr

/-- Why there is nothing to do: a fault, or a question to the program itself. -/
inductive Problem where
  | missingArgument
  | unknownArgument
  | badValue (message : String)
  | missingValue
  | repeated
  /-- a value with an option that takes none -/
  | unexpectedValue
  | help
  | version
  deriving DecidableEq, Repr

/-- What takes a value: the three positions, and two options. -/
inductive Slot where
  | minor
  | group
  | percent
  | interval
  | config
  deriving DecidableEq, Repr

/-- An option without a value. -/
inductive Flag where
  | verbose
  | help
  | version
  deriving DecidableEq, Repr

/-- The arguments read so far. -/
structure Reading where
  minor : Option UInt32 := none
  group : Option String := none
  percent : Option UInt32 := none
  interval : Option UInt64 := none
  config : Option String := none
  verbose : Bool := false
  /-- a slot that has begun, and its value if it has come -/
  pending : Option (Slot × Option (List Char)) := none
  /-- how many positions are taken -/
  taken : Nat := 0
  /-- only positions from here on -/
  trailing : Bool := false
  notices : List Notice := []

/-- What reading comes to: a fault leaves the notices of what was read before it. -/
abbrev Step := Except (Problem × List Notice) Reading

namespace Reading

/-- Ends the reading with a problem, and with the notices so far. -/
def fail (reading : Reading) (problem : Problem) : Step := .error (problem, reading.notices)

/-! ## Values

A slot is filled when the next argument or the end shows that its value is complete, and it is
filled once. -/

/-- A number from `low` to `high`. -/
def ranged (low high : Nat) (text : List Char) : Except String UInt32 :=
  match readSigned (1 <<< 63) ((1 <<< 63) - 1) text with
  | .error fault => .error fault.message
  | .ok value =>
    if low ≤ value ∧ value ≤ high then .ok (UInt32.ofNat value.toNat)
    else .error (toString value ++ " is not in " ++ toString low ++ "..=" ++ toString high)

/-- Whether a slot has its value. -/
def isSet (reading : Reading) : Slot → Bool
  | .minor => reading.minor.isSome
  | .group => reading.group.isSome
  | .percent => reading.percent.isSome
  | .interval => reading.interval.isSome
  | .config => reading.config.isSome

/-- Puts a value into a slot. -/
def fill (reading : Reading) (slot : Slot) (text : List Char) : Except String Reading :=
  match slot with
  | .minor => (ranged 0 (UInt32.size - 1) text).map fun n => { reading with minor := some n }
  | .percent => (ranged 1 100 text).map fun n => { reading with percent := some n }
  | .interval =>
    match readUnsigned (UInt64.size - 1) text with
    | .error fault => .error fault.message
    | .ok n => .ok { reading with interval := some (UInt64.ofNat n) }
  | .config => .ok { reading with config := some (String.ofList text) }
  | .group =>
    match ControlGroup.idOfArgument text with
    | .error problem => .error problem.message
    | .ok (id, notices) =>
      .ok { reading with
        group := some (String.ofList id), notices := reading.notices ++ notices }

/-- Gives a slot its value, once. -/
def assign (reading : Reading) (slot : Slot) (text : List Char) : Step :=
  if reading.isSet slot then reading.fail .repeated
  else
    match reading.fill slot text with
    | .ok after => .ok after
    | .error message => reading.fail (.badValue message)

/-- Settles the slot that has begun. -/
def settle (reading : Reading) : Step :=
  match reading.pending with
  | none => .ok reading
  | some (_, none) => reading.fail .missingValue
  | some (slot, some text) => { reading with pending := none }.assign slot text

/-- Fails whatever the slot that has begun comes to. -/
def abandon (reading : Reading) (problem : Problem) : Step :=
  match reading.settle with
  | .ok after => after.fail problem
  | .error (_, notices) => .error (problem, notices)

/-! ## Arguments

An option by its long name has its value behind a sign of equality or in the next argument; letters
may stand together behind one dash. Everything behind two dashes alone is a position. -/

/-- Begins a slot, with its value if that stands with it. -/
def begin (reading : Reading) (slot : Slot) (text : Option (List Char)) : Step := do
  let reading ← reading.settle
  match text with
  | some text => reading.assign slot text
  | none => .ok { reading with pending := some (slot, none) }

/-- Takes in an option without a value. -/
def raise (reading : Reading) (flag : Flag) : Step := do
  let reading ← reading.settle
  match flag with
  | .help => reading.fail .help
  | .version => reading.fail .version
  | .verbose =>
    if reading.verbose then reading.fail .repeated else .ok { reading with verbose := true }

/-- The option of a long name. -/
def longName? (name : List Char) : Option (Slot ⊕ Flag) :=
  [("interval-ms", .inl .interval), ("config", .inl .config), ("verbose", .inr .verbose),
    ("help", .inr .help), ("version", .inr .version)].lookup (String.ofList name)

/-- The option of a letter. -/
def letter? : Char → Option (Slot ⊕ Flag)
  | 'c' => some (.inl .config)
  | 'v' => some (.inr .verbose)
  | 'h' => some (.inr .help)
  | 'V' => some (.inr .version)
  | _ => none

/-- An option by its long name, with a value behind an equals sign or without. -/
def long (reading : Reading) (name : List Char) (value : Option (List Char)) : Step :=
  match longName? name, value with
  | none, _ => reading.abandon .unknownArgument
  | some (.inr _), some _ => reading.abandon .unexpectedValue
  | some (.inr flag), none => reading.raise flag
  | some (.inl slot), value => reading.begin slot value

/-- Letters behind one dash. What follows the letter of an option with a value is the value. -/
def letters (reading : Reading) : List Char → Step
  | [] => .ok reading
  | c :: rest =>
    match letter? c with
    | none => reading.abandon .unknownArgument
    | some (.inr flag) => do (← reading.raise flag).letters rest
    | some (.inl slot) =>
      match rest with
      | [] => reading.begin slot none
      | '=' :: value => reading.begin slot (some value)
      | value => reading.begin slot (some value)

/-- The slots of the positions, in order. -/
def positions : List Slot := [.minor, .group, .percent]

/-- An argument that is the value of the next position. -/
def position (reading : Reading) (text : List Char) : Step :=
  match positions[reading.taken]? with
  | none => reading.abandon .unknownArgument
  | some slot => do
    let reading ← reading.settle
    .ok { reading with pending := some (slot, some text), taken := reading.taken + 1 }

/-- The next argument. -/
def read (reading : Reading) (text : List Char) : Step :=
  if reading.trailing then reading.position text
  else
    match text with
    | ['-', '-'] => .ok { reading with trailing := true }
    | '-' :: '-' :: option =>
      match Text.cutFirst '=' option with
      | some (name, value) => reading.long name (some value)
      | none => reading.long option none
    | '-' :: c :: rest => reading.letters (c :: rest)
    | _ =>
      match reading.pending with
      | some (slot, none) => .ok { reading with pending := some (slot, some text) }
      | _ => reading.position text

/-- The request at the end of the arguments. -/
def finish (reading : Reading) (env : Environment) :
    Except (Problem × List Notice) (Request × List Notice) := do
  let reading ← reading.settle
  match reading.minor, reading.group, reading.percent with
  | some minor, some group, some percent =>
    .ok ({ quota := ⟨minor, percent⟩, group, intervalMs := reading.interval
           config := reading.config.or (env fileVariable), verbose := reading.verbose },
      reading.notices)
  | _, _, _ => .error (.missingArgument, reading.notices)

end Reading

/-- Reads the arguments. -/
def read (arguments : List String) (env : Environment) :
    Except (Problem × List Notice) (Request × List Notice) := do
  (← arguments.foldlM (fun reading text => Reading.read reading text.toList) {}).finish env

theorem config_finish {reading : Reading} {env : Environment} {request : Request}
    {notices : List Notice} (hp : reading.pending = none)
    (h : reading.finish env = .ok (request, notices)) :
    request.config = reading.config.or (env fileVariable) := by
  simp only [Reading.finish, Reading.settle, hp, bind, Except.bind] at h
  split at h
  · simp only [Except.ok.injEq, Prod.mk.injEq] at h
    rw [← h.1]
  · simp at h

end GpuQuota.Settings.CommandLine
