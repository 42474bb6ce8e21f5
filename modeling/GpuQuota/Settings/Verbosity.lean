import GpuQuota.Number.Decimal
import GpuQuota.Text.Blank

/-!
# Verbosity

How much is written to the log. A level is set by number or by name, in any case of letters.
-/

namespace GpuQuota.Settings

open GpuQuota.Text GpuQuota.Number

/-- The variable that sets the level. -/
def levelVariable : String := "LOGGER_LEVEL"

/-- Levels from the quietest to the most talkative. -/
inductive Verbosity where
  | off
  | error
  | warn
  | info
  | debug
  | trace
  deriving DecidableEq, Repr, Inhabited

namespace Verbosity

/-- The name of a level, in capital letters. -/
def name : Verbosity → String
  | off => "OFF"
  | error => "ERROR"
  | warn => "WARN"
  | info => "INFO"
  | debug => "DEBUG"
  | trace => "TRACE"

/-- All levels in their order. -/
def all : List Verbosity := [off, error, warn, info, debug, trace]

/-- The level of a number: no number turns the log off, and all from five up mean `trace`. -/
def ofNumber : Nat → Verbosity
  | 0 | 1 => error
  | 2 => warn
  | 3 => info
  | 4 => debug
  | _ => trace

/-- The level that a setting stands for: a 32-bit number or a level's name, whose letters may be
of either case. -/
def read? (text : List Char) : Option Verbosity :=
  let text := trim text
  match readUnsigned (UInt32.size - 1) text with
  | .ok n => some (ofNumber n)
  | .error _ => all.find? fun level => level.name.toList = text.map Char.toUpper

/-- The level while nothing sets one. -/
def default : Verbosity := warn

/-- The level under a setting that may be absent or hold no level. -/
def effective (setting : Option String) : Verbosity :=
  (setting.bind fun text => read? text.toList).getD default

theorem read?_name (level : Verbosity) : read? level.name.toList = some level := by
  cases level <;> decide +kernel

end Verbosity

end GpuQuota.Settings
