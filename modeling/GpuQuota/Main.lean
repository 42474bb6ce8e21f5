import GpuQuota.Device.Library
import GpuQuota.Settings.CommandLine
import GpuQuota.Settings.File
import GpuQuota.Settings.Verbosity

/-!
# The monitor's command

Reads the command line, the environment and the settings, tells what there is to tell and opens
the device library. What the command comes to is `Command.run`, a function of what was read; the
program around it reads and prints. No device library is linked to it, so a monitor ends where it
would open one.
-/

namespace GpuQuota.Command

open GpuQuota.Device GpuQuota.Settings

/-- What a command writes, to the terminal and to the log, and its exit code. -/
structure Report where
  output : List String := []
  log : List String := []
  code : UInt32 := 0

/-- How the command is to be called. -/
def usage : String := "Usage: gpu-quota-monitor [OPTIONS] <MINOR> <GROUP> <PERCENT>"

/-- The whole help text. -/
def help : List String :=
  [usage, "",
    "      --interval-ms <MS>  how often utilization is looked at",
    "  -c, --config <FILE>     the settings file",
    "  -v, --verbose           writes more to the log",
    "  -h, --help              prints this",
    "  -V, --version           prints the version"]

/-- What is wrong with a command line; nothing is where it asks about the program. -/
def complaint? : CommandLine.Problem → Option String
  | .help | .version => none
  | .missingArgument => some "an argument is missing"
  | .unknownArgument => some "an argument is unknown"
  | .badValue message => some message
  | .missingValue => some "an option has no value"
  | .repeated => some "an option or argument is given twice"
  | .unexpectedValue => some "an option takes no value"

/-- What an operator can do about a fault. -/
def hint : Fault → List String
  | .device .libraryNotFound =>
    ["", "Hint: Make sure the NVIDIA driver is installed.",
      "      On Linux, install the nvidia-utils package."]
  | .region _ => ["", "Hint: The monitor needs write access to /dev/shm."]
  | _ => []

/-- Whether a notice is written to the log. -/
def isShown (level : Verbosity) (notice : Notice) : Bool :=
  match level, notice.severity with
  | .off, _ => false
  | .error, .warn => false
  | _, _ => true

/-- The variables that the command reads. -/
def variableNames : List String := [fileVariable, standaloneVariable, levelVariable]

/-- What a command comes to. -/
def run (installed : Installed) (env : Environment) (files : Files) (arguments : List String) :
    Report :=
  match CommandLine.read arguments env with
  | .error (problem, notices) =>
    let log := (notices.filter (isShown .default)).map Notice.line
    match complaint? problem with
    | some text => { log := log ++ ["error: " ++ text, usage], code := 2 }
    | none => { output := if problem = .version then ["gpu-quota-monitor"] else help, log }
  | .ok (request, notices) =>
    let level := if request.verbose then .debug else Verbosity.effective (env levelVariable)
    let (_, more) := Config.withSettings {} files request.config
    let log := ((notices ++ more).filter (isShown level)).map Notice.line
    match ((Library.load installed).result.bind fun library =>
      library.gpuOfMinor request.quota.minor) with
    | .ok _ => { log }
    | .error fault =>
      let fault := Fault.device fault
      { log := log ++ ["Error: " ++ fault.message] ++ hint fault, code := 1 }

/-- The settings files that a command may look into. -/
def paths (env : Environment) (arguments : List String) : List String :=
  match CommandLine.read arguments env with
  | .ok (request, _) => request.config.toList ++ [systemPath]
  | .error _ => []

end GpuQuota.Command

open GpuQuota in
/-- Reads the variables and the files that the command may look into, and leaves the rest to
`run`. -/
def main (arguments : List String) : IO UInt32 := do
  let set ← Command.variableNames.filterMapM fun name => do
    return (← IO.getEnv name).map fun value => (name, value)
  let env := fun name => set.lookup name
  let read ← (Command.paths env arguments).filterMapM fun (path : String) => do
    try return some (path, ← IO.FS.readBinFile path)
    catch _ => return none
  let report := Command.run (fun _ => none) env (fun path => read.lookup path) arguments
  report.output.forM IO.println
  report.log.forM IO.eprintln
  return report.code
