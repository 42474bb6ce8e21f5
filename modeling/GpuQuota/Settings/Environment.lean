import GpuQuota.Notice
import GpuQuota.Settings.Quota

/-!
# Quotas from the environment

A governed process learns its quotas from two environment variables. A variable that is absent,
or holds no quota, sets no limit; only in the second case is there something to tell.
-/

namespace GpuQuota.Settings

/-- The variable that holds the memory quota. -/
def memoryVariable : String := "CUDA_MEM_LIMIT"

/-- The variable that holds the compute quota. -/
def computeVariable : String := "CUDA_CORE_LIMIT"

/-- An environment: the value of each variable that is set. -/
abbrev Environment := String → Option String

/-- The quotas of one process. -/
structure Quotas where
  memory : Option MemoryQuota := none
  compute : Option ComputeQuota := none
  deriving DecidableEq, Repr, Inhabited

/-- Whether anything is limited. -/
def Quotas.any (quotas : Quotas) : Bool :=
  quotas.memory.isSome || quotas.compute.isSome

/-- The quota in one variable, and a notice when it holds none. -/
def quotaIn {α : Type} (parse : List Char → Except QuotaProblem α) (env : Environment)
    (name : String) : Option α × List Notice :=
  match env name with
  | none => (none, [])
  | some spec =>
    match parse spec.toList with
    | .ok quota => (some quota, [])
    | .error problem => (none, [.limitRefused (problem.inSetting name)])

/-- The quotas that an environment sets. -/
def Quotas.ofEnvironment (env : Environment) : Quotas × List Notice :=
  let (memory, memoryNotices) := quotaIn MemoryQuota.parse env memoryVariable
  let (compute, computeNotices) := quotaIn ComputeQuota.parse env computeVariable
  (⟨memory, compute⟩, memoryNotices ++ computeNotices)

end GpuQuota.Settings
