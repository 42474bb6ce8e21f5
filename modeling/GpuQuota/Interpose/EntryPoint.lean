import GpuQuota.Governor
import GpuQuota.Interpose.HookTable

/-!
# The entry points that the library stands in for

Two kinds of functions of the device's programming interface are replaced. A kernel launch waits
for a token and then goes on to the real function with its arguments as they are. A lookup of a
function's address goes on to the real lookup, and what that has found is replaced if need be.

* `launch?_arguments`: the real function sees a launch's arguments.
-/

namespace GpuQuota.Interpose

/-- The width of an argument. -/
inductive ArgumentWidth where
  | word32
  | word64
  deriving DecidableEq, Repr

/-- What an entry point is for. -/
inductive EntryKind where
  | lookup
  | launch (arguments : List ArgumentWidth)
  deriving DecidableEq, Repr

/-- A launch with the extents of its grid and blocks and the size of its memory between the
function and the stream. -/
def launchArguments : List ArgumentWidth :=
  [.word64] ++ List.replicate 7 .word32 ++ List.replicate 3 .word64

/-- A launch that finds all of that in one structure. -/
def extendedArguments : List ArgumentWidth := List.replicate 4 .word64

/-- The entry points. -/
def entryPoints : List (String × EntryKind) :=
  [("cuGetProcAddress", .lookup), ("cuGetProcAddress_v2", .lookup),
    ("cuLaunchKernel", .launch launchArguments),
    ("cuLaunchKernel_ptsz", .launch launchArguments),
    ("cuLaunchKernelEx", .launch extendedArguments),
    ("cuLaunchKernelEx_ptsz", .launch extendedArguments)]

/-- The table of the entry points, with the address of each one's replacement. -/
def entryTable (hookAddress : String → Address) : HookTable :=
  ⟨entryPoints.map fun (name, _) => .create name (hookAddress name)⟩

/-- An argument as a function of its width takes it. -/
def ArgumentWidth.pass : ArgumentWidth → UInt64 → UInt64
  | .word32, value => value.toUInt32.toUInt64
  | .word64, value => value

/-- Arguments as a function takes them; missing ones are zero and others do not count. -/
def passed : List ArgumentWidth → List UInt64 → List UInt64
  | [], _ => []
  | width :: widths, values => width.pass (values.headD 0) :: passed widths values.tail

/-- A launch: what the real function is called with, and the governor afterwards. There is no
answer where the launch blocks. -/
def launch? (governor : Governor) (widths : List ArgumentWidth) (values : List UInt64) :
    Option (List UInt64 × Governor) :=
  governor.launch?.map fun governor => (passed widths values, governor)

/-- A lookup that the real function has answered with `ret`: what stands in the slot afterwards. -/
def lookedUp (table : HookTable) (name : Option String) (flags : UInt64) (slot : Option Address)
    (ret : Int32) : Option Address × HookTable :=
  if ret = 0 then table.patch (name.map String.toUTF8) flags slot else (slot, table)

theorem launch?_arguments {governor after : Governor} {widths : List ArgumentWidth}
    {values seen : List UInt64} (h : launch? governor widths values = some (seen, after)) :
    seen = passed widths values ∧ governor.launch? = some after := by
  obtain ⟨next, hnext, h⟩ := Option.map_eq_some_iff.1 h
  simp only [Prod.mk.injEq] at h
  obtain ⟨rfl, rfl⟩ := h
  exact ⟨rfl, hnext⟩

end GpuQuota.Interpose
