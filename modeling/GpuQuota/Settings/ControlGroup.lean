import GpuQuota.Notice
import GpuQuota.Text.Blank
import GpuQuota.Text.Segment

/-!
# Control group ids

Processes of one container share a control group, and its id is part of the name of the region
that they and their monitor meet in. The process side reads the id off its membership file; the
monitor side is given it on the command line. Both cut it to the same length, so that they agree.

A membership file has one line for each hierarchy, `number:controllers:path`. The line whose
controllers include `devices` decides; without one it is the line of the unified hierarchy,
which starts with `0::`.
-/

namespace GpuQuota.Settings.ControlGroup

open GpuQuota.Text

/-- The length of an id, in characters. -/
def idLength : Nat := 15

/-- What container runtimes put in front of an id. -/
def runtimeMarks : List (List Char) :=
  ["docker-", "cri-containerd-", "crio-"].map String.toList

/-- What the init system puts behind an id. -/
def scopeMark : List Char := ".scope".toList

/-- The path of a line of the hierarchy that governs devices. -/
def devicesPath? (line : List Char) : Option (List Char) := do
  let (_, rest) ← cutFirst ':' line
  let (controllers, path) ← cutFirst ':' rest
  if (controllers.splitOn ',').contains "devices".toList then some path else none

/-- The path of a line of the unified hierarchy. -/
def unifiedPath? (line : List Char) : Option (List Char) :=
  dropStart? "0::".toList line

/-- A path segment without the first runtime mark that it starts with. -/
def dropRuntimeMark (segment : List Char) : List Char :=
  (runtimeMarks.findSome? (dropStart? · segment)).getD segment

/-- The bare id in a path segment: no runtime mark in front, no scope mark behind. -/
def bareId (segment : List Char) : List Char :=
  let segment := dropRuntimeMark segment
  (dropEnd? scopeMark segment).getD segment

/-- The id that the last segment of a path holds. -/
def idOfPath? (path : List Char) : Option (List Char) :=
  match bareId (afterLast '/' (trim path)) with
  | [] => none
  | id => some (id.take idLength)

/-- The id in a membership file. -/
def idOfMembership? (content : List Char) : Option (List Char) :=
  let ls := lines content
  ((ls.findSome? devicesPath?).or (ls.findSome? unifiedPath?)).bind idOfPath?

/-- Why a text is no id on the command line. -/
inductive IdProblem where
  | empty
  | severalSegments
  deriving DecidableEq, Repr

/-- The problem in words. -/
def IdProblem.message : IdProblem → String
  | .empty => "cgroup id must not be empty"
  | .severalSegments => "cgroup id must be a single path segment"

/-- The id that a text on the command line stands for, and a notice if the text is longer. -/
def idOfArgument (text : List Char) : Except IdProblem (List Char × List Notice) :=
  if text = [] then .error .empty
  else if '/' ∈ text then .error .severalSegments
  else
    let notices :=
      if idLength < text.length then [.groupTruncated (String.ofList text) idLength] else []
    .ok (text.take idLength, notices)

/-- What the membership file of a process gives; `none` for a process without one. -/
def idOfProcess (pid : UInt32) (membership : Option String) : Except Fault String :=
  match membership with
  | none => .error (.io .notFound)
  | some content =>
    match idOfMembership? content.toList with
    | some id => .ok (String.ofList id)
    | none => .error (.groupNotFound pid)

theorem length_le_of_idOfArgument {text id : List Char} {notices : List Notice}
    (h : idOfArgument text = .ok (id, notices)) : id ≠ [] ∧ id.length ≤ idLength := by
  unfold idOfArgument at h
  split at h
  · simp at h
  · split at h
    · simp at h
    · simp only [Except.ok.injEq, Prod.mk.injEq] at h
      obtain ⟨rfl, _⟩ := h
      refine ⟨?_, List.length_take_le _ _⟩
      cases text with
      | nil => contradiction
      | cons c r => simp [idLength]

end GpuQuota.Settings.ControlGroup
