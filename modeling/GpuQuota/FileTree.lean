/-!
# Paths in the file tree

A path is walked name by name, from the root if it starts with a slash and from the working
directory if not. Every name is looked up in a directory, so no path goes on behind a file. An
empty name and a dot stay where they are, and two dots go back, though not beyond the root. A link
puts the names of its target in front of those that are left; a walk through too many links is
given up.

The tree itself is the system's. A walk asks it two things, which places are directories and where
the links lead.
-/

namespace GpuQuota

/-- A place in the file tree: the names on the way from the root. -/
abbrev Place := List String

/-- What a walk has to know of a system's files. -/
structure FileTree where
  isDirectory : Place → Bool
  /-- where a link leads, from the root -/
  target? : Place → Option Place
  /-- where a path starts that does not start at the root -/
  workingDirectory : Place
  /-- how many links one walk may go through -/
  mostLinks : Nat
  /-- the longest path in bytes -/
  longestPath : Nat

namespace FileTree

/-- Walks names from a place on, through at most so many links. -/
def walk? (tree : FileTree) (left : Nat) (here : Place) (names : List String) : Option Place :=
  match names with
  | [] => some here
  | name :: names =>
    if !tree.isDirectory here then none
    else if name = "" || name = "." then tree.walk? left here names
    else if name = ".." then tree.walk? left here.dropLast names
    else
      match tree.target? (here ++ [name]) with
      | none => tree.walk? left (here ++ [name]) names
      | some target =>
        match left with
        | 0 => none
        | left + 1 => tree.walk? left [] (target ++ names)
-- a link may bring in as many names as it likes, but the links are counted
termination_by (left, names.length)

/-- Where a path leads. A slash at its end asks for a directory. -/
def find? (tree : FileTree) (path : String) : Option Place :=
  if path.isEmpty || tree.longestPath < path.utf8ByteSize then none
  else
    match (path.toList.splitOn '/').map String.ofList with
    | "" :: names => tree.walk? tree.mostLinks [] names
    | names => tree.walk? tree.mostLinks tree.workingDirectory names

end FileTree

end GpuQuota
