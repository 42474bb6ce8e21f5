/-!
# Cutting text at separators

The few ways in which settings, limits and control group files are cut up: at the first
separator, at every separator, into lines, and behind the last separator.

* `cutFirst_eq_some_iff`: the first part holds no separator, and nothing is lost.
-/

namespace GpuQuota.Text

/-- The text before and after the first `sep`, which itself is dropped; `none` without one. -/
def cutFirst (sep : Char) : List Char → Option (List Char × List Char)
  | [] => none
  | c :: rest =>
    if c = sep then some ([], rest)
    else (cutFirst sep rest).map fun (before, after) => (c :: before, after)

/-- The text behind the last `sep`, or all of it when there is none. -/
def afterLast (sep : Char) (s : List Char) : List Char :=
  (s.reverse.takeWhile (· ≠ sep)).reverse

/-- The text without `start`, if it starts with it. -/
def dropStart? (start : List Char) (s : List Char) : Option (List Char) :=
  if start.isPrefixOf s then some (s.drop start.length) else none

/-- The text without `ending`, if it ends with it. -/
def dropEnd? (ending : List Char) (s : List Char) : Option (List Char) :=
  if ending.isSuffixOf s then some (s.take (s.length - ending.length)) else none

/-- A line that a line feed ended, without the carriage return before that line feed. -/
def chopReturn (line : List Char) : List Char :=
  (dropEnd? ['\r'] line).getD line

/-- The lines of a text. A line feed ends a line, so a text that ends with one has no empty last
line; a carriage return belongs to the line break only where a line feed follows. -/
def lines (s : List Char) : List (List Char) :=
  let pieces := s.splitOn '\n'
  let ended := pieces.dropLast.map chopReturn
  match pieces.getLast? with
  | some (c :: r) => ended ++ [c :: r]
  | _ => ended

theorem cutFirst_eq_some_iff {sep : Char} {s before after : List Char} :
    cutFirst sep s = some (before, after) ↔ s = before ++ sep :: after ∧ sep ∉ before := by
  induction s generalizing before with
  | nil => simp [cutFirst]
  | cons c rest ih =>
    by_cases hc : c = sep
    · subst hc
      cases before with
      | nil => simp [cutFirst]
      | cons b bs => simp +contextual [cutFirst, eq_comm]
    · cases before with
      | nil => simp [cutFirst, hc]
      | cons b bs =>
        simp only [cutFirst, hc, if_false, Option.map_eq_some_iff, Prod.exists, Prod.mk.injEq,
          List.cons.injEq, List.cons_append, List.mem_cons, not_or]
        constructor
        · rintro ⟨x, y, hxy, ⟨rfl, rfl⟩, rfl⟩
          obtain ⟨rfl, hx⟩ := ih.1 hxy
          exact ⟨⟨rfl, rfl⟩, fun h => hc h.symm, hx⟩
        · rintro ⟨⟨rfl, rfl⟩, _, hx⟩
          exact ⟨bs, after, ih.2 ⟨rfl, hx⟩, ⟨rfl, rfl⟩, rfl⟩

theorem cutFirst_eq_none_iff {sep : Char} {s : List Char} : cutFirst sep s = none ↔ sep ∉ s := by
  induction s with
  | nil => simp [cutFirst]
  | cons c rest ih =>
    by_cases hc : c = sep
    · simp [cutFirst, hc]
    · simp [cutFirst, hc, ih, Ne.symm hc]

end GpuQuota.Text
