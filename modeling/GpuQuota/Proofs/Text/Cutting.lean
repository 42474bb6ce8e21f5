import GpuQuota.Text.Blank
import GpuQuota.Text.Segment
import Mathlib.Data.List.TakeWhile

/-!
# Pieces and the texts that they make

Each way of cutting a text has its converse: the pieces, put together again, are cut into
themselves. For lines this is a relation, since a line may end in two ways and the last one need not
end at all.

* `dropStart?_eq_some_iff`, `dropEnd?_eq_some_iff`: taking off what a text starts or ends with.
* `afterLast_eq_iff`: what is behind the last separator.
* `pieces_induction`: what holds of a piece and of a piece in front of others holds of every text.
* `trim_trim`: a trimmed text has no blanks left to trim.
* `Lines`, and `lines_eq_iff`: the lines of a text.
-/

namespace GpuQuota.Text

variable {s start ending rest segment line : List Char} {c sep : Char}

/-! ## Beginnings and ends

A text is taken off at either side only where it stands there, and then nothing else is. -/

/-- What is left is the text without its beginning. -/
theorem dropStart?_eq_some_iff : dropStart? start s = some rest ↔ s = start ++ rest := by
  rw [dropStart?, Option.ite_none_right_eq_some, List.isPrefixOf_iff_prefix, Option.some.injEq]
  constructor
  · rintro ⟨⟨rest, rfl⟩, rfl⟩
    rw [List.drop_left]
  · rintro rfl
    exact ⟨List.prefix_append _ _, List.drop_left⟩

/-- What is left is the text without its end. -/
theorem dropEnd?_eq_some_iff : dropEnd? ending s = some rest ↔ s = rest ++ ending := by
  rw [dropEnd?, Option.ite_none_right_eq_some, List.isSuffixOf_iff_suffix, Option.some.injEq]
  constructor
  · rintro ⟨⟨rest, rfl⟩, rfl⟩
    simp
  · rintro rfl
    exact ⟨List.suffix_append _ _, by simp⟩

theorem dropStart?_eq_none_iff : dropStart? start s = none ↔ ¬ start <+: s := by
  simp [dropStart?]

theorem dropEnd?_eq_none_iff : dropEnd? ending s = none ↔ ¬ ending <:+ s := by
  simp [dropEnd?]

/-- Read backwards, a segment is gone through to its beginning. -/
theorem ne_of_mem_reverse (h : sep ∉ segment) :
    ∀ c ∈ segment.reverse, decide (c ≠ sep) = true :=
  fun _ hc => decide_eq_true fun heq => h (heq ▸ List.mem_reverse.1 hc)

/-- A segment is behind the last separator if there is none. -/
theorem afterLast_of_notMem (h : sep ∉ segment) : afterLast sep segment = segment := by
  rw [afterLast, List.takeWhile_eq_self_iff.2 (ne_of_mem_reverse h), List.reverse_reverse]

/-- A segment with a separator in front of it is behind the last one. -/
theorem afterLast_append (s : List Char) (h : sep ∉ segment) :
    afterLast sep (s ++ sep :: segment) = segment := by
  rw [afterLast, List.reverse_append, List.reverse_cons, List.append_assoc,
    List.takeWhile_append_of_pos (ne_of_mem_reverse h), List.singleton_append,
    List.takeWhile_cons_of_neg (by simp), List.append_nil, List.reverse_reverse]

/-- What is behind the last separator, or a whole text without any. -/
theorem afterLast_eq_iff : afterLast sep s = segment ↔
    sep ∉ segment ∧ (s = segment ∨ ∃ before, s = before ++ sep :: segment) := by
  constructor
  · rintro rfl
    by_cases hsep : sep ∈ s
    · obtain ⟨behind, before, hreverse, hbehind⟩ :=
        List.eq_append_cons_of_mem (List.mem_reverse.2 hsep)
      have hs : s = before.reverse ++ sep :: behind.reverse := by
        rw [← List.reverse_reverse s, hreverse]
        simp
      have hplain : sep ∉ behind.reverse := fun h => hbehind (List.mem_reverse.1 h)
      rw [hs, afterLast_append _ hplain]
      exact ⟨hplain, .inr ⟨_, rfl⟩⟩
    · rw [afterLast_of_notMem hsep]
      exact ⟨hsep, .inl rfl⟩
  · rintro ⟨hplain, rfl | ⟨before, rfl⟩⟩
    · exact afterLast_of_notMem hplain
    · exact afterLast_append before hplain

/-! ## Separators

Cutting at a separator gives as many pieces as there are separators, and one. The empty text is one
empty piece. -/

/-- A text has no separator, or it is a piece without any, a separator and a shorter text. -/
@[elab_as_elim]
theorem pieces_induction {motive : List Char → Prop} (sep : Char)
    (plain : ∀ s, sep ∉ s → motive s)
    (piece : ∀ first rest, sep ∉ first → motive rest → motive (first ++ sep :: rest))
    (s : List Char) : motive s := by
  induction hlength : s.length using Nat.strongRecOn generalizing s with
  | ind n ih =>
    rcases hcut : cutFirst sep s with _ | ⟨first, rest⟩
    · exact plain s (cutFirst_eq_none_iff.1 hcut)
    · obtain ⟨rfl, hplain⟩ := cutFirst_eq_some_iff.1 hcut
      exact piece first rest hplain (ih rest.length (by simp at hlength; omega) rest rfl)

/-- The first piece is cut off, and the rest is cut by itself. -/
theorem splitOn_append_cons (h : sep ∉ segment) (rest : List Char) :
    (segment ++ sep :: rest).splitOn sep = segment :: rest.splitOn sep := by
  rw [List.splitOn, List.splitOnP_append_cons _ _ (by simp), ← List.splitOn, ← List.splitOn,
    List.splitOn_eq_singleton h, List.singleton_append]

/-- A piece between separators has none, and all its characters are the text's. -/
theorem notMem_and_subset_of_mem_splitOn {piece : List Char} (h : piece ∈ s.splitOn sep) :
    sep ∉ piece ∧ piece ⊆ s := by
  induction s using pieces_induction sep with
  | plain s hplain =>
    rw [List.splitOn_eq_singleton hplain, List.mem_singleton] at h
    subst h
    exact ⟨hplain, List.Subset.refl _⟩
  | piece first rest hplain ih =>
    rw [splitOn_append_cons hplain, List.mem_cons] at h
    rcases h with rfl | h
    · exact ⟨hplain, List.subset_append_left _ _⟩
    · obtain ⟨hnone, hsubset⟩ := ih h
      exact ⟨hnone, fun c hc => by simp [hsubset hc]⟩

/-- What is in no piece and is not the separator is not in the text. -/
theorem notMem_intercalate {pieces : List (List Char)} (hsep : c ≠ sep)
    (h : ∀ piece ∈ pieces, c ∉ piece) : c ∉ [sep].intercalate pieces := by
  induction pieces with
  | nil => simp
  | cons piece others ih =>
    cases others with
    | nil => simpa using h
    | cons next others =>
      have hothers := ih fun other hother => h other (List.mem_cons_of_mem _ hother)
      simp [List.intercalate_cons_cons, h piece List.mem_cons_self, hsep, hothers]

/-! ## Blanks

Blanks are trimmed at either side, not within. -/

/-- Trimming the front stops at what is no blank. -/
theorem trimStart_append_cons (s : List Char) (h : isBlank c = false) (rest : List Char) :
    trimStart (s ++ c :: rest) = trimStart s ++ c :: rest := by
  rw [trimStart, List.dropWhile_append, List.dropWhile_cons_of_neg (by simp [h])]
  split
  · next hall => rw [trimStart, List.isEmpty_iff.1 hall, List.nil_append]
  · rfl

/-- What is trimmed in front does not start with a blank. -/
theorem isBlank_head_trimStart (s : List Char) : ∀ c ∈ (trimStart s).head?, isBlank c = false := by
  intro c hc
  have hhead := List.head?_dropWhile_not isBlank s
  rw [Option.mem_def, trimStart] at hc
  rwa [hc] at hhead

/-- What is trimmed at the end does not end with a blank. -/
theorem isBlank_getLast_trimEnd (s : List Char) :
    ∀ c ∈ (trimEnd s).getLast?, isBlank c = false := by
  intro c hc
  rw [trimEnd, List.getLast?_reverse] at hc
  exact isBlank_head_trimStart s.reverse c hc

/-- Trimming the end keeps the beginning, unless nothing is left. -/
theorem head_trimEnd (s : List Char) : ∀ c ∈ (trimEnd s).head?, c ∈ s.head? := by
  intro c hc
  have hsuffix : s.reverse.dropWhile isBlank <:+ s.reverse := List.dropWhile_suffix _
  obtain ⟨dropped, hsplit⟩ := hsuffix
  have hs : s = trimEnd s ++ dropped.reverse := by
    rw [trimEnd, ← List.reverse_append, hsplit, List.reverse_reverse]
  rw [hs, List.head?_append, Option.mem_def, Option.mem_def.1 hc]
  rfl

/-- A trimmed text has no blanks left to trim. -/
@[simp]
theorem trim_trim (s : List Char) : trim (trim s) = trim s := by
  apply trim_eq_self
  · intro c hc
    exact isBlank_head_trimStart s c (head_trimEnd _ c hc)
  · exact isBlank_getLast_trimEnd _

/-! ## Lines

A line ends in a line feed, with or without a carriage return in front of it, or with the text. -/

/-- A text and its lines. A line feed ends a line, and a carriage return before it is part of the
line break; behind the last line feed there is one more line unless nothing follows. -/
inductive Lines : List Char → List (List Char) → Prop where
  /-- There is no line in an empty text. -/
  | nil : Lines [] []
  /-- The last line may lack its line feed. -/
  | last {line : List Char} : line ≠ [] → '\n' ∉ line → Lines line [line]
  /-- A line ends at a line feed. -/
  | feed {line rest : List Char} {others : List (List Char)} : '\n' ∉ line →
      ¬ ['\r'] <:+ line → Lines rest others → Lines (line ++ '\n' :: rest) (line :: others)
  /-- It ends before the carriage return if there is one. -/
  | returnFeed {line rest : List Char} {others : List (List Char)} : '\n' ∉ line →
      Lines rest others → Lines (line ++ '\r' :: '\n' :: rest) (line :: others)

/-- A line feed ends the first line. -/
theorem lines_append_cons (h : '\n' ∉ line) (rest : List Char) :
    lines (line ++ '\n' :: rest) = chopReturn line :: lines rest := by
  have hne : rest.splitOn '\n' ≠ [] := List.splitOn_ne_nil '\n' rest
  rw [lines, lines, splitOn_append_cons h, List.dropLast_cons_of_ne_nil hne, List.map_cons,
    List.getLast?_cons_of_ne_nil hne]
  split <;> rfl

/-- A text without a line feed is one line, or none if it is empty. -/
theorem lines_of_notMem (h : '\n' ∉ line) : lines line = if line = [] then [] else [line] := by
  rw [lines, List.splitOn_eq_singleton h]
  cases line <;> rfl

/-- A text that is made of lines is cut into them. -/
theorem Lines.lines_eq {others : List (List Char)} (h : Lines s others) : lines s = others := by
  induction h with
  | nil => rfl
  | last hne hplain => rw [lines_of_notMem hplain, if_neg hne]
  | feed hplain hreturn _ ih =>
    rw [lines_append_cons hplain, ih, chopReturn, dropEnd?_eq_none_iff.2 hreturn, Option.getD_none]
  | @returnFeed line rest others hplain _ ih =>
    have hended : '\n' ∉ line ++ ['\r'] := by simpa using hplain
    have hchop : dropEnd? ['\r'] (line ++ ['\r']) = some line := dropEnd?_eq_some_iff.2 rfl
    rw [← List.singleton_append, ← List.append_assoc, lines_append_cons hended, ih, chopReturn,
      hchop, Option.getD_some]

/-- Every text consists of lines. -/
theorem exists_lines (s : List Char) : ∃ others, Lines s others := by
  induction s using pieces_induction '\n' with
  | plain s hplain =>
    rcases eq_or_ne s [] with rfl | hne
    · exact ⟨[], .nil⟩
    · exact ⟨[s], .last hne hplain⟩
  | piece line rest hplain ih =>
    obtain ⟨others, hrest⟩ := ih
    by_cases hreturn : ['\r'] <:+ line
    · obtain ⟨line, rfl⟩ := hreturn
      rw [List.append_assoc]
      exact ⟨line :: others, .returnFeed (by simpa using hplain) hrest⟩
    · exact ⟨line :: others, .feed hplain hreturn hrest⟩

/-- **The lines of a text are those that it is made of.** -/
theorem lines_eq_iff {others : List (List Char)} : lines s = others ↔ Lines s others := by
  refine ⟨?_, Lines.lines_eq⟩
  rintro rfl
  obtain ⟨others, h⟩ := exists_lines s
  rwa [h.lines_eq]

end GpuQuota.Text
