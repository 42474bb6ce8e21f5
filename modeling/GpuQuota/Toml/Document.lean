import GpuQuota.Toml.Number

/-!
# Reading documents

A document is a sequence of lines: headers, which open the table that the following lines fill,
and pairs of a key and a value. Values nest in arrays, which may run over several lines, and in
tables between braces, which may not.

There is one kind of fault: a text is a document or it is none.
-/

namespace GpuQuota.Toml

/-! ## Values

The levels of a value are bounded, so that reading one is a recursion on the bound. -/

/-- Values with commas between them, up to a bracket. After a comma there may be a bracket
instead of a value. -/
def elements (value : Reader Item) (s : List Char) : Option (List Item × List Char) :=
  match dropSpace false s with
  | ']' :: rest => some ([], rest)
  | start => do
    let (item, rest) ← value start
    match dropSpace false rest with
    | ']' :: rest => some ([item], rest)
    | ',' :: rest =>
      if rest.length < s.length then do
        let (items, rest) ← elements value rest
        some (item :: items, rest)
      else none
    | _ => none
termination_by s.length

/-- A key, an equals sign and a value. -/
def pair (value : Reader Item) (s : List Char) :
    Option ((List (List Char) × Item) × List Char) := do
  let (names, rest) ← key s
  match rest with
  | '=' :: rest =>
    let (item, rest) ← value (dropGap rest)
    some ((names, item), rest)
  | _ => none

/-- Adds an item under the parts of a key. -/
def assignAll (names : List (List Char)) (item : Item) : Entries.Change := fun kind entries => do
  Entries.assign names.dropLast (← names.getLast?) item kind entries

/-- Pairs with commas between them, up to a brace, added to a table. -/
def members (value : Reader Item) (table : Entries) (s : List Char) :
    Option (Entries × List Char) := do
  let ((names, item), rest) ← pair value s
  let table ← assignAll names item .braced table
  match dropGap rest with
  | '}' :: rest => some (table, rest)
  | ',' :: rest => if rest.length < s.length then members value table rest else none
  | _ => none
termination_by s.length

/-- A value of fewer than `depth` levels. -/
def value : Nat → Reader Item
  | 0, _ => none
  | depth + 1, s =>
    match s with
    | '[' :: rest =>
      if depth = 0 then none
      else (elements (value depth) rest).map fun (items, rest) => (.array items, rest)
    | '{' :: rest =>
      if depth = 0 then none
      else
        match dropGap rest with
        | '}' :: rest => some (.table .braced [], rest)
        | rest => (members (value depth) [] rest).map fun (table, rest) =>
          (.table .braced table, rest)
    | 't' :: 'r' :: 'u' :: 'e' :: rest => some (.boolean true, rest)
    | 'f' :: 'a' :: 'l' :: 's' :: 'e' :: rest => some (.boolean false, rest)
    | c :: _ =>
      if c = '"' ∨ c = '\'' then (string s).map fun (text, rest) => (.text text, rest)
      else number s
    | [] => none

/-! ## Lines

A line adds to the table that was opened last, or opens another one. -/

/-- One line that says something. -/
inductive Line where
  /-- a header of a table -/
  | openTable (names : List (List Char))
  /-- a header of the next table of an array -/
  | openElement (names : List (List Char))
  /-- a key, perhaps dotted, with its value -/
  | assign (names : List (List Char)) (item : Item)
  deriving Repr

/-- A line that says something, with its end. -/
def line (s : List Char) : Option (Line × List Char) :=
  match s with
  | '[' :: '[' :: rest => do
    match ← key rest with
    | (names, ']' :: ']' :: rest) => (lineEnd? rest).map fun rest => (.openElement names, rest)
    | _ => none
  | '[' :: rest => do
    match ← key rest with
    | (names, ']' :: rest) => (lineEnd? rest).map fun rest => (.openTable names, rest)
    | _ => none
  | _ => do
    let ((names, item), rest) ← pair (value depthLimit) s
    (lineEnd? rest).map fun rest => (.assign names item, rest)

/-- All lines that say something. -/
def lines (s : List Char) : Option (List Line) :=
  match dropSpace false s with
  | [] => some []
  | start => do
    let (first, rest) ← line start
    if rest.length < s.length then do
      let more ← lines rest
      some (first :: more)
    else none
termination_by s.length

/-- A document so far, and the table that the last header opened. -/
structure Draft where
  /-- the top table so far -/
  entries : Entries := []
  /-- where keys go -/
  current : List (List Char) := []
  deriving Repr

/-- What a line does to a document. -/
def Draft.apply (draft : Draft) : Line → Option Draft
  | .openTable names => do
    let entries ← Entries.openTable names.dropLast (← names.getLast?) .opened draft.entries
    some ⟨entries, names⟩
  | .openElement names => do
    let entries ← Entries.openElement names.dropLast (← names.getLast?) .opened draft.entries
    some ⟨entries, names⟩
  | .assign names item => do
    let entries ← Entries.within false (assignAll names item) draft.current .opened draft.entries
    some { draft with entries }

/-- Reads a document. A mark of byte order in front of it does not count. -/
def read? (s : List Char) : Option Entries := do
  let s := match s with
    | '\ufeff' :: rest => rest
    | _ => s
  let draft ← (← lines s).foldlM Draft.apply {}
  some draft.entries

end GpuQuota.Toml
