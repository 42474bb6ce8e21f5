/-!
# Documents as trees of tables

A document in the TOML format is a table of named items. Tables come into being in four ways, and
that decides who may add to them later: a table that its own header opened, or that was written
between braces, is complete; one that only stands above an opened table may still get its own
header; one that dotted keys built may get more dotted keys and nothing else.

* `within_nil`, `within_cons_new`: where a change goes that is made along a path.
-/

namespace GpuQuota.Toml

/-- How a table came into being. -/
inductive TableKind where
  /-- by its own header, or as the whole document -/
  | opened
  /-- as a table above one that a header opened -/
  | implied
  /-- by dotted keys -/
  | dotted
  /-- between braces -/
  | braced
  deriving DecidableEq, Repr

/-- What a name in a document stands for. -/
inductive Item where
  | text (value : List Char)
  | integer (value : Int)
  | float
  | boolean (value : Bool)
  /-- a date, a time or both -/
  | moment
  | array (items : List Item)
  | table (kind : TableKind) (entries : List (List Char × Item))
  /-- an array of tables that headers opened, the newest first -/
  | tables (newestFirst : List (List (List Char × Item)))
  deriving Repr, Inhabited

/-- The named items of a table, in order. -/
abbrev Entries := List (List Char × Item)

namespace Entries

/-- The item of a name. -/
def find? (entries : Entries) (key : List Char) : Option Item :=
  (List.find? (fun entry => entry.1 = key) entries).map Prod.snd

/-- Gives a name that is there another item. -/
def replace (entries : Entries) (key : List Char) (item : Item) : Entries :=
  entries.map fun entry => if entry.1 = key then (key, item) else entry

/-- Adds a name that is not there yet. -/
def add? (entries : Entries) (key : List Char) (item : Item) : Option Entries :=
  match find? entries key with
  | some _ => none
  | none => some (entries ++ [(key, item)])

/-- A change of one table: from its kind and entries to its entries afterwards. -/
abbrev Change := TableKind → Entries → Option Entries

/-- Makes a change in the table at the end of a path, and builds the tables on the way that are
not there. Dotted keys build tables of their own kind, and do not go through a table that a header
opened; no path goes into a table between braces. In an array of tables the newest is meant. -/
def within (viaKeys : Bool) (change : Change) : List (List Char) → Change
  | [], kind, entries => change kind entries
  | key :: path, _, entries =>
    match find? entries key with
    | none =>
      let kind := if viaKeys then TableKind.dotted else .implied
      (within viaKeys change path kind []).map fun child =>
        entries ++ [(key, .table kind child)]
    | some (.table kind child) =>
      if kind = .braced ∨ (viaKeys ∧ kind = .opened) then none
      else (within viaKeys change path kind child).map fun child =>
        replace entries key (.table kind child)
    | some (.tables (newest :: older)) =>
      (within viaKeys change path .opened newest).map fun newest =>
        replace entries key (.tables (newest :: older))
    | some _ => none

/-- Adds an item under a dotted key. A key without dots goes into no table that dotted keys built,
and the other way round. -/
def assign (path : List (List Char)) (key : List Char) (item : Item) : Change :=
  within true (fun kind entries =>
    if (kind = .dotted) = (path = []) then none else add? entries key item) path

/-- Opens the table of a header. It must be new, or only stand above others so far. -/
def openTable (path : List (List Char)) (key : List Char) : Change :=
  within false (fun _ entries =>
    match find? entries key with
    | none => some (entries ++ [(key, .table .opened [])])
    | some (.table .implied child) => some (replace entries key (.table .opened child))
    | some _ => none) path

/-- Opens one more table of an array of tables. -/
def openElement (path : List (List Char)) (key : List Char) : Change :=
  within false (fun _ entries =>
    match find? entries key with
    | none => some (entries ++ [(key, .tables [[]])])
    | some (.tables elements) => some (replace entries key (.tables ([] :: elements)))
    | some _ => none) path

theorem within_nil (viaKeys : Bool) (change : Change) (kind : TableKind) (entries : Entries) :
    within viaKeys change [] kind entries = change kind entries := rfl

theorem within_cons_new {viaKeys : Bool} {change : Change} {key : List Char}
    {path : List (List Char)} {kind : TableKind} {entries : Entries}
    (h : find? entries key = none) :
    within viaKeys change (key :: path) kind entries =
      (within viaKeys change path (if viaKeys then .dotted else .implied) []).map fun child =>
        entries ++ [(key, .table (if viaKeys then .dotted else .implied) child)] := by
  simp only [within, h]

end Entries

end GpuQuota.Toml
