import GpuQuota.Interpose.HookTable
import GpuQuota.Keyed

/-!
# Dynamic sections

A loaded module tells where its tables are in a section of tagged entries, of which the last one has
a tag of its own. What an entry holds is an address, or it counts from where the module is loaded;
which of the two depends on who has loaded it, and is told by the size.

* `get?_pointersOf`: of two entries of one tag the later one counts.
-/

namespace GpuQuota.Interpose

/-- What a program header tells of a part of a module: its kind, and how far behind the base it
is. -/
structure ProgramHeader where
  kind : UInt32
  address : UInt64
  deriving DecidableEq, Repr, Inhabited

/-- The kind of a dynamic section. -/
def ProgramHeader.dynamicKind : UInt32 := 2

/-- An entry of a dynamic section. -/
structure DynamicEntry where
  /-- what the entry is for -/
  tag : UInt64
  /-- an address or a number, as the tag has it -/
  value : UInt64
  deriving DecidableEq, Repr, Inhabited

namespace DynamicEntry

/-- The tag of the entry that ends a section. -/
def endTag : UInt64 := 0

/-- The tag of a hash table that says how many symbols there are. -/
def countingHashTag : UInt64 := 4

/-- The tag of the table of names. -/
def namesTag : UInt64 := 5

/-- The tag of the table of symbols. -/
def symbolsTag : UInt64 := 6

/-- The tag of the newer hash table, which does not say how many symbols there are. -/
def gnuHashTag : UInt64 := 0x6ffffef5

end DynamicEntry

/-- Where a pointer leads. One that is below the base counts from there. -/
def relocate (base pointer : Address) : Address :=
  if pointer < base then pointer + base else pointer

/-- The entries of a section, without the one that ends it and what lies behind. -/
def entriesOf (dynamic : List DynamicEntry) : List DynamicEntry :=
  dynamic.takeWhile fun entry => entry.tag ≠ DynamicEntry.endTag

/-- Where the entries of a section lead, by their tags. -/
def pointersOf (base : Address) (dynamic : List DynamicEntry) : Keyed UInt64 Address :=
  (entriesOf dynamic).foldl
    (fun pointers entry => pointers.insert entry.tag (relocate base entry.value)) .empty

/-- A row of a symbol table. -/
structure Row where
  /-- where its name begins in the table of names -/
  name : UInt32
  value : UInt64
  deriving DecidableEq, Repr, Inhabited

/-- What lies in memory from an address on, as bytes, as words, as rows of a symbol table and as
entries of a dynamic section. -/
structure Memory where
  bytes : Address → List UInt8
  words : Address → List UInt32
  rows : Address → List Row
  entries : Address → List DynamicEntry

/-- The text that begins at an address. It ends before the first null byte. -/
def Memory.text (memory : Memory) (address : Address) : List UInt8 :=
  (memory.bytes address).takeWhile (· ≠ 0)

theorem get?_pointersOf (base : Address) (dynamic : List DynamicEntry) (tag : UInt64) :
    (pointersOf base dynamic).get? tag =
      ((entriesOf dynamic).reverse.find? (·.tag = tag)).map fun entry =>
        relocate base entry.value := by
  rw [pointersOf, ← List.foldr_reverse]
  induction (entriesOf dynamic).reverse with
  | nil => rfl
  | cons entry earlier ih =>
    rw [List.foldr_cons, Keyed.get?_insert, ih, List.find?_cons]
    by_cases htag : tag = entry.tag
    · simp [htag]
    · simp [htag, Ne.symm htag]

end GpuQuota.Interpose
