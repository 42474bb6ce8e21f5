import GpuQuota.Interpose.Dynamic
import GpuQuota.Interpose.GnuHash
import GpuQuota.Text.Segment

/-!
# Symbols of loaded modules

The library finds the loader's own functions before it stands in for them, and so without the
loader's help: it walks the symbol tables of the loaded modules in load order. A table may hold
names that the module itself only imports; those have no value and define nothing.

An `Image` is a module as it lies in memory, and a `Module` is what one of its dynamic sections
tells.

* `Slots.map_fst_enter`: a search neither adds nor drops places.
* `Module.find_module`: to search what the sections tell is to search the modules.
-/

namespace GpuQuota.Interpose

open GpuQuota.Text

/-- A row of a symbol table with its name. A symbol that a module imports has the value zero. -/
structure Symbol where
  name : List UInt8
  value : UInt64
  deriving DecidableEq, Repr, Inhabited

/-- A name that a module defines, with its address. -/
abbrev Definition := List UInt8 × Address

/-- What a symbol defines in a module that is loaded at a base. -/
def Symbol.definition? (base : Address) (symbol : Symbol) : Option Definition :=
  if symbol.value = 0 then none
  else (known? (base + symbol.value)).map fun address => (symbol.name, address)

/-- The address of a name in the first of its definitions. -/
def firstOf? (definitions : List Definition) (name : List UInt8) : Option Address :=
  (definitions.find? fun entry => entry.1 = name).map Prod.snd

/-- A loaded module. -/
structure Module where
  /-- where the module was loaded from -/
  path : String
  /-- what the values of its symbols count from -/
  base : Address
  /-- the rows of the symbol table, if there is one, and what lies behind it -/
  symbols : Option (List Symbol)
  /-- the number of symbols, where an older hash table tells it -/
  declaredCount : Option Nat := none
  /-- the newer hash table, where there is one -/
  hash : Option GnuHash := none
  deriving Repr, Inhabited

namespace Module

/-- How many rows the symbol table has: the older hash table knows it, or the newer one does. -/
def symbolCount? (module : Module) : Option Nat :=
  module.declaredCount.or (module.hash.map GnuHash.symbolCount)

/-- The rows of the symbol table. -/
def rows (module : Module) : List Symbol :=
  match module.symbols, module.symbolCount? with
  | some symbols, some count => symbols.take count
  | _, _ => []

/-- The names that the module defines, with their addresses. -/
def definitions (module : Module) : List Definition :=
  module.rows.filterMap (Symbol.definition? module.base)

/-- The address of a name in one module. -/
def define? (module : Module) (name : List UInt8) : Option Address :=
  firstOf? module.definitions name

end Module

/-! ## Modules in memory

A section tells where the tables are and not how long they are. What is read of memory is therefore
given as what lies there from an address on, and every reader stops by itself. -/

/-- A loaded module as it lies in memory. -/
structure Image where
  /-- the path as the loader knows it, if it knows one -/
  path : Option ByteArray
  /-- what the values of its symbols count from -/
  base : Address
  /-- the program headers, which tell where the dynamic sections are -/
  headers : List ProgramHeader
  /-- what the module has in memory -/
  memory : Memory

namespace Image

/-- The path. One that is no text counts as none. -/
def pathText (image : Image) : String := (image.path.bind String.fromUTF8?).getD ""

/-- The entries of each dynamic section, and what lies behind them. -/
def sections (image : Image) : List (List DynamicEntry) :=
  (image.headers.filter fun header => header.kind = ProgramHeader.dynamicKind).map fun header =>
    image.memory.entries (image.base + header.address)

/-- A row with its name, which stands in the table of names. -/
def symbolAt (image : Image) (names : Address) (row : Row) : Symbol :=
  ⟨image.memory.text (names + row.name.toUInt64), row.value⟩

/-- What a dynamic section tells. -/
def module (image : Image) (dynamic : List DynamicEntry) : Module :=
  let pointers := pointersOf image.base dynamic
  { path := image.pathText
    base := image.base
    symbols :=
      match pointers.get? DynamicEntry.namesTag, pointers.get? DynamicEntry.symbolsTag with
      | some names, some table => some ((image.memory.rows table).map (image.symbolAt names))
      | _, _ => none
    declaredCount := (pointers.get? DynamicEntry.countingHashTag).bind fun table =>
      ((image.memory.words table)[1]?).map UInt32.toNat
    hash := (pointers.get? DynamicEntry.gnuHashTag).bind fun table =>
      GnuHash.decode? (image.memory.words table) }

/-- The names that are defined in a module, with their addresses. -/
def definitions (image : Image) : List Definition :=
  image.sections.flatMap fun dynamic => (image.module dynamic).definitions

/-- The rows of symbols whose names stand behind each other from an offset on, each with a null byte
behind it. -/
def rowsFrom (offset : Nat) : List Symbol → List Row
  | [] => []
  | symbol :: symbols =>
    ⟨UInt32.ofNat offset, symbol.value⟩ :: rowsFrom (offset + symbol.name.length + 1) symbols

/-- Where the tables of a module are, counted from an origin. -/
def tablesAt (origin : Address) : List DynamicEntry :=
  [⟨DynamicEntry.namesTag, origin + 0x10000⟩, ⟨DynamicEntry.symbolsTag, origin + 0x20000⟩,
    ⟨DynamicEntry.gnuHashTag, origin + 0x30000⟩]

/-- A module with one symbol table, where all but the first few symbols are hashed. The entries of
its dynamic section count from an origin, which is the base where the loader has gone over them. -/
def ofSymbols (path : String) (base origin : Address) (left : Nat) (symbols : List Symbol) :
    Image where
  path := some path.toUTF8
  base := base
  headers := [⟨ProgramHeader.dynamicKind, 0x8000⟩]
  memory := {
    bytes := fun address =>
      if base + 0x10000 ≤ address then
        (symbols.flatMap fun symbol => symbol.name ++ [0]).drop (address - (base + 0x10000)).toNat
      else []
    rows := fun address => if address = base + 0x20000 then rowsFrom 0 symbols else []
    words := fun address =>
      if address = base + 0x30000 then (GnuHash.single left (symbols.length - left)).words else []
    entries := fun _ => tablesAt origin ++ [⟨DynamicEntry.endTag, 0⟩] }

/-- A module that imports and exports names. Only the exports are hashed; the table begins with a
row without a name. -/
def ofNames (path : String) (base : Address) (imports exports : List String) : Image :=
  let imported := ("" :: imports).map fun name => Symbol.mk name.toUTF8.data.toList 0
  let exported := exports.mapIdx fun i name =>
    Symbol.mk name.toUTF8.data.toList (UInt64.ofNat (i + 1))
  ofSymbols path base base (1 + imports.length) (imported ++ exported)

end Image

/-- What the dynamic section of a module tells that imports and exports names. -/
def Module.ofNames (path : String) (base : Address) (imports exports : List String) : Module :=
  let image := Image.ofNames path base imports exports
  image.module (image.sections.headD [])

/-! ## The search

All names are looked for in one go through the modules, which stops between two of them when nothing
is left to look for. -/

/-- The names of the code that the kernel lends to every process. -/
def kernelNames : List String := ["linux-vdso.so.1", "linux-gate.so.1", "linux-vdso64.so.1"]

/-- Whether the search looks into what was loaded from a path to a base: neither the program itself
nor the kernel's code, nor the module to skip. -/
def isSearched (skip : Option Address) (path : String) (base : Address) : Bool :=
  let basename := afterLast '/' path.toList
  !basename.isEmpty && !kernelNames.contains (String.ofList basename) && skip != some base

/-- The names that are looked for, each with the address that was found for it. -/
abbrev Slots := List (List UInt8 × Option Address)

namespace Slots

/-- A definition goes to the first place of its name, unless that one is taken. -/
def enter : Slots → Definition → Slots
  | [], _ => []
  | slot :: slots, entry =>
    if slot.1 = entry.1 then (slot.1, slot.2.or (some entry.2)) :: slots
    else slot :: enter slots entry

/-- Whether every place is taken. -/
def isFull (slots : Slots) : Bool := slots.all fun slot => slot.2.isSome

/-- Goes through the definitions of one module after another until every place is taken. -/
def search (slots : Slots) : List (List Definition) → Slots
  | [] => slots
  | definitions :: later =>
    let slots := definitions.foldl enter slots
    if isFull slots then slots else search slots later

theorem map_fst_enter (slots : Slots) (entry : Definition) :
    (enter slots entry).map Prod.fst = slots.map Prod.fst := by
  induction slots with
  | nil => rfl
  | cons slot slots ih =>
    rw [enter]
    split
    · rfl
    · rw [List.map_cons, List.map_cons, ih]

end Slots

/-- The modules that the search looks into, in load order. -/
def Image.searched (images : List Image) (skip : Option Address) : List Image :=
  images.filter fun image => isSearched skip image.pathText image.base

/-- Looks for several names in the modules of a process. -/
def Image.find (images : List Image) (skip : Option Address) (names : List (List UInt8)) :
    List (Option Address) :=
  let slots := names.map fun name => (name, none)
  (Slots.search slots ((searched images skip).map definitions)).map Prod.snd

/-- The same in what the modules' sections tell. Some of the names may have been found before. -/
def Module.find (modules : List Module) (skip : Option Address) (found : List (Option Address))
    (names : List (List UInt8)) : List (Option Address) :=
  let searched := modules.filter fun module => isSearched skip module.path module.base
  let slots := names.mapIdx fun i name => (name, (found[i]?).join)
  (Slots.search slots (searched.map definitions)).map Prod.snd

/-- Where each module has one dynamic section, both searches find the same. -/
theorem Module.find_module {images : List Image}
    (h : ∀ image ∈ images, ∃ dynamic, image.sections = [dynamic]) (skip : Option Address)
    (names : List (List UInt8)) :
    Module.find (images.map fun image => image.module (image.sections.headD [])) skip [] names =
      Image.find images skip names := by
  have hdefinitions : ∀ image ∈ images,
      (image.module (image.sections.headD [])).definitions = image.definitions := by
    intro image himage
    obtain ⟨dynamic, hsections⟩ := h image himage
    rw [Image.definitions, hsections, List.flatMap_singleton]
    rfl
  have hslots : names.mapIdx (fun i name => (name, (([] : List (Option Address))[i]?).join)) =
      names.map fun name => (name, none) := by
    simp only [List.getElem?_nil, Option.join_none]
    exact List.ext_getElem (by simp) fun i _ _ => by simp
  rw [Module.find, Image.find, Image.searched, hslots, List.filter_map, List.map_map]
  refine congrArg (fun searched => (Slots.search _ searched).map Prod.snd) ?_
  exact List.map_congr_left fun image himage => hdefinitions image (List.mem_filter.1 himage).1

/-! ## The loader's functions

The library cannot do without any of these, so it is told which one is missing. -/

/-- The functions that the library needs from the loader and the system. -/
def loaderNames : List String := ["dlopen", "dlsym", "dlclose", "dladdr", "ioctl"]

/-- The addresses of the loader's functions, or the first of them that is defined nowhere. -/
def bootstrap (modules : List Module) (skip : Option Address) : Except String (List Address) :=
  let found := Module.find modules skip [] (loaderNames.map fun name => name.toUTF8.toList)
  (loaderNames.zip found).mapM fun (name, address) =>
    match address with
    | some address => .ok address
    | none => .error name

end GpuQuota.Interpose
