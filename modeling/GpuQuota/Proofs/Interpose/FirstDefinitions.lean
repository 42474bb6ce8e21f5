import GpuQuota.Proofs.Interpose.Tables
import GpuQuota.Proofs.Text.Cutting

/-!
# First definitions

The search keeps a place for each name and lets each definition go to the place of its name, which
is taken only once; and it stops as soon as all places are taken. As the definitions come in load
order and then in the order of their tables, this finds the first of each name (`Loaded.first?`),
where only the modules count that are searched (`Image.Searched`).

* `Slots.foldl_enter`: what a place holds after some definitions depends on no other place.
* `Slots.search_eq_foldl`: nothing changes when all places are taken.
* `Image.isSearched_iff`: which modules are searched.
* `Loaded.find_eq_first`: the search finds first definitions, with or without stopping, for each
  name on its own.
-/

namespace GpuQuota.Interpose

open GpuQuota.Text

/-! ## Definitions in a row

The places are filled from one row of definitions, so it does not matter here which module one is
from. That the program stops between modules, once all places are taken, changes nothing, since full
places stay as they are. -/

/-- The first definition of a row counts where it is of the name. -/
theorem firstOf?_cons (entry : Definition) (definitions : List Definition) (name : List UInt8) :
    firstOf? (entry :: definitions) name =
      (if name = entry.1 then some entry.2 else none).or (firstOf? definitions name) := by
  rw [firstOf?, firstOf?, List.find?_cons]
  by_cases hname : name = entry.1
  · simp [hname]
  · simp [hname, Ne.symm hname]

namespace Slots

variable {slots : Slots}

/-- Where the names differ, a definition goes to its own place and changes no other. -/
theorem enter_eq (h : (slots.map Prod.fst).Nodup) (entry : Definition) :
    enter slots entry = slots.map fun slot =>
      (slot.1, slot.2.or (if slot.1 = entry.1 then some entry.2 else none)) := by
  induction slots with
  | nil => rfl
  | cons slot slots ih =>
    rw [List.map_cons, List.nodup_cons] at h
    rw [enter, List.map_cons]
    by_cases hname : slot.1 = entry.1
    · -- no other place has this name
      have hothers : slots = slots.map fun other =>
          (other.1, other.2.or (if other.1 = entry.1 then some entry.2 else none)) := by
        refine ((List.map_congr_left fun other hother => ?_).trans (List.map_id slots)).symm
        have hne : other.1 ≠ entry.1 := by
          rintro heq
          exact h.1 (List.mem_map.2 ⟨other, hother, heq.trans hname.symm⟩)
        rw [if_neg hne, Option.or_none]
        rfl
      rw [if_pos hname, if_pos hname, ← hothers]
    · rw [if_neg hname, if_neg hname, ih h.2, Option.or_none]

/-- After some definitions a place that was free holds the first of its name. -/
theorem foldl_enter (h : (slots.map Prod.fst).Nodup) (definitions : List Definition) :
    definitions.foldl enter slots =
      slots.map fun slot => (slot.1, slot.2.or (firstOf? definitions slot.1)) := by
  induction definitions generalizing slots with
  | nil => simp [firstOf?]
  | cons entry definitions ih =>
    rw [List.foldl_cons, ih (by rwa [map_fst_enter]), enter_eq h, List.map_map]
    refine List.map_congr_left fun slot _ => ?_
    rw [Function.comp_apply, firstOf?_cons, Option.or_assoc]

theorem enter_of_isFull (h : isFull slots = true) (entry : Definition) :
    enter slots entry = slots := by
  induction slots with
  | nil => rfl
  | cons slot slots ih =>
    rw [isFull, List.all_cons, Bool.and_eq_true] at h
    obtain ⟨address, haddress⟩ := Option.isSome_iff_exists.1 h.1
    rw [enter, ih h.2, haddress, Option.some_or, ← haddress]
    split <;> rfl

theorem foldl_enter_of_isFull (h : isFull slots = true) (definitions : List Definition) :
    definitions.foldl enter slots = slots := by
  induction definitions with
  | nil => rfl
  | cons entry definitions ih => rw [List.foldl_cons, enter_of_isFull h, ih]

/-- **Stopping early changes nothing.** -/
theorem search_eq_foldl (slots : Slots) (later : List (List Definition)) :
    search slots later = later.flatten.foldl enter slots := by
  induction later generalizing slots with
  | nil => rfl
  | cons definitions later ih =>
    rw [search, List.flatten_cons, List.foldl_append]
    split
    · next hfull => rw [foldl_enter_of_isFull hfull]
    · exact ih _

end Slots

namespace Image

/-- The search without stopping: all definitions of all modules go to their places. -/
def findThroughout (images : List Image) (skip : Option Address) (names : List (List UInt8)) :
    List (Option Address) :=
  let slots := names.map fun name => (name, none)
  (((searched images skip).flatMap definitions).foldl Slots.enter slots).map Prod.snd

/-- **Stopping changes nothing.** -/
theorem find_eq_findThroughout (images : List Image) (skip : Option Address)
    (names : List (List UInt8)) : find images skip names = findThroughout images skip names := by
  rw [find, findThroughout, Slots.search_eq_foldl, List.flatMap_def]

/-- Different names are looked for on their own. -/
theorem findThroughout_eq (images : List Image) (skip : Option Address) {names : List (List UInt8)}
    (h : names.Nodup) : findThroughout images skip names =
      names.map (firstOf? ((searched images skip).flatMap definitions)) := by
  have hnames : ((names.map fun name => (name, (none : Option Address))).map Prod.fst).Nodup := by
    simpa [Function.comp_def] using h
  rw [findThroughout, Slots.foldl_enter hnames, List.map_map, List.map_map]
  rfl

/-! ## Which modules are searched

The program compares the part of a path behind its last slash with names that it knows. A path that
is no text has no such part, and its module is passed over like the unnamed program. -/

/-- What is behind the last slash of a module's path. A path that is no text has no such name. -/
def Basename (image : Image) (basename : String) : Prop :=
  '/' ∉ basename.toList ∧ ∃ path : String, image.path = some path.toUTF8 ∧
    (path = basename ∨ ∃ directory, path = directory ++ "/" ++ basename)

/-- A module is searched unless it is unnamed, as the program is, or the kernel's, or the one to
skip. -/
structure Searched (image : Image) (skip : Option Address) : Prop where
  /-- It has a name, and not one that the kernel maps. -/
  named : ∃ basename, image.Basename basename ∧ basename ≠ "" ∧ basename ∉ kernelNames
  /-- It is not the one to skip, which asks for the definitions behind its own. -/
  kept : skip ≠ some image.base

/-- Bytes are read as the text that they encode. -/
theorem fromUTF8?_eq_some_iff {bytes : ByteArray} {path : String} :
    String.fromUTF8? bytes = some path ↔ bytes = path.toUTF8 := by
  rw [String.fromUTF8?]
  constructor
  · split
    · rintro ⟨⟩
      rfl
    · rintro ⟨⟩
  · rintro rfl
    exact dif_pos path.isValidUTF8

variable {image : Image} {skip : Option Address}

theorem pathText_of_path {path : String} (h : image.path = some path.toUTF8) :
    image.pathText = path := by
  rw [pathText, h, Option.bind_some, fromUTF8?_eq_some_iff.2 rfl, Option.getD_some]

/-- A path is read as what it encodes, or as the empty text. -/
theorem pathText_eq_or (image : Image) :
    image.pathText = "" ∨ image.path = some image.pathText.toUTF8 := by
  cases htext : image.path.bind String.fromUTF8? with
  | none => exact .inl (by rw [pathText, htext, Option.getD_none])
  | some path =>
    obtain ⟨bytes, hbytes, hpath⟩ := Option.bind_eq_some_iff.1 htext
    rw [fromUTF8?_eq_some_iff.1 hpath] at hbytes
    exact .inr (by rw [pathText_of_path hbytes, hbytes])

/-- The part behind the last slash, where it is not empty, is told by the bytes of the path. -/
theorem basename_iff {basename : String} (hne : basename ≠ "") :
    image.Basename basename ↔ afterLast '/' image.pathText.toList = basename.toList := by
  have hcut : ∀ path : String,
      (path = basename ∨ ∃ directory, path = directory ++ "/" ++ basename) ↔
      path.toList = basename.toList ∨ ∃ before, path.toList = before ++ '/' :: basename.toList := by
    intro path
    refine or_congr String.toList_inj.symm ⟨?_, ?_⟩
    · rintro ⟨directory, rfl⟩
      exact ⟨directory.toList, by simp⟩
    · rintro ⟨before, hpath⟩
      exact ⟨String.ofList before, String.toList_injective (by simp [hpath])⟩
  rw [afterLast_eq_iff]
  constructor
  · rintro ⟨hplain, path, hpath, hends⟩
    rw [pathText_of_path hpath]
    exact ⟨hplain, (hcut path).1 hends⟩
  · rintro ⟨hplain, hends⟩
    rcases image.pathText_eq_or with hnone | hpath
    · -- without a path there is no name
      rw [hnone] at hends
      rcases hends with hempty | ⟨before, hempty⟩
      · exact absurd (String.toList_inj.1 hempty).symm hne
      · simp at hempty
    · exact ⟨hplain, image.pathText, hpath, (hcut _).2 hends⟩

/-- **The program searches the modules that it is to search.** -/
theorem isSearched_iff :
    isSearched skip image.pathText image.base = true ↔ image.Searched skip := by
  rw [isSearched]
  simp only [Bool.and_eq_true, Bool.not_eq_true', List.isEmpty_eq_false_iff, bne_iff_ne,
    List.contains_eq_mem, decide_eq_false_iff_not]
  constructor
  · rintro ⟨⟨hne, hkernel⟩, hskip⟩
    have hname : String.ofList (afterLast '/' image.pathText.toList) ≠ "" := by simpa using hne
    exact ⟨⟨_, (basename_iff hname).2 String.toList_ofList.symm, hname, hkernel⟩, hskip⟩
  · rintro ⟨⟨basename, hbasename, hne, hkernel⟩, hskip⟩
    rw [(basename_iff hne).1 hbasename, String.ofList_toList]
    exact ⟨⟨by simpa using hne, hkernel⟩, hskip⟩

instance (image : Image) (skip : Option Address) : Decidable (image.Searched skip) :=
  decidable_of_iff _ isSearched_iff

end Image

/-! ## The first definitions

The row is that of the searched modules, so the first definition of a name in it is the first of the
listing. -/

/-- Whether a symbol is a definition of a name. One that is only imported is not. -/
def Symbol.Defines (symbol : Symbol) (name : List UInt8) : Prop :=
  symbol.name = name ∧ symbol.value ≠ 0

instance (symbol : Symbol) (name : List UInt8) : Decidable (symbol.Defines name) :=
  inferInstanceAs (Decidable (_ ∧ _))

namespace Loaded

/-- The symbols of some modules in load order, and of each module in the order of its table, with
the base that their values count from. -/
def listing (modules : List Loaded) : List (Address × Symbol) :=
  modules.flatMap fun module => module.symbols.map fun symbol => (module.image.base, symbol)

/-- The address of the first symbol that defines a name: its value counts from its module's base. -/
def first? (modules : List Loaded) (name : List UInt8) : Option Address :=
  ((listing modules).find? fun (_, symbol) => symbol.Defines name).map fun (base, symbol) =>
    base + symbol.value

/-- Among symbols that are not at the address zero, the first definition is that of the first symbol
which defines the name. -/
theorem firstOf?_filterMap {symbols : List (Address × Symbol)}
    (h : ∀ entry ∈ symbols, entry.2.value ≠ 0 → entry.1 + entry.2.value ≠ 0) (name : List UInt8) :
    firstOf? (symbols.filterMap fun entry => entry.2.definition? entry.1) name =
      (symbols.find? fun (_, symbol) => symbol.Defines name).map fun (base, symbol) =>
        base + symbol.value := by
  induction symbols with
  | nil => rfl
  | cons entry symbols ih =>
    obtain ⟨base, symbol⟩ := entry
    have hrest := ih fun other hother => h other (List.mem_cons_of_mem _ hother)
    rw [List.filterMap_cons, List.find?_cons, Symbol.definition?]
    by_cases hvalue : symbol.value = 0
    · simp [hvalue, Symbol.Defines, hrest]
    · have haddress : base + symbol.value ≠ 0 := h _ List.mem_cons_self hvalue
      simp only [hvalue, haddress, known?, if_false, Option.map_some, firstOf?_cons, hrest]
      by_cases hname : symbol.name = name
      · simp [hname, hvalue, Symbol.Defines]
      · simp [hname, Ne.symm hname, Symbol.Defines]

/-- The definitions of some modules are those of the symbols that are listed. -/
theorem flatMap_definitions (modules : List Loaded) :
    (modules.map image).flatMap Image.definitions =
      (listing modules).filterMap fun entry => entry.2.definition? entry.1 := by
  rw [listing, List.filterMap_flatMap, List.flatMap_map]
  refine List.flatMap_congr fun module _ => ?_
  rw [module.definitions_eq, List.filterMap_map]
  rfl

/-- The first definition in the row of some modules is the first in their listing. -/
theorem firstOf?_definitions (modules : List Loaded) (name : List UInt8) :
    firstOf? ((modules.map image).flatMap Image.definitions) name = first? modules name := by
  rw [flatMap_definitions]
  refine firstOf?_filterMap ?_ name
  intro entry hentry
  obtain ⟨module, -, hentry⟩ := List.mem_flatMap.1 hentry
  obtain ⟨symbol, hsymbol, rfl⟩ := List.mem_map.1 hentry
  exact module.address_ne_zero symbol hsymbol

/-- The search for different names finds the first definition of each in the modules that are
searched. -/
theorem findThroughout_eq_first (modules : List Loaded) (skip : Option Address)
    {names : List (List UInt8)} (h : names.Nodup) :
    Image.findThroughout (modules.map image) skip names =
      names.map (first? (modules.filter fun module => module.image.Searched skip)) := by
  have hsearched : Image.searched (modules.map image) skip =
      (modules.filter fun module => module.image.Searched skip).map image := by
    rw [Image.searched, List.filter_map]
    refine congrArg (List.map image) (List.filter_congr fun module _ => ?_)
    exact Bool.eq_iff_iff.2 (Image.isSearched_iff.trans decide_eq_true_iff.symm)
  rw [Image.findThroughout_eq _ _ h, hsearched]
  exact List.map_congr_left fun name _ => firstOf?_definitions _ name

/-- The program and the library itself, a module that imports the first of two names and defines the
other, and one that defines both. What the third module's dynamic section holds counts from its
base, in the others these are addresses. -/
def fourModules : List Loaded :=
  let importing : List Symbol := [⟨[], 0⟩, ⟨[102], 0⟩, ⟨[103], 7⟩]
  let exporting : List Symbol := [⟨[], 0⟩, ⟨[102], 5⟩, ⟨[103], 9⟩]
  [ofSymbols "" 0x100000 0x100000 1 exporting (by decide),
    ofSymbols "/lib/own.so" 0x200000 0x200000 1 exporting (by decide),
    ofSymbols "/lib/importing.so" 0x300000 0 2 importing (by decide),
    ofSymbols "/lib/exporting.so" 0x400000 0x400000 1 exporting (by decide)]

end Loaded

end GpuQuota.Interpose
