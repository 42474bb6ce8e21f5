import GpuQuota.Interpose.Module
import GpuQuota.Proofs.Interpose.HashRuns
import Mathlib.Data.List.Forall2

/-!
# Symbol tables in memory

Nothing in memory tells how long a table is, so that one can only say what is well formed from
outside: a section with its end (`Ended`), a tag with the address that its last entry leads to
(`Image.Points`), a name with its null byte (`Image.Spelled`), and a hash table of either kind for
the symbols there are (`Image.Counted`). A section that lacks one of its tables tells of no symbols
(`Image.Tables`).

* `Image.Tables.definitions_eq`: from a well-formed section all definitions are read, in their
  order.
* `Image.Fits.tables`: what is laid out is well formed.
* `Loaded.definitions_eq`: so they are from a well-formed module.
-/

namespace GpuQuota.Interpose

/-! ## Sections

A section is read to the first entry with the tag of its end, whatever stands behind it. Of entries
with one tag the last counts. -/

/-- The entries of a section, which end where the first one has the tag of its end. -/
def Ended (dynamic entries : List DynamicEntry) : Prop :=
  (∃ value behind, dynamic = entries ++ ⟨DynamicEntry.endTag, value⟩ :: behind) ∧
    ∀ entry ∈ entries, entry.tag ≠ DynamicEntry.endTag

/-- No entry has a tag. -/
def Lacks (entries : List DynamicEntry) (tag : UInt64) : Prop := ∀ entry ∈ entries, entry.tag ≠ tag

instance (entries : List DynamicEntry) (tag : UInt64) : Decidable (Lacks entries tag) :=
  inferInstanceAs (Decidable (∀ entry ∈ entries, entry.tag ≠ tag))

section Sections

variable {image : Image} {dynamic entries : List DynamicEntry} {tag : UInt64} {address : Address}

/-- A section is read up to its end. -/
theorem Ended.entriesOf_eq (h : Ended dynamic entries) : entriesOf dynamic = entries := by
  obtain ⟨⟨value, behind, rfl⟩, hentries⟩ := h
  have hkept : ∀ entry ∈ entries, decide (entry.tag ≠ DynamicEntry.endTag) = true :=
    fun entry hentry => decide_eq_true (hentries entry hentry)
  rw [entriesOf, List.takeWhile_append_of_pos hkept, List.takeWhile_cons_of_neg (by simp),
    List.append_nil]

/-- A tag that is lacking leads nowhere. -/
theorem Lacks.get?_eq (h : Lacks entries tag) (hended : Ended dynamic entries) (base : Address) :
    (pointersOf base dynamic).get? tag = none := by
  rw [get?_pointersOf, hended.entriesOf_eq, List.find?_eq_none.2, Option.map_none]
  exact fun entry hentry => by simpa using h entry (List.mem_reverse.1 hentry)

/-- What an entry holds stands for an address. There are two conventions: it is that address, which
lies in the module and so not below its base, or the distance from the base, and then it is smaller
than any address of the module. -/
def StandsFor (base value address : Address) : Prop :=
  base ≤ value ∧ address = value ∨ value < base ∧ address = base + value

/-- Whichever convention an entry follows, its size tells. -/
theorem relocate_eq_iff {base value address : Address} :
    relocate base value = address ↔ StandsFor base value address := by
  rw [relocate, StandsFor, ← UInt64.not_lt]
  split
  · next hbelow => simp [hbelow, UInt64.add_comm base, eq_comm]
  · next hbehind => simp [hbehind, eq_comm]

/-- A tag leads to an address: its last entry stands for it. -/
def Image.Points (image : Image) (entries : List DynamicEntry) (tag : UInt64) (address : Address) :
    Prop :=
  ∃ before value later, entries = before ++ ⟨tag, value⟩ :: later ∧ Lacks later tag ∧
    StandsFor image.base value address

/-- **A tag is read as the address that it leads to**, in either convention. -/
theorem Image.Points.get?_eq (h : image.Points entries tag address)
    (hended : Ended dynamic entries) :
    (pointersOf image.base dynamic).get? tag = some address := by
  obtain ⟨before, value, later, rfl, hlater, hstands⟩ := h
  obtain rfl := relocate_eq_iff.2 hstands
  have hnone : later.reverse.find? (fun entry => decide (entry.tag = tag)) = none :=
    List.find?_eq_none.2 fun entry hentry => by simpa using hlater entry (List.mem_reverse.1 hentry)
  rw [get?_pointersOf, hended.entriesOf_eq, List.reverse_append, List.reverse_cons,
    List.append_assoc, List.find?_append, hnone, Option.none_or, List.singleton_append,
    List.find?_cons]
  simp

end Sections

/-! ## Tables

Three tables make up the symbols: rows, names and a hash table. None of them has its length in its
rows, so that what stands behind the symbols must not be read, and is not. -/

namespace Image

variable {image : Image} {dynamic entries : List DynamicEntry} {symbols : List Symbol}

/-- A row stands for a symbol: its name ends with a null byte in the table of names. -/
def Spelled (image : Image) (names : Address) (row : Row) (symbol : Symbol) : Prop :=
  (∃ behind, image.memory.bytes (names + row.name.toUInt64) = symbol.name ++ 0 :: behind) ∧
    0 ∉ symbol.name ∧ row.value = symbol.value

/-- A hash table tells how many symbols there are. The older kind has the number in it, and is asked
first; the newer one may leave out symbols at the end that the module does not define. -/
inductive Counted (image : Image) (entries : List DynamicEntry) (symbols : List Symbol) : Prop where
  /-- The second word of the older kind is the number. -/
  | counting {table : Address} {count : UInt32} :
      image.Points entries DynamicEntry.countingHashTag table →
      (image.memory.words table)[1]? = some count → count.toNat = symbols.length → Counted ..
  /-- The newer kind is laid out for the symbols that it counts, and the others are undefined. -/
  | hashed {table : Address} {hash : GnuHash} {count : Nat} :
      Lacks entries DynamicEntry.countingHashTag →
      image.Points entries DynamicEntry.gnuHashTag table →
      GnuHash.Stored (image.memory.words table) hash → hash.LaidOut count → count ≤ symbols.length →
      (∀ symbol ∈ symbols.drop count, symbol.value = 0) → Counted ..

/-- What a well-formed section tells: the symbols of its table, none of which has the address zero,
or nothing where the table of symbols, that of their names or every hash table is lacking. -/
inductive Tables (image : Image) (dynamic : List DynamicEntry) : List Symbol → Prop where
  /-- All three tables are where their entries say. -/
  | complete {entries : List DynamicEntry} {names table : Address} {rows beyond : List Row}
      {symbols : List Symbol} : Ended dynamic entries →
      image.Points entries DynamicEntry.namesTag names →
      image.Points entries DynamicEntry.symbolsTag table →
      image.memory.rows table = rows ++ beyond → List.Forall₂ (image.Spelled names) rows symbols →
      image.Counted entries symbols →
      (∀ symbol ∈ symbols, symbol.value ≠ 0 → image.base + symbol.value ≠ 0) →
      Tables image dynamic symbols
  /-- A table is missing, and the section tells of no symbol. -/
  | lacking {entries : List DynamicEntry} : Ended dynamic entries →
      (Lacks entries DynamicEntry.namesTag ∨ Lacks entries DynamicEntry.symbolsTag ∨
        Lacks entries DynamicEntry.countingHashTag ∧ Lacks entries DynamicEntry.gnuHashTag) →
      Tables image dynamic []

/-- A row is read as the symbol that it stands for. -/
theorem Spelled.symbolAt_eq {names : Address} {row : Row} {symbol : Symbol}
    (h : image.Spelled names row symbol) : image.symbolAt names row = symbol := by
  obtain ⟨⟨behind, hbytes⟩, hname, hvalue⟩ := h
  have hkept : ∀ byte ∈ symbol.name, decide (byte ≠ 0) = true :=
    fun byte hbyte => decide_eq_true fun hzero => hname (hzero ▸ hbyte)
  rw [symbolAt, Memory.text, hbytes, List.takeWhile_append_of_pos hkept,
    List.takeWhile_cons_of_neg (by simp), List.append_nil, hvalue]

/-- Rows are read as the symbols that they stand for. -/
theorem map_symbolAt {names : Address} {rows : List Row}
    (h : List.Forall₂ (image.Spelled names) rows symbols) :
    rows.map (image.symbolAt names) = symbols := by
  induction h with
  | nil => rfl
  | cons hrow _ ih => rw [List.map_cons, hrow.symbolAt_eq, ih]

/-- Whichever hash table tells the number of symbols, none that is defined lies behind. -/
theorem Counted.symbolCount?_eq (h : image.Counted entries symbols)
    (hended : Ended dynamic entries) :
    ∃ count ≤ symbols.length, (image.module dynamic).symbolCount? = some count ∧
      ∀ symbol ∈ symbols.drop count, symbol.value = 0 := by
  cases h with
  | @counting table count htable hcount hlength =>
    refine ⟨count.toNat, hlength.le, ?_, ?_⟩
    · simp [Module.symbolCount?, module, htable.get?_eq hended, hcount]
    · rw [hlength, List.drop_length]
      exact fun symbol hsymbol => absurd hsymbol List.not_mem_nil
  | @hashed table hash count hnone htable hstored hlaid hle hbehind =>
    refine ⟨count, hle, ?_, hbehind⟩
    simp [Module.symbolCount?, module, hnone.get?_eq hended, htable.get?_eq hended,
      hstored.decode?_eq, hlaid.symbolCount_eq]

/-- Without the tables that are needed no row is read. -/
theorem rows_of_lacking (hended : Ended dynamic entries)
    (h : Lacks entries DynamicEntry.namesTag ∨ Lacks entries DynamicEntry.symbolsTag ∨
      Lacks entries DynamicEntry.countingHashTag ∧ Lacks entries DynamicEntry.gnuHashTag) :
    (image.module dynamic).rows = [] := by
  rw [Module.rows, Module.symbolCount?, module]
  rcases h with hnames | hsymbols | ⟨hcounting, hhash⟩
  · simp only [hnames.get?_eq hended]
  · simp only [hsymbols.get?_eq hended]
    split <;> simp_all
  · simp [hcounting.get?_eq hended, hhash.get?_eq hended]

/-- **The definitions of a section are read** in the order of its table. -/
theorem Tables.definitions_eq (h : image.Tables dynamic symbols) :
    (image.module dynamic).definitions = symbols.filterMap (Symbol.definition? image.base) := by
  cases h with
  | @complete entries names table rows beyond symbols hended hnames htable hrows hspelled
      hcounted _ =>
    obtain ⟨count, hle, hcount, hbehind⟩ := hcounted.symbolCount?_eq hended
    have hsymbols : (image.module dynamic).symbols =
        some (symbols ++ beyond.map (image.symbolAt names)) := by
      rw [module]
      simp only [hnames.get?_eq hended, htable.get?_eq hended, hrows, List.map_append,
        map_symbolAt hspelled]
    -- the symbols that are not counted define nothing
    have hnone : (symbols.drop count).filterMap (Symbol.definition? image.base) = [] :=
      List.filterMap_eq_nil_iff.2 fun symbol hsymbol => if_pos (hbehind symbol hsymbol)
    have hrest := congrArg (List.filterMap (Symbol.definition? image.base))
      (List.take_append_drop count symbols)
    rw [List.filterMap_append, hnone, List.append_nil] at hrest
    rw [Module.definitions, Module.rows, hsymbols, hcount, ← hrest]
    dsimp only
    rw [List.take_append_of_le_length hle]
    rfl
  | lacking hended hlacks =>
    rw [Module.definitions, rows_of_lacking hended hlacks, List.filterMap_nil, List.filterMap_nil]

/-- No symbol of a well-formed table gets the address zero. -/
theorem Tables.address_ne_zero (h : image.Tables dynamic symbols) :
    ∀ symbol ∈ symbols, symbol.value ≠ 0 → image.base + symbol.value ≠ 0 := by
  cases h with
  | complete _ _ _ _ _ _ haddress => exact haddress
  | lacking => exact fun _ hsymbol => absurd hsymbol List.not_mem_nil

/-! ## Tables that are laid out

The definitions above have instances: any symbols can be laid out behind a base, with the entries of
the section in either convention. -/

/-- What is presupposed of symbols that are laid out behind a base: the entries count from the base
or, where the base is far enough up, from zero; the names, in memory, have room before the next
table, at least one symbol is not hashed, and no symbol gets the address zero. -/
structure Fits (base origin : Address) (left : Nat) (symbols : List Symbol) : Prop where
  /-- The tables do not run over the end of memory. -/
  base_le : base.toNat + 0x40000 ≤ 2 ^ 64
  origin : origin = base ∨ origin = 0 ∧ 0x40000 ≤ base.toNat
  /-- The first symbol is never hashed. -/
  left_pos : 0 < left
  left_le : left ≤ symbols.length
  /-- A name ends at the first zero. -/
  names : ∀ symbol ∈ symbols, 0 ∉ symbol.name
  /-- The names end before the table behind them begins. -/
  length : (symbols.flatMap fun symbol => symbol.name ++ [0]).length ≤ 0x10000
  /-- Zero stands for a name that is not found. -/
  addresses : ∀ symbol ∈ symbols, symbol.value ≠ 0 → base + symbol.value ≠ 0

instance (base origin : Address) (left : Nat) (symbols : List Symbol) :
    Decidable (Fits base origin left symbols) :=
  decidable_of_iff (base.toNat + 0x40000 ≤ 2 ^ 64 ∧
      (origin = base ∨ origin = 0 ∧ 0x40000 ≤ base.toNat) ∧ 0 < left ∧ left ≤ symbols.length ∧
      (∀ symbol ∈ symbols, 0 ∉ symbol.name) ∧
      (symbols.flatMap fun symbol => symbol.name ++ [0]).length ≤ 0x10000 ∧
      ∀ symbol ∈ symbols, symbol.value ≠ 0 → base + symbol.value ≠ 0)
    ⟨fun ⟨hbase, horigin, hpos, hle, hnames, hlength, haddresses⟩ =>
        ⟨hbase, horigin, hpos, hle, hnames, hlength, haddresses⟩,
      fun h => ⟨h.base_le, h.origin, h.left_pos, h.left_le, h.names, h.length, h.addresses⟩⟩

/-- If names stand in memory in the order of their symbols, the rows lead to them. -/
theorem forall₂_rowsFrom {names : Address} {written : List UInt8}
    (hlength : written.length ≤ 0x10000)
    (hread : ∀ offset < 0x10000,
      image.memory.bytes (names + UInt64.ofNat offset) = written.drop offset)
    (hplain : ∀ symbol ∈ symbols, 0 ∉ symbol.name) {start : Nat}
    (hstart : written.drop start = symbols.flatMap fun symbol => symbol.name ++ [0]) :
    List.Forall₂ (image.Spelled names) (rowsFrom start symbols) symbols := by
  -- the names stand one behind the other, so each row starts where the one before has ended
  induction symbols generalizing start with
  | nil => exact .nil
  | cons symbol symbols ih =>
    have hnames : written.drop start =
        symbol.name ++ 0 :: symbols.flatMap fun other => other.name ++ [0] := by
      rw [hstart, List.flatMap_cons, List.append_assoc, List.singleton_append]
    have hlt : start < 0x10000 := by
      have hcount := congrArg List.length hnames
      rw [List.length_drop, List.length_append, List.length_cons] at hcount
      omega
    have hoffset : (UInt32.ofNat start).toUInt64 = UInt64.ofNat start := by
      rw [← UInt64.toNat_inj, UInt32.toNat_toUInt64, UInt32.toNat_ofNat', UInt64.toNat_ofNat',
        Nat.mod_eq_of_lt (by omega), Nat.mod_eq_of_lt (by omega)]
    have hnext : written.drop (start + symbol.name.length + 1) =
        symbols.flatMap fun other => other.name ++ [0] := by
      rw [← List.drop_drop, ← List.drop_drop, hnames, List.drop_left]
      rfl
    refine .cons ⟨⟨symbols.flatMap fun other => other.name ++ [0], ?_⟩, ?_, rfl⟩ (ih ?_ hnext)
    · rw [hoffset, hread start hlt, hnames]
    · exact hplain symbol List.mem_cons_self
    · exact fun other hother => hplain other (List.mem_cons_of_mem _ hother)

/-- Each name takes at least its null byte. -/
theorem length_le_length_flatMap (symbols : List Symbol) :
    symbols.length ≤ (symbols.flatMap fun symbol => symbol.name ++ [0]).length := by
  induction symbols with
  | nil => exact Nat.le_refl 0
  | cons symbol symbols ih =>
    rw [List.flatMap_cons, List.length_cons, List.length_append, List.length_append,
      List.length_singleton]
    omega

theorem le_add_of_toNat_lt {address offset : Address} (h : address.toNat + offset.toNat < 2 ^ 64) :
    address ≤ address + offset := by
  rw [UInt64.le_iff_toNat_le, UInt64.toNat_add, Nat.mod_eq_of_lt h]
  exact Nat.le_add_right _ _

namespace Fits

variable {base origin : Address} {left : Nat} (h : Fits base origin left symbols)

include h

/-- What counts from the base is an address already, and what counts from zero is a distance. -/
theorem standsFor_add {offset : UInt64} (hoffset : offset.toNat < 0x40000) :
    StandsFor base (origin + offset) (base + offset) := by
  have hbase := h.base_le
  rcases h.origin with rfl | ⟨rfl, hfar⟩
  · exact .inl ⟨le_add_of_toNat_lt (by omega), rfl⟩
  · refine .inr ⟨?_, by rw [UInt64.zero_add]⟩
    rw [UInt64.zero_add, UInt64.lt_iff_toNat_lt]
    omega

variable (path : String)

theorem spelled : List.Forall₂ ((ofSymbols path base origin left symbols).Spelled (base + 0x10000))
    (rowsFrom 0 symbols) symbols := by
  refine forall₂_rowsFrom h.length (fun offset hoffset => ?_) h.names List.drop_zero
  have hbase := h.base_le
  have hsmall : (UInt64.ofNat offset).toNat = offset := by
    rw [UInt64.toNat_ofNat', Nat.mod_eq_of_lt (by omega)]
  have hnames : (base + 0x10000).toNat = base.toNat + 0x10000 := by
    rw [UInt64.toNat_add]
    exact Nat.mod_eq_of_lt (show base.toNat + 0x10000 < 2 ^ 64 by omega)
  have hle : base + 0x10000 ≤ base + 0x10000 + UInt64.ofNat offset :=
    le_add_of_toNat_lt (by omega)
  simp only [ofSymbols, hle, if_true]
  rw [UInt64.add_comm, UInt64.add_sub_cancel, hsmall]

theorem counted : (ofSymbols path base origin left symbols).Counted (tablesAt origin) symbols := by
  have hleft : left < 2 ^ 32 := by
    have hfew := h.left_le.trans (length_le_length_flatMap symbols)
    have hroom := h.length
    omega
  have hwords : (ofSymbols path base origin left symbols).memory.words (base + 0x30000) =
      (GnuHash.single left (symbols.length - left)).words := by
    simp only [ofSymbols, if_true]
  have hstored := GnuHash.stored_single (symbols.length - left) hleft
  have hlaid := GnuHash.laidOut_single (symbols.length - left) h.left_pos
  rw [← hwords] at hstored
  rw [Nat.add_sub_cancel' h.left_le] at hlaid
  refine .hashed (by simp [Lacks, tablesAt]; decide) ⟨[_, _], _, [], rfl, ?_, ?_⟩ hstored hlaid
    (Nat.le_refl _) (by simp)
  · simp [Lacks]
  · exact h.standsFor_add (by decide)

/-- **Symbols that are laid out are told.** -/
theorem tables : List.Forall₂ (ofSymbols path base origin left symbols).Tables
    (ofSymbols path base origin left symbols).sections [symbols] := by
  let image := ofSymbols path base origin left symbols
  have hended : Ended (image.memory.entries (base + 0x8000)) (tablesAt origin) :=
    ⟨⟨0, [], rfl⟩, by simp [tablesAt]; decide⟩
  have hnames : image.Points (tablesAt origin) DynamicEntry.namesTag (base + 0x10000) :=
    ⟨[], _, _, rfl, by simp [Lacks]; decide, h.standsFor_add (by decide)⟩
  have htable : image.Points (tablesAt origin) DynamicEntry.symbolsTag (base + 0x20000) :=
    ⟨[_], _, _, rfl, by simp [Lacks]; decide, h.standsFor_add (by decide)⟩
  have hrows : image.memory.rows (base + 0x20000) = rowsFrom 0 symbols ++ [] := by
    simp only [image, ofSymbols, if_true, List.append_nil]
  exact .cons (.complete hended hnames htable hrows (h.spelled path) (h.counted path)
    h.addresses) .nil

end Fits

end Image

/-! ## Modules

A module may have any number of sections, each with its own tables. -/

/-- A module with the symbols of each of its sections. -/
structure Loaded where
  /-- the module as it is in memory -/
  image : Image
  /-- the symbols that each of its sections tells -/
  tables : List (List Symbol)
  /-- Its sections are well formed. -/
  sound : List.Forall₂ image.Tables image.sections tables

namespace Loaded

/-- A module that is laid out. -/
def ofSymbols (path : String) (base origin : Address) (left : Nat) (symbols : List Symbol)
    (h : Image.Fits base origin left symbols) : Loaded where
  image := .ofSymbols path base origin left symbols
  tables := [symbols]
  sound := h.tables path

/-- The symbols of a module, section by section. -/
def symbols (module : Loaded) : List Symbol := module.tables.flatten

/-- **The definitions of a module are those of its symbols, in their order.** -/
theorem definitions_eq (module : Loaded) : module.image.definitions =
    module.symbols.filterMap (Symbol.definition? module.image.base) := by
  have hsound := module.sound
  rw [Image.definitions, symbols]
  generalize module.image.sections = sections, module.tables = tables at hsound ⊢
  induction hsound with
  | nil => rfl
  | cons hsection _ ih =>
    rw [List.flatMap_cons, List.flatten_cons, List.filterMap_append, hsection.definitions_eq, ih]

/-- No symbol of a module has the address zero. -/
theorem address_ne_zero (module : Loaded) : ∀ symbol ∈ module.symbols, symbol.value ≠ 0 →
    module.image.base + symbol.value ≠ 0 := by
  have hsound := module.sound
  rw [symbols]
  generalize module.image.sections = sections, module.tables = tables at hsound ⊢
  induction hsound with
  | nil => exact fun _ hsymbol => absurd hsymbol List.not_mem_nil
  | cons hsection _ ih =>
    intro symbol hsymbol
    rw [List.flatten_cons, List.mem_append] at hsymbol
    exact hsymbol.elim (hsection.address_ne_zero symbol) (ih symbol)

end Loaded

end GpuQuota.Interpose
