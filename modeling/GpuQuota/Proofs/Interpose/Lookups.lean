import GpuQuota.Interpose.HookTable
import Mathlib.Data.List.Nodup
import Mathlib.Data.List.Pairwise

/-!
# What lookups make of a hook table

An application looks names up in any order and with any flags, and whatever address is found goes
through the table. A table of distinct names in which nothing is recorded yet is then told by the
lookups: under each name stands the first address that was found for it and is no hook
(`HookTable.entries_after`).

From that follows what the table is for (`HookTable.lookups_sound`). No hook is ever taken for a
real address, whoever asks for an entry with a hook gets a hook, and whoever calls a hook that the
table has handed out finds the real address recorded.
-/

namespace GpuQuota.Interpose

/-- A lookup: the name, the flags where it has any, and the address that was found. -/
structure Query where
  name : String
  /-- the look-up that the driver library offers has them, that of the loader has none -/
  flags : Option UInt64
  /-- the address that the library underneath has found, or none -/
  found : Address
  deriving DecidableEq

/-- The name that a lookup with flags is about: that of the variant, where it is asked for and the
table knows one. -/
def HookTable.variantName (table : HookTable) (name : String) (flags : UInt64) : String :=
  if flags &&& HookTable.perThreadFlag ≠ 0 ∧
      (table.find? (name ++ HookTable.perThreadSuffix)).isSome then
    name ++ HookTable.perThreadSuffix
  else name

namespace Query

variable (query : Query) (table : HookTable)

/-- What the application gets, and the table afterwards. -/
def answer : Address × HookTable :=
  match query.flags with
  | some flags => table.interceptVariant query.name flags query.found
  | none => table.intercept query.name query.found

/-- The name of the entry that a lookup selects. -/
def target : String :=
  match query.flags with
  | some flags => table.variantName query.name flags
  | none => query.name

/-- The lookup finds a real address for a name. -/
def resolves (name : String) : Bool :=
  query.target table == name && query.found != 0 && !table.isHook query.found

/-- A lookup is the program's, on the address that was found. -/
theorem answer_eq : query.answer table = table.intercept (query.target table) query.found := by
  rw [answer, target]
  cases query.flags with
  | none => rfl
  | some flags =>
    dsimp only
    rw [HookTable.interceptVariant, HookTable.variantName]
    split <;> rfl

variable {query table} {name : String}

/-- A lookup tells the real address of an entry if it goes to it and finds something that is no
hook. -/
theorem resolves_iff : query.resolves table name = true ↔
    query.target table = name ∧ query.found ≠ 0 ∧ table.isHook query.found = false := by
  simp [resolves, and_assoc]

end Query

namespace HookTable

/-- The table after some lookups, of which the newest stands first. -/
def after (start : HookTable) : List Query → HookTable
  | [] => start
  | query :: earlier => (query.answer (start.after earlier)).2

/-- What the application got for each of them. -/
def given (start : HookTable) : List Query → List Address
  | [] => []
  | query :: earlier => (query.answer (start.after earlier)).1 :: start.given earlier

/-- The first real address that some lookups have found for a name. -/
def resolved? (start : HookTable) (queries : List Query) (name : String) : Option Address :=
  (queries.reverse.find? fun query => query.resolves start name).map Query.found

/-- The application has made up no hook: it got every hook that it brings from an earlier lookup. -/
def Honest (start : HookTable) : List Query → Prop
  | [] => True
  | query :: earlier =>
    (start.isHook query.found = true → query.found ∈ start.given earlier) ∧ start.Honest earlier

/-- What a table is set up with: the names are distinct, and so are the hooks, and no real address
is recorded. -/
structure Fresh (table : HookTable) : Prop where
  /-- No two entries have the same name. -/
  names : (table.entries.map HookEntry.name).Nodup
  /-- No two of them have the same hook. -/
  hooks : (table.entries.filterMap HookEntry.hook).Nodup
  /-- Nothing has been looked up yet. -/
  real : ∀ entry ∈ table.entries, entry.real = none

/-! ## Entries by their names

Names are distinct, so that an entry is told by its name, and what happens to one entry is seen by
looking its name up. -/

section Entries

variable {table : HookTable} {entry : HookEntry} {name : String}

theorem mem_of_find? (h : table.find? name = some entry) :
    entry ∈ table.entries ∧ entry.name = name := by
  rw [find?] at h
  have hname := List.find?_some h
  exact ⟨List.mem_of_find?_eq_some h, of_decide_eq_true hname⟩

/-- An entry of a table of distinct names is found under its name. -/
theorem find?_of_mem (hnames : (table.entries.map HookEntry.name).Nodup)
    (h : entry ∈ table.entries) : table.find? entry.name = some entry := by
  obtain ⟨found, hfound⟩ : ∃ found, table.find? entry.name = some found := by
    rw [← Option.isSome_iff_exists, find?, List.find?_isSome]
    exact ⟨entry, h, decide_eq_true rfl⟩
  obtain ⟨hmem, hname⟩ := mem_of_find? hfound
  rw [hfound, List.inj_on_of_nodup_map hnames hmem h hname]

/-- A change of the first entry of a name is a change of all, where names are distinct. -/
theorem entries_update (hnames : (table.entries.map HookEntry.name).Nodup)
    (change : HookEntry → HookEntry) : (table.update name change).entries =
      table.entries.map fun entry => if entry.name = name then change entry else entry := by
  obtain ⟨entries⟩ := table
  rw [update]
  dsimp only at hnames ⊢
  induction entries with
  | nil => rfl
  | cons first rest ih =>
    obtain ⟨hfirst, hrest⟩ := List.nodup_cons.1 hnames
    rw [List.findIdx?_cons, List.map_cons]
    by_cases hname : first.name = name
    · -- the first entry is the one, and no other has its name
      have hsame : (rest.map fun entry => if entry.name = name then change entry else entry) =
          rest := by
        refine (List.map_congr_left fun entry hentry => ?_).trans (List.map_id rest)
        refine if_neg fun hother => hfirst ?_
        rw [hname, ← hother]
        exact List.mem_map_of_mem hentry
      rw [if_pos hname, hsame]
      simp [hname]
    · have htail := ih hrest
      rw [if_neg hname]
      simp only [hname, decide_false, Bool.false_eq_true, if_false]
      rw [← htail]
      cases rest.findIdx? fun entry => decide (entry.name = name) <;> rfl

end Entries

/-! ## One lookup

A lookup that finds an address records it, unless it is a hook or the entry has one already. The
answer is the hook of the entry if it has one. -/

section Answer

variable {table : HookTable} {name : String} {found : Address}

/-- What a lookup does to the table: an address that is none of the hooks is recorded under the name
where none is recorded yet. -/
theorem entries_intercept (hnames : (table.entries.map HookEntry.name).Nodup) :
    (table.intercept name found).2.entries = table.entries.map fun entry =>
      if entry.name = name ∧ found ≠ 0 ∧ table.isHook found = false then
        { entry with real := entry.real.or (some found) }
      else entry := by
  rw [intercept]
  by_cases hnone : found = 0
  · simp [hnone]
  rw [if_neg hnone]
  cases hfind : table.find? name with
  | none =>
    -- no entry has the name, so none is changed on the right either
    refine ((List.map_congr_left fun entry hentry => ?_).trans (List.map_id _)).symm
    refine if_neg fun hnamed => ?_
    rw [← hnamed.1, find?_of_mem hnames hentry] at hfind
    cases hfind
  | some entry =>
    dsimp only
    cases hhook : table.isHook found with
    | true => simp
    | false =>
      rw [if_neg Bool.false_ne_true, recordReal?, entries_update hnames]
      refine List.map_congr_left fun other _ => ?_
      simp only [hnone, ne_eq, not_false_eq_true, and_self, and_true]
      by_cases hname : other.name = name
      · rw [if_pos hname, if_pos hname, HookEntry.recordReal, known?, if_neg hnone]
        rcases other with ⟨_, _ | real, _⟩ <;> rfl
      · rw [if_neg hname, if_neg hname]

/-- What an application gets: what was found, where that is a hook or none, and else the hook of the
entry, if there is one. -/
theorem fst_intercept (table : HookTable) (name : String) (found : Address) :
    (table.intercept name found).1 =
      if found = 0 ∨ table.isHook found = true then found
      else ((table.find? name).bind HookEntry.hook).getD found := by
  rw [intercept]
  by_cases hnone : found = 0
  · rw [if_pos hnone, if_pos (.inl hnone)]
  cases hhook : table.isHook found with
  | true =>
    rw [if_neg hnone, if_pos (.inr rfl)]
    cases table.find? name <;> rfl
  | false =>
    rw [if_neg hnone, if_neg (by simp [hnone])]
    cases table.find? name <;> rfl

/-- A hook is the hook of some entry. -/
theorem isHook_iff {address : Address} :
    table.isHook address = true ↔ ∃ entry ∈ table.entries, entry.hook = some address := by
  simp [isHook]

/-- Whoever asks for an entry with a hook gets a hook. -/
theorem isHook_intercept {entry : HookEntry} (hfind : table.find? name = some entry)
    (hhook : entry.hook.isSome) (hfound : found ≠ 0) :
    table.isHook (table.intercept name found).1 = true := by
  rw [fst_intercept]
  split
  · next h => exact h.resolve_left hfound
  · obtain ⟨hook, hhook⟩ := Option.isSome_iff_exists.1 hhook
    rw [hfind, Option.bind_some, hhook, Option.getD_some]
    exact isHook_iff.2 ⟨entry, (mem_of_find? hfind).1, hhook⟩

/-- A hook that was not found is that of the entry. -/
theorem eq_found_or_hook (table : HookTable) (name : String) (found : Address) :
    (table.intercept name found).1 = found ∨
      found ≠ 0 ∧ table.isHook found = false ∧
        ∃ entry ∈ table.entries, entry.name = name ∧
          entry.hook = some (table.intercept name found).1 := by
  rw [fst_intercept]
  split
  · exact .inl rfl
  · next h =>
    obtain ⟨hnone, hhook⟩ := not_or.1 h
    cases hgiven : (table.find? name).bind HookEntry.hook with
    | none => exact .inl rfl
    | some hook =>
      obtain ⟨entry, hfind, hentry⟩ := Option.bind_eq_some_iff.1 hgiven
      obtain ⟨hmem, hname⟩ := mem_of_find? hfind
      exact .inr ⟨hnone, Bool.not_eq_true _ ▸ hhook, entry, hmem, hname, hentry⟩

end Answer

/-! ## All lookups

Recording never changes a name or a hook. So which entry a lookup goes to, and whether what it finds
is a hook, can be told from the table at the start; only the real addresses depend on the lookups
before. -/

/-- The table with the real addresses that a function tells. -/
def withReal (table : HookTable) (real : String → Option Address) : HookTable :=
  ⟨table.entries.map fun entry => { entry with real := real entry.name }⟩

section WithReal

variable (table : HookTable) (real : String → Option Address)

/-- Real addresses do not decide what a hook is. -/
theorem isHook_withReal (address : Address) :
    (table.withReal real).isHook address = table.isHook address := by
  simp [isHook, withReal, Function.comp_def]

theorem names_withReal :
    (table.withReal real).entries.map HookEntry.name = table.entries.map HookEntry.name := by
  simp [withReal, Function.comp_def]

theorem find?_withReal (name : String) : (table.withReal real).find? name =
    (table.find? name).map fun entry => { entry with real := real entry.name } := by
  rw [find?, withReal, List.find?_map]
  rfl

theorem target_withReal (query : Query) :
    query.target (table.withReal real) = query.target table := by
  rw [Query.target, Query.target]
  cases query.flags with
  | none => rfl
  | some flags => simp only [variantName, find?_withReal, Option.isSome_map]

theorem resolves_withReal (query : Query) (name : String) :
    query.resolves (table.withReal real) name = query.resolves table name := by
  rw [Query.resolves, Query.resolves, target_withReal, isHook_withReal]

end WithReal

variable {start : HookTable}

/-- The newest lookup counts only where no earlier one has told an address. -/
theorem resolved?_cons (query : Query) (earlier : List Query) (name : String) :
    start.resolved? (query :: earlier) name = (start.resolved? earlier name).or
      (if query.resolves start name = true then some query.found else none) := by
  rw [resolved?, resolved?, List.reverse_cons, List.find?_append]
  cases earlier.reverse.find? fun query => query.resolves start name with
  | some first => rfl
  | none =>
    cases hresolves : query.resolves start name <;> simp [hresolves]

/-- A lookup adds what it finds to the real addresses. -/
theorem answer_withReal (hnames : (start.entries.map HookEntry.name).Nodup)
    (real : String → Option Address) (query : Query) :
    (query.answer (start.withReal real)).2 = start.withReal fun name =>
      (real name).or (if query.resolves start name = true then some query.found else none) := by
  have hsame : ((start.withReal real).entries.map HookEntry.name).Nodup := by
    rw [names_withReal]
    exact hnames
  rw [Query.answer_eq, target_withReal]
  refine congrArg HookTable.mk ((entries_intercept hsame).trans ?_)
  rw [isHook_withReal, withReal, List.map_map]
  refine List.map_congr_left fun entry _ => ?_
  simp only [Function.comp_apply, Query.resolves_iff]
  by_cases hresolves : query.target start = entry.name ∧ query.found ≠ 0 ∧
      start.isHook query.found = false
  · rw [if_pos hresolves, if_pos ⟨hresolves.1.symm, hresolves.2⟩]
  · rw [if_neg hresolves, if_neg fun h => hresolves ⟨h.1.symm, h.2⟩, Option.or_none]

/-- **A fresh table is told by the lookups.** Nothing but the real addresses ever changes, and they
are the first that were found. -/
theorem Fresh.after_eq (h : start.Fresh) (queries : List Query) :
    start.after queries = start.withReal (start.resolved? queries) := by
  induction queries with
  | nil =>
    have hreal : start.entries.map (fun entry => { entry with real := none }) = start.entries := by
      refine (List.map_congr_left fun entry hentry => ?_).trans (List.map_id _)
      rw [← h.real entry hentry]
      rfl
    rw [after, withReal]
    exact congrArg HookTable.mk hreal.symm
  | cons query earlier ih =>
    rw [after, ih, answer_withReal h.names]
    refine congrArg start.withReal (funext fun name => ?_)
    rw [resolved?_cons]

/-- **After any lookups each entry has the first address that was told for it.** -/
theorem Fresh.real?_after (h : start.Fresh) (queries : List Query) {entry : HookEntry}
    (hentry : entry ∈ start.entries) :
    (start.after queries).real? entry.name = start.resolved? queries entry.name := by
  rw [h.after_eq, real?, find?_withReal, find?_of_mem h.names hentry]
  rfl

/-- What has been found first stays. -/
theorem resolved?_append {queries : List Query} {name : String} {real : Address}
    (h : start.resolved? queries name = some real) (later : List Query) :
    start.resolved? (later ++ queries) name = some real := by
  induction later with
  | nil => exact h
  | cons query rest ih => rw [List.cons_append, resolved?_cons, ih, Option.some_or]

/-- What is found for a name is no hook. -/
theorem isHook_of_resolved? {queries : List Query} {name : String} {real : Address}
    (h : start.resolved? queries name = some real) : start.isHook real = false := by
  obtain ⟨query, hquery, rfl⟩ := Option.map_eq_some_iff.1 h
  have hresolves := List.find?_some hquery
  exact (Query.resolves_iff.1 hresolves).2.2

/-- An address is found by a lookup that resolves to the name, at the latest. -/
theorem resolved?_of_resolves {query : Query} {name : String}
    (h : query.resolves start name = true) (earlier : List Query) :
    (start.resolved? (query :: earlier) name).isSome := by
  rw [resolved?_cons, if_pos h]
  cases start.resolved? earlier name <;> rfl

/-- An address that was told stays told. -/
theorem resolved?_isSome_cons {earlier : List Query} {name : String}
    (h : (start.resolved? earlier name).isSome) (query : Query) :
    (start.resolved? (query :: earlier) name).isSome := by
  obtain ⟨real, hreal⟩ := Option.isSome_iff_exists.1 h
  have hnext := resolved?_append hreal [query]
  rw [List.singleton_append] at hnext
  rw [hnext]
  rfl

/-- Two entries with one hook are the same. -/
theorem Fresh.eq_of_hook (h : start.Fresh) {entry other : HookEntry} {hook : Address}
    (hentry : entry ∈ start.entries) (hother : other ∈ start.entries)
    (hhook : entry.hook = some hook) (hsame : other.hook = some hook) : entry = other := by
  have hpairwise := List.pairwise_filterMap.1 h.hooks
  have hsymm : Std.Symm fun a b : HookEntry =>
      ∀ x, a.hook = some x → ∀ y, b.hook = some y → x ≠ y :=
    ⟨fun a b hab y hy x hx hyx => hab x hx y hy hyx.symm⟩
  by_contra hne
  exact hpairwise.forall hentry hother hne hook hhook hook hsame rfl

/-- **A hook that has been handed out has its real address**, unless the application made one up. -/
theorem Fresh.isSome_of_given (h : start.Fresh) {queries : List Query}
    (hhonest : start.Honest queries) {entry : HookEntry} (hentry : entry ∈ start.entries)
    {hook : Address} (hhook : entry.hook = some hook) (hgiven : hook ∈ start.given queries) :
    (start.resolved? queries entry.name).isSome := by
  induction queries with
  | nil => cases hgiven
  | cons query earlier ih =>
    obtain ⟨hbrought, hhonest⟩ := hhonest
    rcases List.mem_cons.1 hgiven with hnow | hbefore
    · rw [h.after_eq, Query.answer_eq, target_withReal] at hnow
      rcases eq_found_or_hook (start.withReal (start.resolved? earlier)) (query.target start)
        query.found with hfound | ⟨hnone, hreal, other, hother, hname, hsame⟩
      · -- the hook was found, so it had been handed out before
        rw [hfound] at hnow
        rw [hnow] at hhook
        have hagain := hbrought (isHook_iff.2 ⟨entry, hentry, hhook⟩)
        rw [← hnow] at hagain
        exact resolved?_isSome_cons (ih hhonest hagain) query
      · -- the hook stands for what was found, and that is recorded now at the latest
        obtain ⟨original, horiginal, rfl⟩ := List.mem_map.1 hother
        rw [← hnow] at hsame
        obtain rfl := h.eq_of_hook hentry horiginal hhook hsame
        rw [isHook_withReal] at hreal
        exact resolved?_of_resolves (Query.resolves_iff.2 ⟨hname.symm, hnone, hreal⟩) earlier
    · exact resolved?_isSome_cons (ih hhonest hbefore) query

/-! ## The result -/

/-- **Lookups do not mislead.** On a fresh table, after any lookups: the real address of an entry is
the first one that was found for it and is no hook, and it stays; no hook is a real address; whoever
asks for an entry with a hook and finds an address gets a hook; and as long as the application only
brings hooks that it has got, every hook that it has got belongs to an entry whose real address is
recorded. -/
theorem lookups_sound (start : HookTable) (h : start.Fresh) (queries : List Query) :
    (∀ entry ∈ start.entries,
      (start.after queries).real? entry.name = start.resolved? queries entry.name ∧
      ∀ real, (start.after queries).real? entry.name = some real →
        start.isHook real = false ∧
        ∀ later, (start.after (later ++ queries)).real? entry.name = some real) ∧
    (∀ query : Query, ∀ entry ∈ start.entries, entry.name = query.target start →
      entry.hook.isSome → query.found ≠ 0 →
        start.isHook (query.answer (start.after queries)).1 = true) ∧
    (start.Honest queries → ∀ hook ∈ start.given queries, ∀ entry ∈ start.entries,
      entry.hook = some hook → ((start.after queries).real? entry.name).isSome) := by
  refine ⟨?_, ?_, ?_⟩
  · intro entry hentry
    refine ⟨h.real?_after queries hentry, ?_⟩
    intro real hreal
    rw [h.real?_after queries hentry] at hreal
    refine ⟨isHook_of_resolved? hreal, ?_⟩
    intro later
    rw [h.real?_after _ hentry]
    exact resolved?_append hreal later
  · -- the table after the lookups is the fresh one with the real addresses that were told
    intro query entry hentry hname hhook hfound
    have hfind := find?_withReal start (start.resolved? queries) (query.target start)
    rw [← hname, find?_of_mem h.names hentry] at hfind
    rw [h.after_eq, Query.answer_eq, target_withReal, ← hname,
      ← isHook_withReal start (start.resolved? queries)]
    exact isHook_intercept hfind hhook hfound
  · intro hhonest hook hgiven entry hentry hhook
    rw [h.real?_after queries hentry]
    exact h.isSome_of_given hhonest hentry hhook hgiven

/-- A variant is looked up twice, and then its hook is found for another name. -/
theorem lookups_sound_variant :
    let table : HookTable := ⟨[.create "cuA" 101, .create "cuA_ptsz" 102, .observed "cuB"]⟩
    let queries : List Query := [⟨"cuB", none, 102⟩, ⟨"cuA", some 2, 9⟩, ⟨"cuA", some 2, 7⟩]
    table.given queries = [102, 102, 102] ∧
      (table.after queries).real? "cuA_ptsz" = table.resolved? queries "cuA_ptsz" ∧
      table.resolved? queries "cuA_ptsz" = some 7 ∧
      ((table.after queries).real? "cuA_ptsz").isSome := by
  intro table queries
  have hfresh : table.Fresh := ⟨by decide, by decide, by decide⟩
  have hhonest : table.Honest queries := ⟨by decide, by decide, by decide, trivial⟩
  obtain ⟨hreal, -, hhanded⟩ := table.lookups_sound hfresh queries
  have hentry : HookEntry.create "cuA_ptsz" 102 ∈ table.entries := by decide
  exact ⟨by decide, (hreal _ hentry).1, by decide,
    hhanded hhonest 102 (by decide) _ hentry (by decide)⟩

end HookTable

end GpuQuota.Interpose
