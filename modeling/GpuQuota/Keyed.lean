/-!
# Finite maps as lists of entries

A finite map with at most one entry for each key, the newest entry first. Sums over all entries
are sums over a list, which is why the records of an account are kept this way.

* `get?_insert`, `get?_erase`: what each operation does to the map's view `get?`.
-/

namespace GpuQuota

/-- A finite map. -/
structure Keyed (κ α : Type) where
  entries : List (κ × α)
  /-- No key has two entries. -/
  nodup : (entries.map Prod.fst).Nodup
  deriving Repr

namespace Keyed

variable {κ α : Type}

/-- The map without entries. -/
def empty : Keyed κ α := ⟨[], List.nodup_nil⟩

instance : Inhabited (Keyed κ α) := ⟨empty⟩

/-- The number of entries. -/
def size (map : Keyed κ α) : Nat := map.entries.length

/-- All values. -/
def values (map : Keyed κ α) : List α := map.entries.map Prod.snd

variable [DecidableEq κ]

/-- The value under a key. -/
def get? (map : Keyed κ α) (key : κ) : Option α :=
  (map.entries.find? fun entry => entry.1 = key).map Prod.snd

/-- The map without a key. -/
def erase (map : Keyed κ α) (key : κ) : Keyed κ α where
  entries := map.entries.filter fun entry => entry.1 ≠ key
  nodup := (List.filter_sublist.map Prod.fst).nodup map.nodup

/-- The map with a value under a key, in place of any older one. -/
def insert (map : Keyed κ α) (key : κ) (value : α) : Keyed κ α where
  entries := (key, value) :: (map.erase key).entries
  nodup := by
    rw [List.map_cons, List.nodup_cons]
    exact ⟨by simp [erase], (map.erase key).nodup⟩

/-- The map of a list of entries, where a later entry replaces an earlier one. -/
def ofList (entries : List (κ × α)) : Keyed κ α :=
  entries.foldl (fun map entry => map.insert entry.1 entry.2) empty

@[simp] theorem get?_empty (key : κ) : (empty : Keyed κ α).get? key = none := rfl

theorem get?_erase (map : Keyed κ α) (key other : κ) :
    (map.erase key).get? other = if other = key then none else map.get? other := by
  simp only [get?, erase]
  induction map.entries with
  | nil => simp
  | cons entry rest ih =>
    simp only [List.filter_cons, List.find?_cons]
    by_cases hk : entry.1 = key <;> by_cases ho : entry.1 = other <;> grind

theorem get?_insert (map : Keyed κ α) (key other : κ) (value : α) :
    (map.insert key value).get? other = if other = key then some value else map.get? other := by
  have h := get?_erase map key other
  simp only [get?] at h ⊢
  by_cases hk : other = key
  · simp [insert, hk]
  · simpa [insert, Ne.symm hk, hk] using h

end Keyed

end GpuQuota
