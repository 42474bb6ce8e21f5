import GpuQuota.Fault
import GpuQuota.Keyed

/-!
# Named shared regions

A store maps names to objects. Joining a region by its name creates the object where the name is
free, and then lays it out; otherwise it attaches to the object that is there, whatever it would
have laid out itself. Taking a name away leaves the object to those who are attached, and the
name free for a new object.

An object that somebody created without laying it out is never ready, and joining it times out.

* `names_join_created`: a join that creates binds its name.
* `contents?_unlink`: taking a name away changes no object.
-/

namespace GpuQuota.Shared

/-- A shared object: zero-filled, or laid out with its contents. -/
inductive Segment (α : Type) where
  /-- its magic word is not set -/
  | blank
  /-- it has been published with its contents -/
  | laidOut (contents : α)
  deriving Repr

/-- The objects, by handle, and the names that are bound to them. -/
structure Store (α : Type) where
  /-- all that have been created, the first one first, also where no name is left -/
  objects : List (Segment α)
  /-- the handle of the object that a name is bound to -/
  names : Keyed String Nat
  deriving Repr

/-- A joined region. -/
structure Joined where
  /-- where the object is -/
  handle : Nat
  /-- whether the join laid the region out -/
  created : Bool
  deriving DecidableEq, Repr

/-- Whether a text may name a region: a slash and then at least one byte and no more slashes,
fewer than 255 bytes in all. -/
def isRegionName (name : String) : Bool :=
  1 < name.utf8ByteSize && name.utf8ByteSize < 255 &&
    match name.toList with
    | '/' :: rest => !rest.contains '/'
    | _ => false

/-- The name by which the system knows a region: leading slashes do not count. -/
def systemName (name : String) : String :=
  String.ofList (name.toList.dropWhile (· = '/'))

/-- The system's objection to taking a name away. A name is no text for the system if it holds a
null character. Without its leading slashes it has to be the name of a file: one that is empty, has
a slash inside or leaves no room in the system's buffer is never bound, and one above the bound
for file names or one that stands for a directory is refused where it is looked up. -/
def nameFault? (name : String) : Option OsError :=
  let file := systemName name
  if name.toList.contains '\x00' then some .invalid
  else if file.isEmpty || file.toList.contains '/' || 259 < file.utf8ByteSize then some .notFound
  else if 255 < file.utf8ByteSize then some .nameTooLong
  else if file = "." || file = ".." then some .isDirectory
  else none

namespace Store

variable {α : Type}

/-- A store without objects, where no name is bound. -/
def empty : Store α := ⟨[], .empty⟩

instance : Inhabited (Store α) := ⟨empty⟩

/-- The object that a name is bound to. -/
def lookup (store : Store α) (name : String) : Option (Nat × Segment α) :=
  (store.names.get? (systemName name)).bind fun handle =>
    store.objects[handle]?.map fun segment => (handle, segment)

/-- Adds an object and binds a name to it. -/
def add (store : Store α) (name : String) (segment : Segment α) : Store α where
  objects := store.objects ++ [segment]
  names := store.names.insert (systemName name) store.objects.length

/-- Joins the region of a name, which is laid out with `contents` if it is new. Any name that the
system refuses is an invalid argument here. -/
def join (store : Store α) (name : String) (contents : α) :
    Except RegionFault Joined × Store α :=
  if !isRegionName name then (.error (.invalidName name), store)
  else if (nameFault? name).isSome then (.error (.openFailed name .invalid), store)
  else
    match store.lookup name with
    | none => (.ok ⟨store.objects.length, true⟩, store.add name (.laidOut contents))
    | some (handle, .laidOut _) => (.ok ⟨handle, false⟩, store)
    | some (_, .blank) => (.error (.notReady name), store)

/-- Creates the object of a name without laying it out; `false` if there is one already, or the
system refuses the name. -/
def abandon (store : Store α) (name : String) : Bool × Store α :=
  if (nameFault? name).isSome then (false, store)
  else
    match store.lookup name with
    | none => (true, store.add name .blank)
    | some _ => (false, store)

/-- Takes a name away. -/
def unlink (store : Store α) (name : String) : Except RegionFault Unit × Store α :=
  match nameFault? name with
  | some error => (.error (.openFailed name error), store)
  | none =>
    match store.lookup name with
    | none => (.error (.openFailed name .notFound), store)
    | some _ => (.ok (), { store with names := store.names.erase (systemName name) })

/-- The contents of an object that is laid out. -/
def contents? (store : Store α) (handle : Nat) : Option α :=
  match store.objects[handle]? with
  | some (.laidOut contents) => some contents
  | _ => none

/-- Changes the contents of an object. -/
def update (store : Store α) (handle : Nat) (change : α → α) : Store α where
  objects := store.objects.modify handle fun
    | .laidOut contents => .laidOut (change contents)
    | .blank => .blank
  names := store.names

theorem contents?_unlink (store : Store α) (name : String) (handle : Nat) :
    (store.unlink name).2.contents? handle = store.contents? handle := by
  unfold unlink
  split
  · rfl
  · split <;> rfl

theorem contents?_add (store : Store α) (name : String) (contents : α) :
    (store.add name (.laidOut contents)).contents? store.objects.length = some contents := by
  simp [contents?, add]

theorem lookup_add (store : Store α) (name : String) (segment : Segment α) :
    (store.add name segment).lookup name = some (store.objects.length, segment) := by
  simp [lookup, add, Keyed.get?_insert]

theorem names_join_created {store after : Store α} {name : String} {contents : α} {handle : Nat}
    (h : store.join name contents = (.ok ⟨handle, true⟩, after)) :
    store.lookup name = none ∧ after.lookup name = some (handle, .laidOut contents) := by
  unfold join at h
  repeat' split at h
  all_goals simp_all
  rw [← h.1, ← h.2, lookup_add]

end Store

end GpuQuota.Shared
