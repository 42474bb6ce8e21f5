/-!
# The hook table

Each entry point that the library stands in for has an entry: its name, the real address once it
is known, and the replacement that applications get in its place. Real addresses are learned on
the way, whenever an application looks a name up, and the first one stays.

An address is a 64-bit word, and zero is no address.

* `real_recordReal`: the first real address of an entry stays.
* `intercept_zero`: no name makes an address out of none.
-/

namespace GpuQuota.Interpose

/-- The address of a function; zero stands for none. -/
abbrev Address := UInt64

/-- One entry point. -/
structure HookEntry where
  name : String
  /-- where the real entry point is, once it has been looked up -/
  real : Option Address := none
  /-- what applications get; an entry without one is only observed -/
  hook : Option Address
  deriving DecidableEq, Repr, Inhabited

/-- An address that may be none. -/
def known? (address : Address) : Option Address :=
  if address = 0 then none else some address

namespace HookEntry

/-- An entry with a hook, unless the address of the hook is none. -/
def create (name : String) (hook : Address) : HookEntry := { name, hook := known? hook }

/-- An entry that is only observed. -/
def observed (name : String) : HookEntry := { name, hook := none }

/-- Records a real address if none is recorded, and says whether. -/
def recordReal (entry : HookEntry) (address : Address) : Bool × HookEntry :=
  match known? address, entry.real with
  | some address, none => (true, { entry with real := some address })
  | _, _ => (false, entry)

theorem real_recordReal {entry : HookEntry} {first : Address} (address : Address)
    (h : entry.real = some first) : (entry.recordReal address).2.real = some first := by
  unfold recordReal
  split
  · simp_all
  · exact h

end HookEntry

/-- The table; of two entries of one name the first counts. -/
structure HookTable where
  entries : List HookEntry
  deriving DecidableEq, Repr, Inhabited

namespace HookTable

/-- The first entry of a name. -/
def find? (table : HookTable) (name : String) : Option HookEntry :=
  table.entries.find? fun entry => entry.name = name

/-- Replaces the first entry of a name. -/
def update (table : HookTable) (name : String) (change : HookEntry → HookEntry) : HookTable :=
  match table.entries.findIdx? fun entry => entry.name = name with
  | some i => ⟨table.entries.modify i change⟩
  | none => table

/-- Whether an address is one of the replacements. -/
def isHook (table : HookTable) (address : Address) : Bool :=
  table.entries.any fun entry => entry.hook == some address

/-- The real address of a name. -/
def real? (table : HookTable) (name : String) : Option Address :=
  (table.find? name).bind HookEntry.real

/-- Records a real address for a name, and says whether; no answer for an unknown name. -/
def recordReal? (table : HookTable) (name : String) (address : Address) :
    Option Bool × HookTable :=
  ((table.find? name).map fun entry => (entry.recordReal address).1,
    table.update name fun entry => (entry.recordReal address).2)

/-- What an application gets for a name that was looked up: the replacement if there is one. The
address found is recorded on the way, unless it is a replacement itself. -/
def intercept (table : HookTable) (name : String) (found : Address) : Address × HookTable :=
  if found = 0 then (found, table)
  else
    match table.find? name with
    | none => (found, table)
    | some entry =>
      if table.isHook found then (found, table)
      else (entry.hook.getD found, (table.recordReal? name found).2)

/-- The mark in the flags of a lookup that asks for the variant of the thread's own stream. -/
def perThreadFlag : UInt64 := 2

/-- The ending of that variant's names. -/
def perThreadSuffix : String := "_ptsz"

/-- The same for a lookup with flags, which may mean the variant of a name, where the table knows
one. -/
def interceptVariant (table : HookTable) (name : String) (flags : UInt64) (found : Address) :
    Address × HookTable :=
  let variant := name ++ perThreadSuffix
  if flags &&& perThreadFlag ≠ 0 ∧ (table.find? variant).isSome then
    table.intercept variant found
  else table.intercept name found

/-- Puts what an application gets into the slot that a lookup has filled. Nothing happens without
a slot or a name, or where the name is no text. -/
def patch (table : HookTable) (name : Option ByteArray) (flags : UInt64) (slot : Option Address) :
    Option Address × HookTable :=
  match name.bind String.fromUTF8?, slot with
  | some name, some found =>
    let (given, table) := table.interceptVariant name flags found
    (some given, table)
  | _, _ => (slot, table)

theorem intercept_zero (table : HookTable) (name : String) :
    table.intercept name 0 = (0, table) := rfl

theorem intercept_of_isHook {table : HookTable} {found : Address} (name : String)
    (h : table.isHook found = true) : table.intercept name found = (found, table) := by
  unfold intercept
  split
  · rfl
  · split
    · rfl
    · rfl

end HookTable

end GpuQuota.Interpose
