import GpuQuota.Interpose.Module

/-!
# Lookups on behalf of a module

An application looks symbols up in one module, in the default scope, or in whatever comes after
the module that asks. The last kind has to be answered for the application's module and not for
this library, so the chain of loaded modules is searched from there.

* `next?_of_split`: what comes after the asking module is searched, and nothing else.
-/

namespace GpuQuota.Interpose

/-- The chain of loaded modules, the program first. -/
abbrev LinkMap := List Module

/-- Where a lookup goes. -/
inductive Handle where
  /-- what comes after the module that asks -/
  | next
  /-- one module, or the modules of the default scope -/
  | scope (modules : List Module)

namespace LinkMap

/-- Whether a module of the chain is the one that asks: they share the base or the path. -/
def isCaller (caller module : Module) : Bool :=
  (module.base != 0 && module.base == caller.base) ||
    (module.path != "" && module.path == caller.path)

/-- The modules after the one that asks. One that is not in the chain asks for the program. -/
def after (chain : LinkMap) (caller : Module) : LinkMap :=
  match chain.dropWhile fun module => !isCaller caller module with
  | [] => chain.drop 1
  | _ :: rest => rest

/-- The first definition in modules that have a path. -/
def search? (modules : List Module) (name : List UInt8) : Option Address :=
  (modules.filter fun module => module.path != "").findSome? (·.define? name)

/-- The definition after the module that asks; code outside all modules finds none. -/
def next? (chain : LinkMap) (caller : Option Module) (name : List UInt8) : Option Address :=
  caller.bind fun caller => search? (chain.after caller) name

/-- The definition that a handle gives. -/
def lookup? (chain : LinkMap) (caller : Option Module) (name : List UInt8) :
    Handle → Option Address
  | .next => chain.next? caller name
  | .scope modules => search? modules name

/-- What an application gets for a lookup: the definition, or its replacement. -/
def resolve (chain : LinkMap) (table : HookTable) (caller : Option Module) (handle : Handle)
    (name : List UInt8) : Option Address × HookTable :=
  let found := chain.lookup? caller name handle
  match String.fromUTF8? ⟨name.toArray⟩ with
  | some text =>
    let (given, table) := table.intercept text (found.getD 0)
    (known? given, table)
  | none => (found, table)

theorem next?_of_split {before rest : LinkMap} {caller module : Module} (name : List UInt8)
    (hbefore : ∀ m ∈ before, isCaller caller m = false) (hmodule : isCaller caller module = true) :
    next? (before ++ module :: rest) (some caller) name = search? rest name := by
  have hdrop : (before ++ module :: rest).dropWhile (fun m => !isCaller caller m) =
      module :: rest := by
    rw [List.dropWhile_append_of_pos (fun m hm => by simp [hbefore m hm]),
      List.dropWhile_cons_of_neg (by simp [hmodule])]
  simp [next?, after, hdrop]

end LinkMap

end GpuQuota.Interpose
