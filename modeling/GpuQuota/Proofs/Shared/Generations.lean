import GpuQuota.Proofs.Shared.Founding

/-!
# The generations of a region

A name is bound to one object at most, and it may be taken away and bound again, any number of
times. The regions of one name are its generations. Whoever has joined a generation keeps it,
whatever the name is bound to later, and so any number of generations are in use at once.

* `Session` does what is done with one name in a store, one thing after another, and `Generations`
  says what comes of it without objects and handles: a list of budgets, of which the name is bound
  to one at most;
* `Session.Refines` relates the two, by the handle of each generation, and `Session.Refines.step` is
  one event;
* `Generations.bound_run_iff`: the name stays bound to a generation until it is taken away, and is
  never bound to it again;
* `Session.refines_generations` is the result.
-/

namespace GpuQuota.Shared

open GpuQuota.Accounting

/-! ## Names

A name may be refused twice: by the program, where it is not a slash and a file name, and by the
system, where it holds a zero byte or stands for a directory. -/

/-- A region name is a slash and the name of a file. -/
theorem parts_of_isRegionName {name : String} (h : isRegionName name = true) :
    name = "/" ++ systemName name ∧ '/' ∉ (systemName name).toList ∧
      0 < (systemName name).utf8ByteSize ∧ (systemName name).utf8ByteSize < 254 := by
  simp only [isRegionName, Bool.and_eq_true, decide_eq_true_eq] at h
  obtain ⟨⟨hlow, hhigh⟩, hslashes⟩ := h
  split at hslashes
  · next rest hlist =>
    have hrest : '/' ∉ rest := by simpa using hslashes
    have hfile : systemName name = String.ofList rest := by
      rw [systemName, hlist, List.dropWhile_cons_of_pos (by decide)]
      cases rest with
      | nil => rfl
      | cons first others =>
        have hfirst : first ≠ '/' := fun heq => hrest (heq ▸ List.mem_cons_self)
        rw [List.dropWhile_cons_of_neg (by simpa using hfirst)]
    have hname : name = "/" ++ systemName name := by
      rw [hfile, ← String.ofList_toList (s := name), hlist]
      exact @String.ofList_append ['/'] rest
    have hsize := congrArg String.utf8ByteSize hname
    rw [String.utf8ByteSize_append, show "/".utf8ByteSize = 1 from rfl] at hsize
    refine ⟨hname, ?_, by omega, by omega⟩
    rw [hfile, String.toList_ofList]
    exact hrest
  · cases hslashes

/-- The system takes a region name, unless it is no text or stands for a directory. -/
theorem nameFault?_eq_none_iff {name : String} (h : isRegionName name = true) :
    nameFault? name = none ↔ '\x00' ∉ name.toList ∧ name ≠ "/." ∧ name ≠ "/.." := by
  obtain ⟨hname, hslash, hlow, hhigh⟩ := parts_of_isRegionName h
  have hnonempty : systemName name ≠ "" := by
    intro heq
    rw [heq] at hlow
    exact absurd hlow (by decide)
  have hone : systemName name = "." ↔ name = "/." :=
    ⟨fun heq => by rw [hname, heq]; rfl, fun heq => heq ▸ by decide⟩
  have htwo : systemName name = ".." ↔ name = "/.." :=
    ⟨fun heq => by rw [hname, heq]; rfl, fun heq => heq ▸ by decide⟩
  have hshort : ¬ 259 < (systemName name).utf8ByteSize ∧
      ¬ 255 < (systemName name).utf8ByteSize := by
    omega
  have hfault : nameFault? name =
      if '\x00' ∈ name.toList then some .invalid
      else if name = "/." ∨ name = "/.." then some .isDirectory else none := by
    simp [nameFault?, hslash, hnonempty, hshort, hone, htwo]
  by_cases htext : '\x00' ∈ name.toList
  · simp [hfault, htext]
  · simp [hfault, htext]

/-! ## The objects of a store

A store never drops an object, so a handle stays good when its name is taken away. Two handles are
the same object or do not meet. -/

namespace Store

variable {α : Type} {store : Store α} {name : String} {handle : ℕ} {contents : α}

/-- A handle shows contents if its object is laid out with them. -/
theorem contents?_eq_some_iff :
    store.contents? handle = some contents ↔ store.objects[handle]? = some (.laidOut contents) := by
  rw [contents?]
  split
  · next found hfound => simp [hfound]
  · next hother => simpa using hother contents

theorem lt_of_contents? (h : store.contents? handle = some contents) :
    handle < store.objects.length :=
  (List.getElem?_eq_some_iff.1 (contents?_eq_some_iff.1 h)).1

/-- A new object is none of the others. -/
theorem contents?_add_of_lt (h : handle < store.objects.length) (name : String)
    (segment : Segment α) : (store.add name segment).contents? handle = store.contents? handle := by
  rw [contents?, contents?, add, List.getElem?_append_left h]

/-- A change is seen through the handle it is made by, and through no other. -/
theorem contents?_update (store : Store α) (handle other : ℕ) (change : α → α) :
    (store.update handle change).contents? other =
      if other = handle then (store.contents? other).map change else store.contents? other := by
  rw [contents?, contents?, update]
  by_cases heq : other = handle
  · subst heq
    rw [if_pos rfl, List.getElem?_modify_eq]
    cases store.objects[other]? with
    | none => rfl
    | some segment => cases segment <;> rfl
  · rw [if_neg heq, List.getElem?_modify_ne _ _ (Ne.symm heq)]

/-- An object that is not laid out has no contents to change. -/
theorem objects_update_of_blank (other : ℕ) (change : α → α)
    (h : store.objects[handle]? = some .blank) :
    (store.update other change).objects[handle]? = some .blank := by
  rw [update]
  by_cases heq : handle = other
  · subst heq
    rw [List.getElem?_modify_eq, h]
    rfl
  · rw [List.getElem?_modify_ne _ _ (Ne.symm heq), h]

/-- A name that is bound is found with its object. -/
theorem lookup_of_get? {segment : Segment α}
    (hname : store.names.get? (systemName name) = some handle)
    (h : store.objects[handle]? = some segment) : store.lookup name = some (handle, segment) := by
  rw [lookup, hname, Option.bind_some, h]
  rfl

theorem lookup_of_get?_eq_none (h : store.names.get? (systemName name) = none) :
    store.lookup name = none := by
  rw [lookup, h]
  rfl

end Store

/-! ## What is done with one name

Both sides answer the same events, so a history is a list of events and what it comes to is compared
answer by answer. -/

/-- One thing that is done with the region of a name. -/
inductive Event where
  /-- A process joins the region, for a total and an owner of its own. -/
  | join (total : UInt64) (owner : Int32)
  /-- The name is taken away. -/
  | unlink
  /-- An object of so many zero bytes is created, and not laid out. -/
  | abandon (length : ℕ)
  /-- The counter of the `k`-th region that was joined is operated. -/
  | perform (k : ℕ) (op : Budget.Operation)
  deriving DecidableEq

/-- What is answered to it. -/
inductive Answer where
  /-- whether the region is new, and what is found in it -/
  | joined (answer : Except RegionFault (Bool × Option Budget))
  /-- whether there was a name to take away -/
  | unlinked (answer : Except RegionFault Unit)
  /-- whether the name was free -/
  | abandoned (created : Bool)
  /-- the answer to a reservation, and what all who have joined then see -/
  | performed (reservation : Option Reservation) (shown : List (Option Budget))

namespace Event

variable {σ : Type}

/-- Does one thing after another. The result is all answers, and the state in the end. -/
def run (step : σ → Event → Answer × σ) (now : σ) : List Event → List Answer × σ
  | [] => ([], now)
  | event :: rest =>
    let (answer, next) := step now event
    let (answers, last) := run step next rest
    (answer :: answers, last)

end Event

/-- What an operation answers, if it is a reservation. -/
def reservation? (budget : Budget) : Budget.Operation → Option Reservation
  | .reserve bytes => some (budget.reserve bytes).1
  | .consume _ => none
  | .release _ => none

/-! ### In a store

This is the program: every event is one call of `Store`. -/

/-- A store with the handles of the regions that have been joined, the first one first. -/
structure Session where
  /-- the named objects -/
  store : Store Budget
  /-- where the processes that have joined find theirs -/
  handles : List ℕ

namespace Session

/-- What is seen through each handle. -/
def shown (now : Session) : List (Option Budget) := now.handles.map now.store.contents?

/-- What the store answers to an event, and what it is then. -/
def step (name : String) (now : Session) : Event → Answer × Session
  | .join total owner =>
    match now.store.join name (.full total owner) with
    | (.ok region, store) =>
      (.joined (.ok (region.created, store.contents? region.handle)),
        ⟨store, now.handles ++ [region.handle]⟩)
    | (.error fault, store) => (.joined (.error fault), { now with store })
  | .unlink =>
    let (answer, store) := now.store.unlink name
    (.unlinked answer, { now with store })
  | .abandon _ =>
    let (created, store) := now.store.abandon name
    (.abandoned created, { now with store })
  | .perform k op =>
    match now.handles[k]? with
    | none => (.performed none now.shown, now)
    | some handle =>
      let next := { now with store := now.store.update handle (·.perform op) }
      (.performed ((now.store.contents? handle).bind (reservation? · op)) next.shown, next)

end Session

/-! ### In generations

This is what it comes to. There are no handles: a join is answered by the generation that the name
is bound to, and an operation goes to the generation that the `k`-th join found. -/

/-- What a name is bound to. -/
inductive Binding where
  /-- nothing -/
  | free
  /-- an object that is not laid out -/
  | stale
  /-- an object that was laid out -/
  | generation (g : ℕ)
  deriving DecidableEq

/-- The generations of a region. -/
structure Generations where
  /-- the counter of each generation, the first one first -/
  budgets : List Budget
  /-- what the name stands for now -/
  bound : Binding
  /-- the generation of each region that has been joined, the first one first -/
  joins : List ℕ

namespace Generations

/-- The name has never been bound. -/
def fresh : Generations := ⟨[], .free, []⟩

/-- What is seen in the generation of each join. -/
def shown (now : Generations) : List (Option Budget) := now.joins.map (now.budgets[·]?)

/-- What is answered to an event, and what the generations are then. -/
def step (name : String) (now : Generations) : Event → Answer × Generations
  | .join total owner =>
    match now.bound with
    | .free =>
      (.joined (.ok (true, some (.full total owner))),
        { budgets := now.budgets ++ [.full total owner]
          bound := .generation now.budgets.length
          joins := now.joins ++ [now.budgets.length] })
    | .stale => (.joined (.error (.notReady name)), now)
    | .generation g =>
      (.joined (.ok (false, now.budgets[g]?)), { now with joins := now.joins ++ [g] })
  | .unlink =>
    match now.bound with
    | .free => (.unlinked (.error (.openFailed name .notFound)), now)
    | _ => (.unlinked (.ok ()), { now with bound := .free })
  | .abandon _ =>
    match now.bound with
    | .free => (.abandoned true, { now with bound := .stale })
    | _ => (.abandoned false, now)
  | .perform k op =>
    match now.joins[k]? with
    | none => (.performed none now.shown, now)
    | some g =>
      let next := { now with budgets := now.budgets.modify g (·.perform op) }
      (.performed (now.budgets[g]?.bind (reservation? · op)) next.shown, next)

end Generations

/-! ## One refines the other

The handle of every generation is kept in a list, and the relation is read off that list: different
generations have different handles, each handle shows the counter of its generation, and the name is
bound to the same on both sides. -/

/-- What a name is bound to in a store where `places` are the handles of the generations. -/
def Store.Binds (store : Store Budget) (name : String) (places : List ℕ) : Binding → Prop
  | .free => store.names.get? (systemName name) = none
  | .stale => ∃ handle, store.names.get? (systemName name) = some handle ∧
      store.objects[handle]? = some .blank
  | .generation g => ∃ handle, store.names.get? (systemName name) = some handle ∧
      places[g]? = some handle

namespace Session

/-- The session does what the generations say, where `places` are their handles. -/
structure Refines (name : String) (now : Session) (spec : Generations) (places : List ℕ) :
    Prop where
  /-- Each generation has an object to itself. -/
  nodup : places.Nodup
  /-- It holds the counter of the generation. -/
  contents : places.map now.store.contents? = spec.budgets.map some
  /-- Who has joined finds the object of the generation that it joined. -/
  handles : now.handles.map some = spec.joins.map (places[·]?)
  /-- The name is bound to the object of the generation, or to none of them. -/
  binds : now.store.Binds name places spec.bound

namespace Refines

variable {name : String} {now : Session} {spec : Generations} {places : List ℕ}
variable {g k handle : ℕ}

/-- What is seen through the handle of a generation is its counter. -/
theorem contents_of_place (h : Refines name now spec places) (hplace : places[g]? = some handle) :
    ∃ budget, now.store.contents? handle = some budget ∧ spec.budgets[g]? = some budget := by
  have hg := congrArg (·[g]?) h.contents
  simp only [List.getElem?_map, hplace, Option.map_some] at hg
  obtain ⟨budget, hbudget, heq⟩ := Option.map_eq_some_iff.1 hg.symm
  exact ⟨budget, heq.symm, hbudget⟩

theorem lt_of_place (h : Refines name now spec places) (hplace : places[g]? = some handle) :
    handle < now.store.objects.length := by
  obtain ⟨budget, hcontents, -⟩ := h.contents_of_place hplace
  exact Store.lt_of_contents? hcontents

theorem length_budgets (h : Refines name now spec places) :
    spec.budgets.length = places.length := by
  have hlength := congrArg List.length h.contents
  simpa using hlength.symm

/-- The `k`-th region that was joined. -/
theorem joins_getElem? (h : Refines name now spec places) (k : ℕ) :
    now.handles[k]?.map some = spec.joins[k]?.map (places[·]?) := by
  have hk := congrArg (·[k]?) h.handles
  simpa only [List.getElem?_map] using hk

/-- All who have joined see what the generations say. -/
theorem shown_eq (h : Refines name now spec places) : now.shown = spec.shown := by
  apply List.ext_getElem?
  intro k
  rw [Session.shown, Generations.shown, List.getElem?_map, List.getElem?_map]
  have hk := h.joins_getElem? k
  cases hhandle : now.handles[k]? with
  | none =>
    rw [hhandle] at hk
    rw [Option.map_eq_none_iff.1 hk.symm]
    rfl
  | some handle =>
    rw [hhandle, Option.map_some] at hk
    obtain ⟨g, hjoin, hplace⟩ := Option.map_eq_some_iff.1 hk.symm
    obtain ⟨budget, hcontents, hbudget⟩ := h.contents_of_place hplace
    rw [hjoin, Option.map_some, Option.map_some, hcontents, hbudget]

/-- A new object has a handle of its own. -/
theorem lt_of_mem (h : Refines name now spec places) (hmem : handle ∈ places) :
    handle < now.store.objects.length := by
  obtain ⟨g, hplace⟩ := List.mem_iff_getElem?.1 hmem
  exact h.lt_of_place hplace

/-- Those who have joined keep their generations when there is one more. -/
theorem handles_append (h : Refines name now spec places) (more : List ℕ) :
    now.handles.map some = spec.joins.map ((places ++ more)[·]?) := by
  rw [h.handles]
  apply List.map_congr_left
  intro g hg
  have hmem : places[g]? ∈ now.handles.map some := h.handles ▸ List.mem_map_of_mem hg
  obtain ⟨handle, -, hplace⟩ := List.mem_map.1 hmem
  rw [List.getElem?_append_left (List.getElem?_eq_some_iff.1 hplace.symm).1]

/-- The handle of the newest generation. -/
theorem getElem?_append_length (h : Refines name now spec places) (handle : ℕ) :
    (places ++ [handle])[spec.budgets.length]? = some handle := by
  rw [h.length_budgets, List.getElem?_concat_length]

/-- A new object does not change what the generations say. -/
theorem contents_add (h : Refines name now spec places) (segment : Segment Budget) :
    places.map (now.store.add name segment).contents? = spec.budgets.map some := by
  rw [← h.contents]
  exact List.map_congr_left fun handle hmem => Store.contents?_add_of_lt (h.lt_of_mem hmem) _ _

/-- The first to join starts a generation. -/
theorem add (h : Refines name now spec places) (total : UInt64) (owner : Int32) :
    Refines name
      ⟨now.store.add name (.laidOut (.full total owner)), now.handles ++ [now.store.objects.length]⟩
      { budgets := spec.budgets ++ [.full total owner]
        bound := .generation spec.budgets.length
        joins := spec.joins ++ [spec.budgets.length] }
      (places ++ [now.store.objects.length]) where
  nodup := by
    refine List.nodup_append.2 ⟨h.nodup, by simp, ?_⟩
    intro place hplace handle hhandle
    rw [List.mem_singleton.1 hhandle]
    exact Nat.ne_of_lt (h.lt_of_mem hplace)
  contents := by
    rw [List.map_append, List.map_append, h.contents_add, List.map_singleton, List.map_singleton,
      Store.contents?_add]
  handles := by
    rw [List.map_append, List.map_append, h.handles_append, List.map_singleton, List.map_singleton,
      h.getElem?_append_length]
  binds := by
    refine ⟨now.store.objects.length, ?_, h.getElem?_append_length _⟩
    rw [Store.add, Keyed.get?_insert, if_pos rfl]

/-- The others find it. -/
theorem attach (h : Refines name now spec places) (hplace : places[g]? = some handle) :
    Refines name { now with handles := now.handles ++ [handle] }
      { spec with joins := spec.joins ++ [g] } places where
  nodup := h.nodup
  contents := h.contents
  handles := by
    rw [List.map_append, List.map_append, h.handles, List.map_singleton, List.map_singleton, hplace]
  binds := h.binds

/-- What one event comes to. -/
def Answered (name : String) (places : List ℕ) (fst : Answer × Session)
    (snd : Answer × Generations) : Prop :=
  fst.1 = snd.1 ∧ ∃ after, places <+: after ∧ Refines name fst.2 snd.2 after

/-- **A join refines**: it creates the next generation, gives up, or finds the one that is bound. -/
theorem join (h : Refines name now spec places) (hname : isRegionName name = true)
    (hsystem : nameFault? name = none) (total : UInt64) (owner : Int32) :
    Answered name places (now.step name (.join total owner))
      (spec.step name (.join total owner)) := by
  obtain ⟨store, handles⟩ := now
  obtain ⟨budgets, bound, joins⟩ := spec
  simp only [Session.step, Generations.step, Store.join, hname, hsystem, Bool.not_true,
    Option.isSome_none, Bool.false_eq_true, if_false]
  cases bound with
  | free =>
    have hlookup := Store.lookup_of_get?_eq_none h.binds
    simp only [hlookup, Store.contents?_add]
    exact ⟨rfl, _, List.prefix_append _ _, h.add total owner⟩
  | stale =>
    obtain ⟨handle, hget, hblank⟩ := h.binds
    simp only [Store.lookup_of_get? hget hblank]
    exact ⟨rfl, places, List.prefix_rfl, h⟩
  | generation g =>
    obtain ⟨handle, hget, hplace⟩ := h.binds
    obtain ⟨budget, hcontents, hbudget⟩ := h.contents_of_place hplace
    simp only [Store.lookup_of_get? hget (Store.contents?_eq_some_iff.1 hcontents)]
    refine ⟨?_, places, List.prefix_rfl, h.attach hplace⟩
    exact congrArg (fun found => Answer.joined (.ok (false, found))) (hcontents.trans hbudget.symm)

/-- Taking the name away refines. -/
theorem unlink (h : Refines name now spec places) (hsystem : nameFault? name = none) :
    Answered name places (now.step name .unlink) (spec.step name .unlink) := by
  obtain ⟨store, handles⟩ := now
  obtain ⟨budgets, bound, joins⟩ := spec
  have herased : (store.names.erase (systemName name)).get? (systemName name) = none := by
    rw [Keyed.get?_erase, if_pos rfl]
  simp only [Session.step, Generations.step, Store.unlink, hsystem]
  cases bound with
  | free =>
    have hlookup := Store.lookup_of_get?_eq_none h.binds
    simp only [hlookup]
    exact ⟨rfl, places, List.prefix_rfl, h⟩
  | stale =>
    obtain ⟨handle, hget, hblank⟩ := h.binds
    simp only [Store.lookup_of_get? hget hblank]
    exact ⟨rfl, places, List.prefix_rfl, h.nodup, h.contents, h.handles, herased⟩
  | generation g =>
    obtain ⟨handle, hget, hplace⟩ := h.binds
    obtain ⟨budget, hcontents, -⟩ := h.contents_of_place hplace
    simp only [Store.lookup_of_get? hget (Store.contents?_eq_some_iff.1 hcontents)]
    exact ⟨rfl, places, List.prefix_rfl, h.nodup, h.contents, h.handles, herased⟩

/-- Leaving an object behind refines: it is found only by its name. -/
theorem abandon (h : Refines name now spec places) (hsystem : nameFault? name = none) (length : ℕ) :
    Answered name places (now.step name (.abandon length)) (spec.step name (.abandon length)) := by
  obtain ⟨store, handles⟩ := now
  obtain ⟨budgets, bound, joins⟩ := spec
  simp only [Session.step, Generations.step, Store.abandon, hsystem, Option.isSome_none,
    Bool.false_eq_true, if_false]
  cases bound with
  | free =>
    have hlookup := Store.lookup_of_get?_eq_none h.binds
    simp only [hlookup]
    refine ⟨rfl, places, List.prefix_rfl, h.nodup, h.contents_add _, h.handles,
      store.objects.length, ?_, ?_⟩
    · rw [Store.add, Keyed.get?_insert, if_pos rfl]
    · rw [Store.add, List.getElem?_concat_length]
  | stale =>
    obtain ⟨handle, hget, hblank⟩ := h.binds
    simp only [Store.lookup_of_get? hget hblank]
    exact ⟨rfl, places, List.prefix_rfl, h⟩
  | generation g =>
    obtain ⟨handle, hget, hplace⟩ := h.binds
    obtain ⟨budget, hcontents, -⟩ := h.contents_of_place hplace
    simp only [Store.lookup_of_get? hget (Store.contents?_eq_some_iff.1 hcontents)]
    exact ⟨rfl, places, List.prefix_rfl, h⟩

/-- An operation through a handle changes the counter of its generation, and no other. -/
theorem update (h : Refines name now spec places) (hplace : places[g]? = some handle)
    (change : Budget → Budget) :
    Refines name { now with store := now.store.update handle change }
      { spec with budgets := spec.budgets.modify g change } places where
  nodup := h.nodup
  contents := by
    apply List.ext_getElem?
    intro i
    rw [List.getElem?_map, List.getElem?_map]
    cases hother : places[i]? with
    | none =>
      have hbudgets : spec.budgets[i]? = none := by
        rw [List.getElem?_eq_none_iff] at hother ⊢
        rwa [h.length_budgets]
      rw [List.getElem?_modify, hbudgets]
      rfl
    | some other =>
      obtain ⟨budget, hcontents, hbudget⟩ := h.contents_of_place hother
      rw [Option.map_some, Store.contents?_update, hcontents]
      by_cases heq : g = i
      · subst heq
        obtain rfl : other = handle := Option.some.inj (hother.symm.trans hplace)
        rw [if_pos rfl, List.getElem?_modify_eq, hbudget]
        rfl
      · -- no two generations have one handle
        have hne : other ≠ handle := by
          rintro rfl
          have hlt := (List.getElem?_eq_some_iff.1 hplace).1
          exact heq ((List.getElem?_inj hlt h.nodup).1 (hplace.trans hother.symm))
        rw [if_neg hne, List.getElem?_modify_ne _ _ heq, hbudget]
        rfl
  handles := h.handles
  binds := by
    have hbinds := h.binds
    cases hbound : spec.bound with
    | stale =>
      rw [hbound] at hbinds
      obtain ⟨place, hget, hblank⟩ := hbinds
      exact ⟨place, hget, Store.objects_update_of_blank handle change hblank⟩
    | _ =>
      rw [hbound] at hbinds
      exact hbinds

/-- An operation refines: it changes one generation, for all who share it. -/
theorem perform (h : Refines name now spec places) (k : ℕ) (op : Budget.Operation) :
    Answered name places (now.step name (.perform k op)) (spec.step name (.perform k op)) := by
  have hk := h.joins_getElem? k
  simp only [Session.step, Generations.step]
  cases hhandle : now.handles[k]? with
  | none =>
    rw [hhandle] at hk
    rw [Option.map_eq_none_iff.1 hk.symm]
    exact ⟨congrArg (Answer.performed none) h.shown_eq, places, List.prefix_rfl, h⟩
  | some handle =>
    rw [hhandle, Option.map_some] at hk
    obtain ⟨g, hjoin, hplace⟩ := Option.map_eq_some_iff.1 hk.symm
    have hnext := h.update hplace (·.perform op)
    obtain ⟨budget, hcontents, hbudget⟩ := h.contents_of_place hplace
    simp only [hjoin, hcontents, hbudget]
    exact ⟨congrArg (Answer.performed _) hnext.shown_eq, places, List.prefix_rfl, hnext⟩

/-- **One event.** -/
theorem step (h : Refines name now spec places) (hname : isRegionName name = true)
    (hsystem : nameFault? name = none) (event : Event) :
    Answered name places (now.step name event) (spec.step name event) := by
  cases event with
  | join total owner => exact h.join hname hsystem total owner
  | unlink => exact h.unlink hsystem
  | abandon length => exact h.abandon hsystem length
  | perform k op => exact h.perform k op

/-- Any events, one after another. -/
theorem run (h : Refines name now spec places) (hname : isRegionName name = true)
    (hsystem : nameFault? name = none) (events : List Event) :
    (Event.run (Session.step name) now events).1 =
      (Event.run (Generations.step name) spec events).1 ∧
    ∃ after, places <+: after ∧
      Refines name (Event.run (Session.step name) now events).2
        (Event.run (Generations.step name) spec events).2 after := by
  induction events generalizing now spec places with
  | nil => exact ⟨rfl, places, List.prefix_rfl, h⟩
  | cons event rest ih =>
    obtain ⟨hanswer, middle, hmiddle, hnext⟩ := h.step hname hsystem event
    obtain ⟨hanswers, after, hafter, hlast⟩ := ih hnext
    exact ⟨congrArg₂ List.cons hanswer hanswers, after, hmiddle.trans hafter, hlast⟩

end Refines

end Session

/-! ## Who shares a counter

Two joins share a counter if the name was not taken away in between. Once it was, the generation is
gone, and no join finds it again. -/

namespace Generations

variable {now : Generations} {g : ℕ}

/-- There has been this generation, and the name is no longer bound to it. -/
structure Gone (now : Generations) (g : ℕ) : Prop where
  /-- It has been laid out. -/
  lt : g < now.budgets.length
  /-- The name stands for something else. -/
  ne : now.bound ≠ .generation g

/-- A join gets the generation that the name is bound to, or a new one. -/
theorem join_cases (now : Generations) (name : String) (total : UInt64) (owner : Int32) :
    (now.step name (.join total owner)).2.joins = now.joins ∨
    ∃ g, (now.step name (.join total owner)).2.joins = now.joins ++ [g] ∧
      (now.step name (.join total owner)).2.bound = .generation g ∧
      (now.bound = .generation g ∨ now.bound = .free ∧ g = now.budgets.length) := by
  simp only [step]
  cases now.bound with
  | free => exact .inr ⟨_, rfl, rfl, .inr ⟨rfl, rfl⟩⟩
  | stale => exact .inl rfl
  | generation g => exact .inr ⟨g, rfl, rfl, .inl rfl⟩

/-- The name is not bound to it again. -/
theorem Gone.step (h : now.Gone g) (name : String) (event : Event) :
    (now.step name event).2.Gone g := by
  obtain ⟨budgets, bound, joins⟩ := now
  obtain ⟨hlt, hne⟩ := h
  cases event with
  | join total owner =>
    cases bound with
    | free =>
      refine ⟨Nat.lt_of_lt_of_le hlt (List.sublist_append_left _ _).length_le, ?_⟩
      intro heq
      exact Nat.ne_of_gt hlt (Binding.generation.inj heq)
    | _ => exact ⟨hlt, hne⟩
  | unlink =>
    cases bound with
    | free => exact ⟨hlt, hne⟩
    | _ => exact ⟨hlt, nofun⟩
  | abandon length =>
    cases bound with
    | free => exact ⟨hlt, nofun⟩
    | _ => exact ⟨hlt, hne⟩
  | perform k op =>
    simp only [Generations.step]
    split
    · exact ⟨hlt, hne⟩
    · exact ⟨by rwa [List.length_modify], hne⟩

/-- The name stays bound to it, unless it is taken away. -/
theorem bound_step (h : now.bound = .generation g) (hlt : g < now.budgets.length) (name : String)
    {event : Event} (hevent : event ≠ .unlink) :
    (now.step name event).2.bound = .generation g ∧ g < (now.step name event).2.budgets.length := by
  obtain ⟨budgets, bound, joins⟩ := now
  obtain rfl : bound = .generation g := h
  cases event with
  | join total owner => exact ⟨rfl, hlt⟩
  | unlink => exact absurd rfl hevent
  | abandon length => exact ⟨rfl, hlt⟩
  | perform k op =>
    simp only [step]
    split
    · exact ⟨rfl, hlt⟩
    · exact ⟨rfl, by rwa [List.length_modify]⟩

/-- A generation is gone once its name is taken away. -/
theorem gone_unlink (h : now.bound = .generation g) (hlt : g < now.budgets.length) (name : String) :
    (now.step name .unlink).2.Gone g := by
  simp only [step, h]
  exact ⟨hlt, nofun⟩

/-- A generation that is gone stays gone. -/
theorem Gone.run (h : now.Gone g) (name : String) (events : List Event) :
    (Event.run (Generations.step name) now events).2.Gone g := by
  induction events generalizing now with
  | nil => exact h
  | cons event rest ih => exact ih (h.step name event)

/-- **A name is bound to a generation until it is taken away**, and never again. -/
theorem bound_run_iff (h : now.bound = .generation g) (hlt : g < now.budgets.length)
    (name : String) (events : List Event) :
    (Event.run (Generations.step name) now events).2.bound = .generation g ↔ .unlink ∉ events := by
  induction events generalizing now with
  | nil => exact iff_of_true h List.not_mem_nil
  | cons event rest ih =>
    by_cases hevent : event = .unlink
    · subst hevent
      have hgone := (gone_unlink h hlt name).run name rest
      exact iff_of_false hgone.ne (not_not_intro List.mem_cons_self)
    · obtain ⟨hbound, hbounded⟩ := bound_step h hlt name hevent
      rw [List.mem_cons, not_or]
      exact (ih hbound hbounded).trans (by simp [Ne.symm hevent])

end Generations

namespace Session.Refines

variable {name : String} {now : Session} {spec : Generations} {places : List ℕ}
variable {g handle : ℕ}

/-- A generation keeps its handle. -/
theorem place_of_prefix {after : List ℕ} (h : places <+: after)
    (hplace : places[g]? = some handle) : after[g]? = some handle := by
  obtain ⟨more, rfl⟩ := h
  rwa [List.getElem?_append_left (List.getElem?_eq_some_iff.1 hplace).1]

/-- The name is bound to a generation that there has been. -/
theorem lt_of_bound (h : Refines name now spec places) (hbound : spec.bound = .generation g) :
    g < spec.budgets.length := by
  have hbinds := h.binds
  rw [hbound] at hbinds
  obtain ⟨place, -, hplace⟩ := hbinds
  rw [h.length_budgets]
  exact (List.getElem?_eq_some_iff.1 hplace).1

/-- Whoever joins gets the handle of a generation that the name is then bound to. -/
theorem joined (h : Refines name now spec places) (hname : isRegionName name = true)
    (hsystem : nameFault? name = none) {total : UInt64} {owner : Int32}
    (hhandle : (now.step name (.join total owner)).2.handles = now.handles ++ [handle]) :
    ∃ g after, places <+: after ∧ after[g]? = some handle ∧
      Refines name (now.step name (.join total owner)).2
        (spec.step name (.join total owner)).2 after ∧
      (spec.step name (.join total owner)).2.bound = .generation g ∧
      (spec.bound = .generation g ∨ spec.bound = .free ∧ g = spec.budgets.length) := by
  obtain ⟨-, after, hafter, hnext⟩ := h.join hname hsystem total owner
  have hhandles := hnext.handles
  rw [hhandle] at hhandles
  have hbefore : spec.joins.length = now.handles.length := by
    have hlength := congrArg List.length h.handles
    simpa using hlength.symm
  rcases spec.join_cases name total owner with hjoins | ⟨g, hjoins, hbound, horigin⟩
  · rw [hjoins] at hhandles
    have hlength := congrArg List.length hhandles
    simp [hbefore] at hlength
  · rw [hjoins, List.map_append, List.map_append] at hhandles
    obtain ⟨-, hlast⟩ := List.append_inj' hhandles rfl
    have hplace : some handle = after[g]? := (List.cons.inj hlast).1
    exact ⟨g, after, hafter, hplace.symm, hnext, hbound, horigin⟩

/-- **Two joins share a counter if and only if the name is not taken away in between.** -/
theorem shared_iff (h : Refines name now spec places) (hname : isRegionName name = true)
    (hsystem : nameFault? name = none) {total more : UInt64} {owner other : Int32}
    {between : List Event} {later : Session} {first second : ℕ}
    (hfirst : (now.step name (.join total owner)).2.handles = now.handles ++ [first])
    (hlater :
      (Event.run (Session.step name) (now.step name (.join total owner)).2 between).2 = later)
    (hsecond : (later.step name (.join more other)).2.handles = later.handles ++ [second]) :
    first = second ↔ .unlink ∉ between := by
  subst hlater
  obtain ⟨g, joined, -, hplace, hjoined, hbound, -⟩ := h.joined hname hsystem hfirst
  have hlt := hjoined.lt_of_bound hbound
  obtain ⟨-, middle, hmiddle, hbetween⟩ := hjoined.run hname hsystem between
  obtain ⟨next, last, hlast, hnextplace, hfinal, hnextbound, horigin⟩ :=
    hbetween.joined hname hsystem hsecond
  rw [← Generations.bound_run_iff hbound hlt name between]
  -- both handles are those of generations
  have hmiddleplace : middle[g]? = some first := place_of_prefix hmiddle hplace
  have hlastplace : last[g]? = some first := place_of_prefix hlast hmiddleplace
  have hsame : first = second ↔ g = next := by
    constructor
    · rintro rfl
      have hlength := (List.getElem?_eq_some_iff.1 hlastplace).1
      exact (List.getElem?_inj hlength hfinal.nodup).1 (hlastplace.trans hnextplace.symm)
    · rintro rfl
      exact Option.some.inj (hlastplace.symm.trans hnextplace)
  rw [hsame]
  rcases horigin with horigin | ⟨hfree, hnew⟩
  · rw [horigin, Binding.generation.injEq, eq_comm]
  · rw [hfree, hnew, hbetween.length_budgets]
    exact iff_of_false (Nat.ne_of_lt (List.getElem?_eq_some_iff.1 hmiddleplace).1) nofun

end Session.Refines

/-- An operation through one handle is seen through the same handle, and through no other. -/
theorem Session.shown_perform (now : Session) (name : String) (j k : ℕ) (op : Budget.Operation) :
    (now.step name (.perform k op)).2.shown[j]? =
      if now.handles[j]? = now.handles[k]? then now.shown[j]?.map (Option.map (·.perform op))
      else now.shown[j]? := by
  cases hk : now.handles[k]? with
  | none =>
    simp only [step, hk]
    by_cases hj : now.handles[j]? = none
    · rw [if_pos hj, shown, List.getElem?_map, hj]
      rfl
    · rw [if_neg hj]
  | some handle =>
    simp only [step, hk, shown, List.getElem?_map]
    cases hj : now.handles[j]? with
    | none => simp
    | some other =>
      rw [Option.map_some, Option.map_some, Store.contents?_update]
      simp only [Option.some.injEq]
      split <;> rfl

/-! ## An object that nobody lays out

A stale object was created and never laid out, be it of the wrong length or of the right one full of
zeros. Whoever joins waits until it gives up, and leaves it as it is. -/

namespace Joining

variable {ι α : Type} {plan : Blueprint ι α} {name : String} {init : ι} {object : Object α}

/-- Where a process can come to with an object that nobody lays out. -/
def Waits (name : String) : Joining α → Prop
  | .created | .sized | .laying _ => False
  | .done answer => answer = .error (.notReady name)
  | _ => True

/-- A step of a process that has met a stale object leaves the object alone. -/
theorem Move.waits {turn next : Joining α} {milestones : List Milestone} {after : Option (Object α)}
    (h : Move plan name init (some object) turn milestones after next)
    (hblank : ¬ object.published) (hwaits : turn.Waits name) :
    after = some object ∧ next.Waits name := by
  cases h with
  | attach hpublished => exact absurd hpublished hblank
  | giveLength => exact hwaits.elim
  | mapNew => exact hwaits.elim
  | lay => exact hwaits.elim
  | publish => exact hwaits.elim
  | tooShort => exact ⟨rfl, rfl⟩
  | tooLate => exact ⟨rfl, rfl⟩
  | _ => exact ⟨rfl, trivial⟩

/-- Whoever joins it leaves it as it is. -/
theorem Moves.waits (hblank : ¬ object.published) {now : Option (Object α) × Joining α}
    (h : Moves plan name init (some object, .outside) now) :
    now.1 = some object ∧ now.2.Waits name := by
  induction h with
  | refl => exact ⟨rfl, trivial⟩
  | @tail middle last _ hmove ih =>
    obtain ⟨hobject, hwaits⟩ := ih
    obtain ⟨milestones, hmove⟩ := hmove
    rw [hobject] at hmove
    exact hmove.waits hblank hwaits

end Joining

/-! ## The result -/

namespace Session

variable {name : String} {store : Store Budget} {now : Session} {events : List Event}

/-- A name that is not bound has had no generation. -/
theorem refines_fresh (hfree : store.names.get? (systemName name) = none) :
    Refines name ⟨store, []⟩ .fresh [] where
  nodup := List.nodup_nil
  contents := rfl
  handles := rfl
  binds := hfree

/-- **The regions of one name come in generations.** Take a name that the library and the system
accept, in a store where it is not bound. Whatever is done with it, joins and failing joins, taking
the name away, leaving an object that is not laid out, operating the counter of anything that has
been joined: all answers are those of the generations, and so is what all who have joined see. Two
joins share a counter if and only if the name is not taken away in between. An operation changes
what is seen through its handle, and nothing that is seen through another. And whoever joins an
object that is not laid out, however long it is, finds no region there, once the time is over, and
has changed nothing. -/
theorem refines_generations (hname : isRegionName name = true) (htext : '\x00' ∉ name.toList)
    (hfile : name ≠ "/." ∧ name ≠ "/..") (hfree : store.names.get? (systemName name) = none)
    (hnow : (Event.run (step name) ⟨store, []⟩ events).2 = now) :
    (Event.run (step name) ⟨store, []⟩ events).1 =
      (Event.run (Generations.step name) .fresh events).1 ∧
    now.shown = (Event.run (Generations.step name) .fresh events).2.shown ∧
    (∀ total owner between more other later first second,
      (now.step name (.join total owner)).2.handles = now.handles ++ [first] →
      (Event.run (step name) (now.step name (.join total owner)).2 between).2 = later →
      (later.step name (.join more other)).2.handles = later.handles ++ [second] →
      (first = second ↔ .unlink ∉ between)) ∧
    (∀ (j k : ℕ) (op : Budget.Operation), (now.step name (.perform k op)).2.shown[j]? =
      if now.handles[j]? = now.handles[k]? then now.shown[j]?.map (Option.map (·.perform op))
      else now.shown[j]?) ∧
    ∀ length total owner, Object.segment ⟨length, budgetPlan.blank, false⟩ = .blank ∧
      Joining.Moves budgetPlan name (total, owner)
        (some ⟨length, budgetPlan.blank, false⟩, .outside)
        (some ⟨length, budgetPlan.blank, false⟩, .done (.error (.notReady name))) ∧
      ∀ after answer, Joining.Moves budgetPlan name (total, owner)
          (some ⟨length, budgetPlan.blank, false⟩, .outside) (after, .done answer) →
        after = some ⟨length, budgetPlan.blank, false⟩ ∧ answer = .error (.notReady name) := by
  have hsystem := (nameFault?_eq_none_iff hname).2 ⟨htext, hfile⟩
  obtain ⟨hanswers, places, -, hrefines⟩ := (refines_fresh hfree).run hname hsystem events
  rw [hnow] at hrefines
  refine ⟨hanswers, hrefines.shown_eq, ?_, now.shown_perform name, ?_⟩
  · intro total owner between more other later first second hfirst hlater hsecond
    exact hrefines.shared_iff hname hsystem hfirst hlater hsecond
  · -- a stale object has no magic word, so whoever meets it can only wait
    intro length total owner
    have hblank : ¬ (⟨length, budgetPlan.blank, false⟩ : Object Budget).published :=
      Bool.false_ne_true
    exact ⟨rfl, Joining.Moves.beaten.trans (Joining.Moves.giveUp hblank),
      fun after answer hmoves => hmoves.waits hblank⟩

/-- A region is joined, operated in all three ways and taken away; an object is left that is not
laid out and taken away, too. Then the region is joined twice again, and through each handle
something is done: the second and the third share a counter, the first has its own. -/
theorem refines_generations_rejoined :
    ∃ (name : String) (store : Store Budget) (events between : List Event) (now later : Session),
      events = [.join 100 7, .perform 0 (.reserve 30), .perform 0 (.consume 20),
        .perform 0 (.release 10), .unlink, .abandon 64, .join 5 5, .unlink] ∧
      between = [.perform 1 (.consume 25), .perform 0 (.release 5)] ∧
      (Event.run (step name) ⟨store, []⟩ events).2 = now ∧ now.shown = [some ⟨100, 60, 7⟩] ∧
      (Event.run (step name) ⟨store, []⟩ events).1[6]? =
        some (.joined (.error (.notReady name))) ∧
      ∃ first second, (now.step name (.join 50 8)).2.handles = now.handles ++ [first] ∧
        (Event.run (step name) (now.step name (.join 50 8)).2 between).2 = later ∧
        later.shown = [some ⟨100, 65, 7⟩, some ⟨50, 25, 8⟩] ∧
        (later.step name (.join 9 9)).2.handles = later.handles ++ [second] ∧
        (later.step name (.join 9 9)).2.shown =
          [some ⟨100, 65, 7⟩, some ⟨50, 25, 8⟩, some ⟨50, 25, 8⟩] ∧
        first = second ∧ some first ≠ now.handles[0]? := by
  let events : List Event :=
    [.join 100 7, .perform 0 (.reserve 30), .perform 0 (.consume 20), .perform 0 (.release 10),
      .unlink, .abandon 64, .join 5 5, .unlink]
  let between : List Event := [.perform 1 (.consume 25), .perform 0 (.release 5)]
  obtain ⟨hanswers, hshown, hshared, -⟩ :=
    @refines_generations "/a" .empty _ events (by decide) (by decide) (by decide) rfl rfl
  -- what is seen later is that of the longer history
  obtain ⟨-, hlater, -⟩ := @refines_generations "/a" .empty _ (events ++ .join 50 8 :: between)
    (by decide) (by decide) (by decide) rfl rfl
  obtain ⟨-, hlast, -⟩ := @refines_generations "/a" .empty _
    (events ++ .join 50 8 :: between ++ [.join 9 9]) (by decide) (by decide) (by decide) rfl rfl
  refine ⟨"/a", .empty, events, between, _, _, rfl, rfl, rfl, hshown, ?_, 2, 2, rfl, rfl, hlater,
    rfl, hlast, ?_, ?_⟩
  · rw [hanswers]
    rfl
  · exact (hshared 50 8 between 9 9 _ 2 2 rfl rfl rfl).2 (by decide)
  · decide

end Session

end GpuQuota.Shared
