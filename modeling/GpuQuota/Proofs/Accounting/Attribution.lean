import GpuQuota.Proofs.Accounting.Session

/-!
# Which device an object belongs to

The parameters of a device object name its device, and any other object belongs where its parent
does. An `Attribution` says so for every handle, and each `ObjectEvent` changes it: what is told of
a handle is told by its newest creation, whatever the handle stood for before.

A ledger does not forget a handle that is given to an object of unknown device, so it may still tell
where an earlier object belonged.

* `Exchange.event?`: what the driver does to objects on one call.
* `Holding.deviceOf_after`: what a call does to the devices in a ledger.
* `Attribution.Obscures`: the events on which ledger and attribution part.
* `attribution_followed_iff`: the ledger follows the attribution all through a session if and only
  if the session has no such event, which is `Attribution.Clear`.
* `not_attribution_followed`: some sessions have one.
-/

namespace GpuQuota.Accounting

open GpuQuota.Driver GpuQuota.Settings

/-! ## Events

A call can do one thing to objects at most: free one, or create one. What it does is read off the
request and the driver's answer, not off the ledger. -/

/-- What a driver does to the objects of its clients. -/
inductive ObjectEvent where
  /-- An object is freed. -/
  | freed (key : ObjectKey)
  /-- A device object is created, with the device that its parameters name. -/
  | device (key : ObjectKey) (device : Option UInt32)
  /-- An object is created below another one. -/
  | child (key parent : ObjectKey)
  deriving DecidableEq, Repr

namespace ObjectEvent

/-- The handle that an event is about. -/
def key : ObjectEvent → ObjectKey
  | .freed key => key
  | .device key _ => key
  | .child key _ => key

/-- The event creates an object. -/
def IsCreation : ObjectEvent → Prop
  | .freed _ => False
  | _ => True

instance (event : ObjectEvent) : Decidable event.IsCreation :=
  match event with
  | .freed _ => instDecidableFalse
  | .device _ _ => instDecidableTrue
  | .child _ _ => instDecidableTrue

end ObjectEvent

namespace Exchange

variable (x : Exchange)

instance (number : UInt8) : Decidable (x.OnControl number) :=
  decidable_of_iff (x.device = some (deviceMajor, controlMinor) ∧ x.request.kind = requestKind ∧
    x.request.number = number)
    ⟨fun ⟨device, kind, number⟩ => ⟨device, kind, number⟩,
      fun ⟨device, kind, number⟩ => ⟨device, kind, number⟩⟩

instance : Decidable x.Frees :=
  decidable_of_iff (x.OnControl freeNumber ∧ FreeBlock.layout.fits x.args x.request.size = true ∧
    x.ret = 0 ∧ x.release.status = statusOk ∧ x.release.old ≠ x.release.root)
    ⟨fun ⟨onControl, fits, ret, status, old⟩ => ⟨onControl, fits, ret, status, old⟩,
      fun ⟨onControl, fits, ret, status, old⟩ => ⟨onControl, fits, ret, status, old⟩⟩

instance (block : AllocBlock) : Decidable (x.Creates block) :=
  decidable_of_iff (x.OnControl allocNumber ∧ x.created? = some block ∧ x.ret = 0 ∧
    block.status = statusOk)
    ⟨fun ⟨onControl, decode, ret, status⟩ => ⟨onControl, decode, ret, status⟩,
      fun ⟨onControl, decode, ret, status⟩ => ⟨onControl, decode, ret, status⟩⟩

/-- The device that the parameters of a device object name. It is not named where there are no
parameters, or fewer than the four bytes of its number. -/
def named? (block : AllocBlock) : Option UInt32 :=
  if block.params = 0 ∨ block.paramsSize < 4 then none else some (x.left.word32 block.params)

/-- The event that a created object is. -/
def creation (block : AllocBlock) : ObjectEvent :=
  if block.cls = deviceClass then .device ⟨block.root, block.new⟩ (x.named? block)
  else .child ⟨block.root, block.new⟩ ⟨block.root, block.parent⟩

/-- What the driver does to objects on a call, if it does anything. -/
def event? : Option ObjectEvent :=
  if x.Frees then some (.freed x.releaseKey)
  else x.created?.bind fun block => if x.Creates block then some (x.creation block) else none

variable {x}

theorem event?_of_frees (h : x.Frees) : x.event? = some (.freed x.releaseKey) := if_pos h

theorem event?_of_creates {block : AllocBlock} (h : x.Creates block) :
    x.event? = some (x.creation block) := by
  have hfrees : ¬ x.Frees := fun hfrees =>
    absurd (hfrees.onControl.unique h.onControl) (by decide)
  rw [event?, if_neg hfrees, h.decode, Option.bind_some, if_pos h]

theorem event?_eq_none (hfrees : ¬ x.Frees) (hcreates : ∀ block, ¬ x.Creates block) :
    x.event? = none := by
  rw [event?, if_neg hfrees]
  rcases x.created? with _ | block
  · rfl
  · exact if_neg (hcreates block)

/-- The program reads the device that the parameters name. -/
theorem deviceId?_eq_named? (block : AllocBlock) :
    Account.deviceId? x.left block.params block.paramsSize = x.named? block := by
  rw [Account.deviceId?, named?]
  by_cases hnull : block.params = 0
  · simp [hnull]
  · by_cases hsize : block.paramsSize < 4
    · have hge : ¬ 4 ≤ block.paramsSize := UInt32.not_le.2 hsize
      simp [hsize, hge]
    · simp [hnull, hsize, UInt32.not_lt.1 hsize]

end Exchange

/-! ## Attributions

An event says of its handle what is known of the object that is there now, and that may be nothing.
-/

/-- The device that each object belongs to, where it is known. -/
abbrev Attribution := ObjectKey → Option UInt32

namespace Attribution

/-- Nothing is known. -/
def unknown : Attribution := fun _ => none

/-- The device that an event tells of its object. Nothing is known of a freed one. -/
def told (attribution : Attribution) : ObjectEvent → Option UInt32
  | .freed _ => none
  | .device _ device => device
  | .child _ parent => attribution parent

/-- The attribution after an event: of its object is known what the event tells. -/
def after (attribution : Attribution) (event : ObjectEvent) : Attribution :=
  Function.update attribution event.key (attribution.told event)

/-- The attribution after an exchange. -/
def afterExchange (attribution : Attribution) (x : Exchange) : Attribution :=
  x.event?.elim attribution attribution.after

/-- The attribution that a session leads to. -/
def ofSession (session : List Exchange) : Attribution := session.foldl afterExchange unknown

/-- A quota for `minor` applies to an object: its device is that one, or is not known. -/
def Governs (attribution : Attribution) (minor : UInt32) (key : ObjectKey) : Prop :=
  ∀ device, attribution key = some device → device = minor

/-- An event gives a handle whose device is known to an object whose device is not. -/
def Obscures (attribution : Attribution) (event : ObjectEvent) : Prop :=
  event.IsCreation ∧ attribution.told event = none ∧ attribution event.key ≠ none

/-- What a ledger knows after an event: a creation that tells no device is not noted. -/
def noted (attribution : Attribution) (event : ObjectEvent) : Attribution :=
  if event.IsCreation ∧ attribution.told event = none then attribution
  else attribution.after event

variable {attribution known : Attribution} {event : ObjectEvent}

/-- Noting a creation changes its handle where something is told of it. -/
theorem noted_of_isCreation (h : event.IsCreation) :
    attribution.noted event = (attribution.told event).elim attribution fun device =>
      Function.update attribution event.key (some device) := by
  rw [noted, after]
  rcases htold : attribution.told event with _ | device
  · exact if_pos ⟨h, rfl⟩
  · exact if_neg fun hnone => nomatch hnone.2

/-- What is noted is what is told, but for the events that obscure a device. -/
theorem noted_eq_after_iff : attribution.noted event = attribution.after event ↔
    ¬ attribution.Obscures event := by
  rw [noted, Obscures]
  split
  · next hkept =>
    obtain ⟨hcreation, htold⟩ := hkept
    rw [after, htold, Function.eq_update_iff]
    simp [hcreation]
  · next hkept =>
    refine ⟨fun _ hobscures => hkept ⟨hobscures.1, hobscures.2.1⟩, fun _ => rfl⟩

/-- Every device of the one attribution is in the other. -/
def Within (attribution known : Attribution) : Prop :=
  ∀ key device, attribution key = some device → known key = some device

/-- What is told by less is told by more. -/
theorem Within.told (h : attribution.Within known) {device : UInt32}
    (htold : attribution.told event = some device) : known.told event = some device := by
  cases event with
  | freed key => exact htold
  | device key found => exact htold
  | child key parent => exact h parent device htold

/-- A ledger that knows every device keeps doing so: it forgets none but of freed objects. -/
theorem Within.noted (h : attribution.Within known) (event : ObjectEvent) :
    (attribution.after event).Within (known.noted event) := by
  intro key device hdevice
  rw [after, Function.update_apply] at hdevice
  rw [Attribution.noted, after]
  split at hdevice
  · next hkey =>
    -- the handle of the event itself
    have htold := h.told hdevice
    have hnoted : ¬ (event.IsCreation ∧ known.told event = none) := by
      rintro ⟨-, hnone⟩
      rw [htold] at hnone
      cases hnone
    rw [if_neg hnoted, hkey, Function.update_self, htold]
  · next hkey =>
    split
    · exact h key device hdevice
    · rw [Function.update_of_ne hkey]
      exact h key device hdevice

/-- No event of a session obscures what was known before it. -/
def Clear (session : List Exchange) : Prop :=
  ∀ earlier x event, earlier ++ [x] <+: session → x.event? = some event →
    ¬ (ofSession earlier).Obscures event

theorem ofSession_concat (session : List Exchange) (x : Exchange) :
    ofSession (session ++ [x]) = (ofSession session).afterExchange x :=
  List.foldl_concat ..

end Attribution

/-! ## The ledger

The ledger notes a device where one is known and leaves the handle as it is where none is. So the
two part where an event tells nothing of a handle that the ledger knows of. -/

namespace Ledger

/-- Noting a device changes one handle, and noting none changes nothing. -/
theorem devices_noteDevice? (ledger : Ledger) (key : ObjectKey) (device : Option UInt32) :
    (Holding.noteDevice? ledger key device).deviceOf =
      device.elim ledger.deviceOf fun device =>
        Function.update ledger.deviceOf key (some device) := by
  cases device with
  | none => rfl
  | some device => exact ledger.devices_noteDevice key device

end Ledger

namespace Holding

variable {held : Holding} {x : Exchange}

/-- The settlement of a heap request leaves the devices alone. -/
theorem devices_book_settleHeap (account : Account) (block : HeapBlock) (admission : Admission)
    (ledger : Ledger) :
    (ledger.book (account.settleHeap block admission)).2.devices = ledger.devices := by
  rcases account.settleHeap_cases block admission with h | h | h | ⟨key, bytes, rfl, h⟩ <;> rw [h]
  · rfl
  · rfl
  · rw [admission.inert_refund]
  · rfl

/-- So does a call for bytes. -/
theorem devices_book_of_demands (h : held.Demands x) :
    (held.account.ledger.book (held.verdict x)).2.devices = held.account.ledger.devices := by
  have hrelevant := h.onControl.relevant (by decide)
  by_cases hfits : x.bytes ≤ held.budget.free
  · have hserve : held.budget.serve
        (held.account.demand controlMinor x.request x.args x.space) = (.reserved x.bytes, _) :=
      Budget.serve_eq_reserved_iff.2 ⟨(demand_eq_some_iff hrelevant).2 ⟨h, rfl⟩, hfits, rfl⟩
    rw [verdict_of_reserved hrelevant hserve, Visit.verdict]
    split
    · rw [Account.settlement_heap ⟨rfl, h.onControl.number, h.fits⟩]
      exact devices_book_settleHeap _ _ _ _
    · rfl
  · have hserve : held.budget.serve
        (held.account.demand controlMinor x.request x.args x.space) =
        (.rejected x.bytes held.budget.free, held.budget) := by
      rw [(demand_eq_some_iff hrelevant).2 ⟨h, rfl⟩]
      exact Budget.serve_of_lt (UInt64.not_le.1 hfits)
    rw [verdict_of_rejected hrelevant hserve]
    rfl

/-- A call on which the driver does nothing to objects leaves the devices alone. -/
theorem devices_book_of_no_event (hfrees : ¬ x.Frees) (hcreates : ∀ block, ¬ x.Creates block) :
    (held.account.ledger.book (held.verdict x)).2.devices = held.account.ledger.devices := by
  by_cases hrelevant : relevantMinor? x.request x.device = some controlMinor
  · by_cases hdemands : held.Demands x
    · exact devices_book_of_demands hdemands
    · rw [inert_verdict_of_not_demands hrelevant hdemands hfrees hcreates]
  · rw [inert_verdict_of_not_relevant hrelevant]

/-- **A call does to the devices in a ledger what is noted of its event.** -/
theorem deviceOf_after (held : Holding) (x : Exchange) :
    (held.after x).account.ledger.deviceOf =
      x.event?.elim held.account.ledger.deviceOf
        (Attribution.noted held.account.ledger.deviceOf) := by
  rw [account_after]
  by_cases hfrees : x.Frees
  · rw [verdict_of_frees hfrees, Exchange.event?_of_frees hfrees]
    exact held.account.ledger.devices_book_strike x.releaseKey
  by_cases hcreates : ∃ block, x.Creates block
  · obtain ⟨block, hblock⟩ := hcreates
    rw [verdict_of_creates hblock, Exchange.event?_of_creates hblock, Account.settleAlloc,
      if_pos hblock.status, Exchange.creation, Exchange.deviceId?_eq_named?]
    split
    · have hcreation : (ObjectEvent.device ⟨block.root, block.new⟩ (x.named? block)).IsCreation :=
        trivial
      rw [Option.elim_some, Attribution.noted_of_isCreation hcreation]
      exact held.account.ledger.devices_noteDevice? _ _
    · have hcreation : (ObjectEvent.child ⟨block.root, block.new⟩
          ⟨block.root, block.parent⟩).IsCreation := trivial
      rw [Option.elim_some, Attribution.noted_of_isCreation hcreation]
      exact held.account.ledger.devices_noteDevice? _ _
  · have hnone : ∀ block, ¬ x.Creates block := fun block hblock => hcreates ⟨block, hblock⟩
    rw [Exchange.event?_eq_none hfrees hnone]
    exact congrArg Keyed.get? (devices_book_of_no_event hfrees hnone)

theorem quota_after (held : Holding) (x : Exchange) :
    (held.after x).account.quota = held.account.quota := by
  rw [account_after]

/-- A ledger knows what an attribution says of every object, and a quota applies where it says so.
-/
structure Follows (held : Holding) (attribution : Attribution) : Prop where
  /-- The table of devices is the attribution. -/
  devices : held.account.ledger.deviceOf = attribution
  /-- A report is adjusted unless the object is known to belong to another device. -/
  governs : ∀ key, held.account.governs key = true ↔
    attribution.Governs held.account.quota.minor key

/-- To follow an attribution is to have its devices. -/
theorem follows_iff {attribution : Attribution} :
    held.Follows attribution ↔ held.account.ledger.deviceOf = attribution := by
  refine ⟨Follows.devices, ?_⟩
  rintro rfl
  exact ⟨rfl, fun _ => Account.governs_iff⟩

/-- **A ledger follows an attribution over a call exactly where the call obscures nothing.** -/
theorem Follows.after_iff {attribution : Attribution} (h : held.Follows attribution) :
    (held.after x).Follows (attribution.afterExchange x) ↔
      ∀ event, x.event? = some event → ¬ attribution.Obscures event := by
  rw [follows_iff, deviceOf_after, h.devices, Attribution.afterExchange]
  rcases x.event? with _ | event
  · simp
  · simp [Attribution.noted_eq_after_iff]

/-- What is known for sure stays in the ledger. -/
theorem within_after {attribution : Attribution}
    (h : attribution.Within held.account.ledger.deviceOf) (x : Exchange) :
    (attribution.afterExchange x).Within (held.after x).account.ledger.deviceOf := by
  rw [deviceOf_after, Attribution.afterExchange]
  rcases x.event? with _ | event
  · exact h
  · exact h.noted event

end Holding

/-! ## Sessions

A session is judged from its beginning, when both sides know nothing. -/

namespace Holding

/-- The holding that a session leads to, from a ledger that knows nothing. -/
def ofSession (budget : Budget) (quota : MemoryQuota) (session : List Exchange) : Holding :=
  session.foldl Holding.after ⟨budget, ⟨quota, .empty⟩⟩

variable {budget : Budget} {quota : MemoryQuota}

theorem ofSession_concat (session : List Exchange) (x : Exchange) :
    ofSession budget quota (session ++ [x]) = (ofSession budget quota session).after x :=
  List.foldl_concat ..

theorem quota_ofSession (session : List Exchange) :
    (ofSession budget quota session).account.quota = quota := by
  induction session using List.reverseRecOn with
  | nil => rfl
  | append_singleton earlier x ih => rw [ofSession_concat, quota_after, ih]

/-- A ledger never tells too little. -/
theorem within_ofSession (session : List Exchange) :
    (Attribution.ofSession session).Within
      (ofSession budget quota session).account.ledger.deviceOf := by
  induction session using List.reverseRecOn with
  | nil => exact fun key device hunknown => nomatch hunknown
  | append_singleton earlier x ih =>
    rw [ofSession_concat, Attribution.ofSession_concat]
    exact within_after ih x

/-- **The ledger follows the attribution through a session without an obscuring event.** -/
theorem follows_ofSession {session : List Exchange} (h : Attribution.Clear session) :
    (ofSession budget quota session).Follows (.ofSession session) := by
  induction session using List.reverseRecOn with
  | nil => exact follows_iff.2 rfl
  | append_singleton earlier x ih =>
    have hearlier : Attribution.Clear earlier := fun before y event hbefore =>
      h before y event (hbefore.trans (List.prefix_append earlier [x]))
    rw [ofSession_concat, Attribution.ofSession_concat, (ih hearlier).after_iff]
    exact fun event => h earlier x event List.prefix_rfl

end Holding

/-- **A ledger follows the newest creations all through a session if and only if no creation
obscures a device.** It never tells too little: a device that the newest creation of an object gives
is in the ledger, so a quota is applied to no object that is known to be elsewhere. -/
theorem attribution_followed_iff (budget : Budget) (quota : MemoryQuota)
    (session : List Exchange) :
    ((∀ earlier, earlier <+: session →
        (Holding.ofSession budget quota earlier).Follows (.ofSession earlier)) ↔
      Attribution.Clear session) ∧
    (Attribution.ofSession session).Within
      (Holding.ofSession budget quota session).account.ledger.deviceOf ∧
    ∀ key, (Holding.ofSession budget quota session).account.governs key = true →
      (Attribution.ofSession session).Governs quota.minor key := by
  refine ⟨⟨?_, ?_⟩, Holding.within_ofSession session, ?_⟩
  · intro hfollows earlier x event hprefix
    have hbefore := hfollows earlier ((List.prefix_append earlier [x]).trans hprefix)
    have hafter := hfollows (earlier ++ [x]) hprefix
    rw [Holding.ofSession_concat, Attribution.ofSession_concat] at hafter
    exact hbefore.after_iff.1 hafter event
  · intro hclear earlier hprefix
    exact Holding.follows_ofSession fun before x event hbefore =>
      hclear before x event (hbefore.trans hprefix)
  · intro key hgoverns device hdevice
    rw [Account.governs_iff, Holding.quota_ofSession] at hgoverns
    exact hgoverns device (Holding.within_ofSession session key device hdevice)

/-- A device object is created under handle 16, with parameters at an address that may be null. They
name device 1 where they are there. -/
def Exchange.sixteen (params : UInt64) : Exchange where
  device := some (deviceMajor, controlMinor)
  raw := (Request.readWrite allocNumber 48).raw
  args := 0x1000
  space := AllocBlock.writeLong (Space.setWord32 .blank 0x2000 1) 0x1000
    ⟨1, 1, 16, deviceClass, params, 16, 0⟩
  driver := fun _ _ space => (0, space)
  alive := fun _ => true

/-- Handle 16 is given to a device object with parameters and then to one without. -/
theorem not_attribution_followed : ¬ ∀ budget quota session,
    (Holding.ofSession budget quota session).Follows (.ofSession session) := by
  intro hfollows
  have hnamed : (Exchange.sixteen 0x2000).event? = some (.device ⟨1, 16⟩ (some 1)) := by
    decide +kernel
  have hunnamed : (Exchange.sixteen 0).event? = some (.device ⟨1, 16⟩ none) := by
    decide +kernel
  have hbefore := hfollows (.full 65536 1) ⟨0, 65536⟩ ([] ++ [.sixteen 0x2000])
  have hafter := hfollows (.full 65536 1) ⟨0, 65536⟩
    (([] ++ [.sixteen 0x2000]) ++ [.sixteen 0])
  rw [Holding.ofSession_concat, Attribution.ofSession_concat, hbefore.after_iff] at hafter
  refine hafter _ hunnamed ⟨trivial, rfl, ?_⟩
  rw [Attribution.ofSession_concat, Attribution.afterExchange, hnamed]
  decide

end GpuQuota.Accounting
