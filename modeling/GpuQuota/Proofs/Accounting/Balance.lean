import GpuQuota.Accounting.Account
import Mathlib.Algebra.BigOperators.Finprod
import Mathlib.Data.Set.Card
import Mathlib.Logic.Function.Basic

/-!
# The balance of a ledger

Bytes that are charged to a process stand in the records of its ledger, and the ledger trades them
with the shared budget: what a new charge replaces and what a strike removes is **owed** to the
budget until it is released. Carrying a settlement out is therefore two steps, one on the ledger
(`Settlement.book`) and one on the budget (`Holding.giveBack`), between which other threads may
come in.

* `Ledger.recorded`: the bytes of all records, as a number that cannot wrap.
* `Ledger.recorded_book`: booking a settlement neither makes nor loses bytes.
* `Holding.settle_eq`: a settlement is its booking followed by one release.
* `Holding.balance_settle`: so free and recorded bytes grow by what the settlement had in hand.
-/

namespace GpuQuota

/-! ## Sizes of a finite map, and sums over it

A ledger keeps its records in a finite map, and what is to be known of it are two numbers: how many
entries it has and what their sizes add up to. Both are followed through the operations of the map
here, once for all kinds of values; the sum over all keys, as mathematics has it, is the sum of the
entries because no key occurs twice. -/

namespace Keyed

variable {κ α : Type} [DecidableEq κ]

/-- The number of entries is the number of keys under which something stands. -/
theorem size_eq_ncard (map : Keyed κ α) :
    map.size = {key | map.get? key ≠ none}.ncard := by
  have hkeys : {key | map.get? key ≠ none} = ((map.entries.map Prod.fst).toFinset : Set κ) := by
    ext key
    simp [get?, List.find?_eq_none]
  rw [hkeys, Set.ncard_coe_finset, List.toFinset_card_of_nodup map.nodup, List.length_map]
  rfl

/-- The sum of the sizes of all values. -/
def sumOf (map : Keyed κ α) (size : α → ℕ) : ℕ := (map.values.map size).sum

/-- A key that is none of the keys is not found. -/
theorem find?_eq_none_of_fresh {entries : List (κ × α)} {key : κ}
    (h : key ∉ entries.map Prod.fst) : entries.find? (fun entry => entry.1 = key) = none := by
  rw [List.find?_eq_none]
  intro entry hmem heq
  exact h (List.mem_map.2 ⟨entry, hmem, of_decide_eq_true heq⟩)

/-- And leaving it out leaves the entries as they are. -/
theorem filter_eq_self_of_fresh {entries : List (κ × α)} {key : κ}
    (h : key ∉ entries.map Prod.fst) :
    entries.filter (fun entry => entry.1 ≠ key) = entries := by
  rw [List.filter_eq_self]
  intro entry hmem
  exact decide_eq_true fun heq => h (List.mem_map.2 ⟨entry, hmem, heq⟩)

/-- Erasing a key takes the size of its value out of the sum. -/
theorem sumOf_erase (map : Keyed κ α) (key : κ) (size : α → ℕ) :
    (map.erase key).sumOf size + (map.get? key).elim 0 size = map.sumOf size := by
  obtain ⟨entries, hnodup⟩ := map
  simp only [sumOf, values, erase, get?, List.map_map]
  induction entries with
  | nil => rfl
  | cons entry rest ih =>
    rw [List.map_cons, List.nodup_cons] at hnodup
    by_cases hkey : entry.1 = key
    · subst hkey
      rw [List.filter_cons_of_neg (by simp), filter_eq_self_of_fresh hnodup.1,
        List.find?_cons_of_pos (by simp), List.map_cons, List.sum_cons]
      exact Nat.add_comm _ _
    · have := ih hnodup.2
      rw [List.filter_cons_of_pos (by simpa using hkey),
        List.find?_cons_of_neg (by simpa using hkey), List.map_cons, List.map_cons, List.sum_cons,
        List.sum_cons]
      omega

/-- Inserting a value adds its size and takes out the size of the value that it replaces. -/
theorem sumOf_insert (map : Keyed κ α) (key : κ) (value : α) (size : α → ℕ) :
    (map.insert key value).sumOf size + (map.get? key).elim 0 size =
      map.sumOf size + size value := by
  have herase := sumOf_erase map key size
  have hinsert : (map.insert key value).sumOf size = size value + (map.erase key).sumOf size := rfl
  omega

/-- The sum over all entries is the sum over all keys of what stands under them. -/
theorem sumOf_eq_finsum (map : Keyed κ α) (size : α → ℕ) :
    map.sumOf size = ∑ᶠ key, (map.get? key).elim 0 size := by
  obtain ⟨entries, hnodup⟩ := map
  simp only [sumOf, values, get?, List.map_map]
  induction entries with
  | nil => simp
  | cons entry rest ih =>
    obtain ⟨key, value⟩ := entry
    rw [List.map_cons, List.nodup_cons] at hnodup
    set under : κ → ℕ := fun k => ((rest.find? fun e => e.1 = k).map Prod.snd).elim 0 size
    have hfresh : ∀ k, k ∉ rest.map Prod.fst → under k = 0 := by
      intro k hk
      simp only [under, find?_eq_none_of_fresh hk, Option.map_none, Option.elim_none]
    -- the head is the only entry under its key, so it adds a function that is zero elsewhere
    have hsplit : (fun k => ((((key, value) :: rest).find? fun e => e.1 = k).map Prod.snd).elim 0
        size) = fun k => (Pi.single key (size value) : κ → ℕ) k + under k := by
      funext k
      by_cases hk : key = k
      · subst hk
        simp [hfresh key hnodup.1]
      · simp [hk, Ne.symm hk, under]
    have hunder : Function.HasFiniteSupport under :=
      (rest.map Prod.fst).finite_toSet.subset fun k hk => by
        by_contra hmem
        exact hk (hfresh k hmem)
    have hsingle : Function.HasFiniteSupport (Pi.single key (size value) : κ → ℕ) :=
      (Set.finite_singleton key).subset Pi.support_single_subset
    have hone : ∑ᶠ k, (Pi.single key (size value) : κ → ℕ) k = size value := by
      rw [finsum_eq_single _ key fun k hk => Pi.single_eq_of_ne hk _, Pi.single_eq_same]
    calc (((key, value) :: rest).map (size ∘ Prod.snd)).sum
        = size value + (rest.map (size ∘ Prod.snd)).sum := rfl
      _ = ∑ᶠ k, (Pi.single key (size value) : κ → ℕ) k + ∑ᶠ k, under k := by
        rw [hone, ih hnodup.2]
      _ = ∑ᶠ k, ((Pi.single key (size value) : κ → ℕ) k + under k) :=
        (finsum_add_distrib hsingle hunder).symm
      _ = _ := by rw [hsplit]

end Keyed

namespace Accounting

open GpuQuota.Driver GpuQuota.Number

/-- The number of bytes that are owed to the budget, if any. -/
def owed (bytes : Option UInt64) : ℕ := bytes.elim 0 UInt64.toNat

@[simp] theorem owed_none : owed none = 0 := rfl

@[simp] theorem owed_some (bytes : UInt64) : owed (some bytes) = bytes.toNat := rfl

/-- Charges as a ledger shows them: the bytes under each key. -/
abbrev Charges : Type := ObjectKey → Option UInt64

/-- The sum of all charges. -/
noncomputable def Charges.sum (charges : Charges) : ℕ := ∑ᶠ key, owed (charges key)

/-! ## The budget

Giving bytes back is a sum that stops at the ceiling. It stops only where more comes back than was
taken, which the balance rules out: then giving back is a plain sum (`free_giveBack`). -/

namespace Budget

/-- A release is a sum that stops at the ceiling. -/
theorem toNat_release (budget : Budget) (bytes : UInt64) :
    (budget.release bytes).free.toNat =
      min (budget.free.toNat + bytes.toNat) budget.total.toNat := by
  have hmin : (budget.release bytes).free.toNat =
      min (saturatingAdd budget.free bytes).toNat budget.total.toNat := by
    change (if saturatingAdd budget.free bytes ≤ budget.total then _ else _ : UInt64).toNat = _
    by_cases hle : saturatingAdd budget.free bytes ≤ budget.total
    · rw [if_pos hle, Nat.min_eq_left (UInt64.le_iff_toNat_le.1 hle)]
    · rw [if_neg hle, Nat.min_eq_right]
      rw [UInt64.le_iff_toNat_le] at hle
      omega
  have hsize : UInt64.size = 2 ^ 64 := rfl
  have htotal := budget.total.toNat_lt
  rw [hmin, toNat_saturatingAdd]
  omega

/-- A release that fits below the ceiling does not saturate. -/
theorem toNat_release_of_le {budget : Budget} {bytes : UInt64}
    (h : budget.free.toNat + bytes.toNat ≤ budget.total.toNat) :
    (budget.release bytes).free.toNat = budget.free.toNat + bytes.toNat := by
  rw [toNat_release, Nat.min_eq_left h]

end Budget

namespace Holding

theorem total_giveBack (budget : Budget) (bytes : Option UInt64) :
    (giveBack budget bytes).total = budget.total := by
  cases bytes <;> rfl

/-- As long as there is room below the ceiling, everything that is owed is free again. -/
theorem free_giveBack {budget : Budget} {bytes : Option UInt64}
    (h : budget.free.toNat + owed bytes ≤ budget.total.toNat) :
    (giveBack budget bytes).free.toNat = budget.free.toNat + owed bytes := by
  cases bytes with
  | none => rfl
  | some bytes => exact Budget.toNat_release_of_le h

end Holding

/-! ## The ledger

A ledger counts its bytes in a word of its own, next to the records. The two agree (`Tallied`) until
the sum no longer fits the word; what the records come to is therefore told by a number
(`recorded`), and the word shown to be that number. -/

namespace Ledger

/-- The bytes of all records. -/
def recorded (ledger : Ledger) : ℕ := ledger.records.sumOf UInt64.toNat

/-- The running sum of a ledger is the sum of its records. -/
def Tallied (ledger : Ledger) : Prop := ledger.charged.toNat = ledger.recorded

theorem recorded_empty : empty.recorded = 0 := rfl

theorem tallied_empty : empty.Tallied := rfl

/-- What is recorded is the sum over the map that the records stand for. -/
theorem recorded_eq_sum (ledger : Ledger) : ledger.recorded = Charges.sum ledger.records.get? :=
  Keyed.sumOf_eq_finsum _ _

/-- No record is larger than all records together. -/
theorem owed_get?_le (ledger : Ledger) (key : ObjectKey) :
    owed (ledger.records.get? key) ≤ ledger.recorded := by
  have herase : (ledger.records.erase key).sumOf UInt64.toNat + owed (ledger.records.get? key) =
      ledger.recorded := ledger.records.sumOf_erase key UInt64.toNat
  omega

/-- A new charge comes in, and what stood under its key goes out and is owed. -/
theorem recorded_charge (ledger : Ledger) (key : ObjectKey) (bytes : UInt64) :
    (ledger.charge key bytes).2.recorded + owed (ledger.charge key bytes).1 =
      ledger.recorded + bytes.toNat :=
  Keyed.sumOf_insert _ _ _ _

/-- A strike takes out what it owes. -/
theorem recorded_strike (ledger : Ledger) (key : ObjectKey) :
    (ledger.strike key).2.recorded + owed (ledger.strike key).1 = ledger.recorded := by
  rw [strike]
  split
  · rfl
  · next h =>
    have herase := ledger.records.sumOf_erase key UInt64.toNat
    rw [h] at herase
    exact herase

/-- The running sum follows a charge that leaves the records together below the largest word. -/
theorem Tallied.charge_of_lt {ledger : Ledger} (h : ledger.Tallied) {key : ObjectKey}
    {bytes : UInt64} (hfits : (ledger.charge key bytes).2.recorded < UInt64.size) :
    (ledger.charge key bytes).2.Tallied := by
  have hrecorded := ledger.recorded_charge key bytes
  have hold : owed (ledger.charge key bytes).1 ≤ ledger.recorded := ledger.owed_get?_le key
  rw [Tallied] at h ⊢
  have hsum : (ledger.charge key bytes).2.charged.toNat =
      ledger.charged.toNat - owed (ledger.charge key bytes).1 + bytes.toNat := by
    have hadd : ∀ a : UInt64, a.toNat = ledger.charged.toNat - owed (ledger.charge key bytes).1 →
        (a + bytes).toNat = a.toNat + bytes.toNat := by
      intro a ha
      rw [UInt64.toNat_add, Nat.mod_eq_of_lt]
      exact Nat.lt_of_le_of_lt (by omega) hfits
    simp only [Ledger.charge] at hadd ⊢
    split
    · next hstale =>
      -- the old charge is taken off first, so the sum never passes the ceiling on its way
      rw [hstale, owed_some] at hadd ⊢
      rw [hadd _ (toNat_saturatingSub _ _), toNat_saturatingSub]
    · next hstale =>
      rw [hstale, owed_none, Nat.sub_zero] at hadd ⊢
      exact hadd _ rfl
  omega

/-- The word keeps counting right, as long as the sum fits it. -/
theorem Tallied.charge {ledger : Ledger} (h : ledger.Tallied) (key : ObjectKey) {bytes : UInt64}
    (hfits : ledger.recorded + bytes.toNat < UInt64.size) :
    (ledger.charge key bytes).2.Tallied := by
  have hrecorded := ledger.recorded_charge key bytes
  exact h.charge_of_lt (by omega)

/-- A strike never leads it astray. -/
theorem Tallied.strike {ledger : Ledger} (h : ledger.Tallied) (key : ObjectKey) :
    (ledger.strike key).2.Tallied := by
  have hrecorded := ledger.recorded_strike key
  rw [Tallied] at h ⊢
  rw [Ledger.strike] at hrecorded ⊢
  split at hrecorded
  · exact h
  · simp only [owed_some] at hrecorded ⊢
    rw [toNat_saturatingSub]
    omega

/-- Notes on devices leave the records alone. -/
theorem recorded_noteDevice? (ledger : Ledger) (key : ObjectKey) (device : Option UInt32) :
    (Holding.noteDevice? ledger key device).recorded = ledger.recorded := by
  cases device <;> rfl

/-- An attribution moves no bytes. -/
theorem Tallied.noteDevice? {ledger : Ledger} (h : ledger.Tallied) (key : ObjectKey)
    (device : Option UInt32) : (Holding.noteDevice? ledger key device).Tallied := by
  cases device <;> exact h

end Ledger

/-! ## Settlements

A settlement says what an answer of the driver comes to: a charge, a strike, an attribution, a
question, or nothing. Carrying it out is a change of the ledger and, if that owes something, a
release; the lemmas here tell the two apart, since other threads may come in between. -/

/-- The reserved bytes that a settlement disposes of. -/
def Settlement.inHand : Settlement → ℕ
  | .refund bytes => bytes.toNat
  | .charge _ bytes => bytes.toNat
  | _ => 0

namespace Ledger

/-- The half of a settlement that works on the ledger: what the budget is owed after it, and the
ledger. -/
def book (ledger : Ledger) : Settlement → Option UInt64 × Ledger
  | .nothing => (none, ledger)
  | .refund bytes => (some bytes, ledger)
  | .charge key bytes => ledger.charge key bytes
  | .showTotals => (none, ledger)
  | .showFigures _ => (none, ledger)
  | .strike key => (ledger.forget key).2.strike key
  | .newDevice key device => (none, Holding.noteDevice? ledger key device)
  | .newChild key parent => (none, Holding.noteDevice? ledger key (ledger.deviceOf parent))

/-- **Booking neither makes nor loses bytes**: what was recorded or in hand is recorded or owed. -/
theorem recorded_book (ledger : Ledger) (settlement : Settlement) :
    (ledger.book settlement).2.recorded + owed (ledger.book settlement).1 =
      ledger.recorded + settlement.inHand := by
  cases settlement with
  | nothing => rfl
  | refund bytes => rfl
  | charge key bytes => exact ledger.recorded_charge key bytes
  | showTotals => rfl
  | showFigures list => rfl
  | strike key => exact (ledger.forget key).2.recorded_strike key
  | newDevice key device => exact ledger.recorded_noteDevice? key device
  | newChild key parent => exact ledger.recorded_noteDevice? key _

/-- Every settlement leaves a ledger that counts right. -/
theorem Tallied.book {ledger : Ledger} (h : ledger.Tallied) {settlement : Settlement}
    (hfits : ledger.recorded + settlement.inHand < UInt64.size) :
    (ledger.book settlement).2.Tallied := by
  cases settlement with
  | nothing => exact h
  | refund bytes => exact h
  | charge key bytes => exact h.charge key hfits
  | showTotals => exact h
  | showFigures list => exact h
  | strike key =>
    have hforget : (ledger.forget key).2.Tallied := h
    exact hforget.strike key
  | newDevice key device => exact h.noteDevice? key device
  | newChild key parent => exact h.noteDevice? key _

/-! ### What booking changes

The two tables of a ledger as functions of their keys. A settlement changes them at one key at most,
and never both in different places. -/

variable (ledger : Ledger) (key : ObjectKey)

/-- A charge writes the record of its key. -/
theorem records_book_charge (bytes : UInt64) :
    (ledger.book (.charge key bytes)).2.records.get? =
      Function.update ledger.records.get? key (some bytes) := by
  funext other
  rw [Function.update_apply]
  exact ledger.records_get?_charge key other bytes

theorem records_strike :
    (ledger.strike key).2.records.get? = Function.update ledger.records.get? key none := by
  funext other
  rw [Function.update_apply]
  exact ledger.records_get?_strike key other

theorem records_book_strike :
    (ledger.book (.strike key)).2.records.get? = Function.update ledger.records.get? key none :=
  (ledger.forget key).2.records_strike key

/-- What is forgotten belongs to no device any more. -/
theorem devices_forget :
    (ledger.forget key).2.devices.get? = Function.update ledger.devices.get? key none := by
  funext other
  rw [Function.update_apply]
  exact Keyed.get?_erase _ _ _

/-- Striking a record alone leaves the attributions. -/
theorem devices_strike : (ledger.strike key).2.devices = ledger.devices := by
  rw [strike]
  split <;> rfl

theorem devices_book_strike :
    (ledger.book (.strike key)).2.devices.get? = Function.update ledger.devices.get? key none := by
  change ((ledger.forget key).2.strike key).2.devices.get? = _
  rw [devices_strike, devices_forget]

/-- Attributions leave the records alone. -/
theorem records_noteDevice? (device : Option UInt32) :
    (Holding.noteDevice? ledger key device).records = ledger.records := by
  cases device <;> rfl

/-- A device is noted under its key, in place of any other. -/
theorem devices_noteDevice (device : UInt32) :
    (ledger.noteDevice key device).devices.get? =
      Function.update ledger.devices.get? key (some device) := by
  funext other
  rw [Function.update_apply]
  exact Keyed.get?_insert _ _ _ _

end Ledger

namespace Holding

/-- A settlement is its booking followed by the release of what is owed then. -/
theorem settle_eq (held : Holding) (alive : Int32 → Bool) (args : UInt64) (space : Space)
    (settlement : Settlement) :
    (held.settle alive args space settlement).1 =
      ⟨giveBack held.budget (held.account.ledger.book settlement).1,
        { held.account with ledger := (held.account.ledger.book settlement).2 }⟩ := by
  cases settlement <;> rfl

theorem total_settle (held : Holding) (alive : Int32 → Bool) (args : UInt64) (space : Space)
    (settlement : Settlement) :
    (held.settle alive args space settlement).1.budget.total = held.budget.total := by
  rw [settle_eq]
  exact total_giveBack _ _

/-- What is free and what is recorded fit below the ceiling. -/
def Covered (held : Holding) : Prop :=
  held.budget.free.toNat + held.account.ledger.recorded ≤ held.budget.total.toNat

/-- Carrying a settlement out adds to the free and the recorded bytes what it had in hand. -/
theorem balance_settle {held : Holding} {settlement : Settlement}
    (h : held.budget.free.toNat + held.account.ledger.recorded + settlement.inHand ≤
      held.budget.total.toNat) (alive : Int32 → Bool) (args : UInt64) (space : Space) :
    (held.settle alive args space settlement).1.budget.free.toNat +
        (held.settle alive args space settlement).1.account.ledger.recorded =
      held.budget.free.toNat + held.account.ledger.recorded + settlement.inHand := by
  have hbook := held.account.ledger.recorded_book settlement
  rw [settle_eq]
  have hfree : (giveBack held.budget (held.account.ledger.book settlement).1).free.toNat =
      held.budget.free.toNat + owed (held.account.ledger.book settlement).1 :=
    free_giveBack (by omega)
  simp only at hfree ⊢
  omega

end Holding

end Accounting

end GpuQuota
