import GpuQuota.Proofs.Accounting.Sheet
import Mathlib.Data.List.Infix

/-!
# A ledger as two maps

A ledger keeps its entries in lists and carries the sum of its charges along, and takes from that
sum by subtractions that stop at zero. Its operations are those of a sheet, which is a map of
charges and a map of devices and nothing else (`Ledger.sheet`).

* `Ledger.sheet_run`, `Ledger.answers_eq`: a run of operations does to the ledger what it does to
  the sheet, and answers the same.
* `Ledger.tallied_run`: while the charges together are a word, the running sum is what they sum up
  to.
* `Sheet.AgreeAt.run`: what operations under other roots do is not seen under a root.
* `Ledger.run_as_maps` puts this together.
-/

namespace GpuQuota.Accounting

/-! ## Operations

The two sides run the same operations, and each answers with what it took the place of. -/

/-- An operation on the charges or on the devices of a ledger. -/
inductive Ledger.Operation where
  /-- an allocation of so many bytes is recorded -/
  | charge (key : ObjectKey) (bytes : UInt64)
  /-- an allocation is removed -/
  | strike (key : ObjectKey)
  /-- an object is found to belong to a device -/
  | noteDevice (key : ObjectKey) (device : UInt32)
  /-- what is known of an object's device is removed -/
  | forget (key : ObjectKey)
  deriving DecidableEq

/-- What it answers: what it displaces. -/
inductive Ledger.Displaced where
  /-- the charge that it replaces or removes -/
  | charged (bytes : Option UInt64)
  /-- the device that it removes -/
  | belonged (device : Option UInt32)
  /-- the device that is replaced is not told -/
  | nothing
  deriving DecidableEq

namespace Ledger

namespace Operation

/-- The key that an operation is about. -/
def key : Operation → ObjectKey
  | .charge key _ => key
  | .strike key => key
  | .noteDevice key _ => key
  | .forget key => key

/-- Whether it is about charges, and not about devices. -/
def onCharges : Operation → Bool
  | .charge _ _ => true
  | .strike _ => true
  | .noteDevice _ _ => false
  | .forget _ => false

end Operation

/-- What an operation answers, and the ledger after it. -/
def perform (ledger : Ledger) : Operation → Displaced × Ledger
  | .charge key bytes => (.charged (ledger.charge key bytes).1, (ledger.charge key bytes).2)
  | .strike key => (.charged (ledger.strike key).1, (ledger.strike key).2)
  | .noteDevice key device => (.nothing, ledger.noteDevice key device)
  | .forget key => (.belonged (ledger.forget key).1, (ledger.forget key).2)

/-- The ledger after some operations, the first one first. -/
def run (ledger : Ledger) (operations : List Operation) : Ledger :=
  operations.foldl (fun ledger operation => (ledger.perform operation).2) ledger

/-- The answers to operations, the first one first. -/
def answers (ledger : Ledger) : List Operation → List Displaced
  | [] => []
  | operation :: later => (ledger.perform operation).1 :: (ledger.perform operation).2.answers later

/-- What a ledger says, written down. -/
def sheet (ledger : Ledger) : Sheet := ⟨ledger.records.get?, ledger.devices.get?⟩

end Ledger

namespace Sheet

open Ledger (Operation Displaced)

/-- An operation on two maps, of which it changes one, under its key. -/
def perform (sheet : Sheet) : Operation → Displaced × Sheet
  | .charge key bytes =>
    (.charged (sheet.charges key),
      { sheet with charges := Function.update sheet.charges key (some bytes) })
  | .strike key =>
    (.charged (sheet.charges key),
      { sheet with charges := Function.update sheet.charges key none })
  | .noteDevice key device =>
    (.nothing, { sheet with devices := Function.update sheet.devices key (some device) })
  | .forget key =>
    (.belonged (sheet.devices key),
      { sheet with devices := Function.update sheet.devices key none })

/-- The sheet after operations, the first one first. -/
def run (sheet : Sheet) (operations : List Operation) : Sheet :=
  operations.foldl (fun sheet operation => (sheet.perform operation).2) sheet

/-- The answers to operations on a sheet. -/
def answers (sheet : Sheet) : List Operation → List Displaced
  | [] => []
  | operation :: later => (sheet.perform operation).1 :: (sheet.perform operation).2.answers later

/-- Two sheets say the same under a root. -/
def AgreeAt (root : UInt32) (sheet other : Sheet) : Prop :=
  ∀ key, key.root = root →
    sheet.charges key = other.charges key ∧ sheet.devices key = other.devices key

end Sheet

/-! ## One operation

Each entry of a ledger is the one of the sheet, and only the running sum is beyond the sheet: it is
right as long as it does not stop at zero or at its greatest. -/

namespace Ledger

variable {ledger other : Ledger} (operation : Operation)

/-- Noting a device changes one entry of the devices. -/
theorem sheet_noteDevice (ledger : Ledger) (key : ObjectKey) (device : UInt32) :
    (ledger.noteDevice key device).sheet =
      { ledger.sheet with devices := Function.update ledger.devices.get? key (some device) } := by
  rw [sheet, devices_noteDevice]
  rfl

theorem fst_strike (ledger : Ledger) (key : ObjectKey) :
    (ledger.strike key).1 = ledger.records.get? key := by
  rw [strike]
  split <;> simp_all

/-- An operation does to the sheet what it does to the ledger. -/
theorem sheet_perform (ledger : Ledger) :
    (ledger.perform operation).2.sheet = (ledger.sheet.perform operation).2 := by
  cases operation with
  | charge key bytes =>
    have hrecords := ledger.records_book_charge key bytes
    exact congrArg (fun charges => (⟨charges, ledger.devices.get?⟩ : Sheet)) hrecords
  | strike key => simp only [perform, sheet, Sheet.perform, records_strike, devices_strike]
  | noteDevice key device => exact sheet_noteDevice ledger key device
  | forget key =>
    have hdevices := ledger.devices_forget key
    exact congrArg (fun devices => (⟨ledger.records.get?, devices⟩ : Sheet)) hdevices

/-- **A ledger answers as its sheet does.** -/
theorem answer_perform (ledger : Ledger) :
    (ledger.perform operation).1 = (ledger.sheet.perform operation).1 := by
  cases operation with
  | charge key bytes => rfl
  | strike key => exact congrArg Displaced.charged (fst_strike ledger key)
  | noteDevice key device => rfl
  | forget key => rfl

/-- A running sum stays right while the charges together are a word. -/
theorem Tallied.perform (h : ledger.Tallied) {operation : Operation}
    (hfits : (ledger.perform operation).2.recorded < UInt64.size) :
    (ledger.perform operation).2.Tallied := by
  cases operation with
  | charge key bytes => exact h.charge_of_lt hfits
  | strike key => exact h.strike key
  | noteDevice key device => exact h
  | forget key => exact h

/-- A charge that is replaced or removed is no larger than the running sum. -/
theorem Tallied.le_charged (h : ledger.Tallied) {operation : Operation} {bytes : UInt64}
    (hanswer : (ledger.perform operation).1 = .charged (some bytes)) : bytes ≤ ledger.charged := by
  have hstood : ledger.records.get? operation.key = some bytes := by
    rw [answer_perform] at hanswer
    cases operation with
    | charge key _ => exact Displaced.charged.inj hanswer
    | strike key => exact Displaced.charged.inj hanswer
    | noteDevice key _ => cases hanswer
    | forget key => cases hanswer
  have hle := ledger.owed_get?_le operation.key
  rw [hstood, owed_some, ← h] at hle
  exact UInt64.le_iff_toNat_le.2 hle

/-- An operation on charges leaves the devices alone. -/
theorem devices_perform (ledger : Ledger) {operation : Operation} (h : operation.onCharges = true) :
    (ledger.perform operation).2.devices = ledger.devices := by
  cases operation with
  | charge key bytes => rfl
  | strike key => exact ledger.devices_strike key
  | noteDevice key device => cases h
  | forget key => cases h

/-- An operation on devices leaves the charges and their sum alone. -/
theorem records_perform (ledger : Ledger) {operation : Operation}
    (h : operation.onCharges = false) :
    (ledger.perform operation).2.records = ledger.records ∧
      (ledger.perform operation).2.charged = ledger.charged := by
  cases operation with
  | charge key bytes => cases h
  | strike key => cases h
  | noteDevice key device => exact ⟨rfl, rfl⟩
  | forget key => exact ⟨rfl, rfl⟩

/-- What an operation does to the charges depends on nothing else. -/
theorem records_perform_congr (hrecords : ledger.records = other.records)
    (hcharged : ledger.charged = other.charged) :
    (ledger.perform operation).2.records = (other.perform operation).2.records ∧
      (ledger.perform operation).2.charged = (other.perform operation).2.charged := by
  cases operation with
  | charge key bytes => simp only [perform, charge, hrecords, hcharged, and_self]
  | strike key =>
    simp only [perform, strike, hrecords, hcharged]
    split <;> simp [hrecords, hcharged]
  | noteDevice key device => exact ⟨hrecords, hcharged⟩
  | forget key => exact ⟨hrecords, hcharged⟩

/-- What an operation does to the devices depends on nothing else. -/
theorem devices_perform_congr (h : ledger.devices = other.devices) :
    (ledger.perform operation).2.devices = (other.perform operation).2.devices := by
  cases operation with
  | charge key bytes => exact h
  | strike key => exact (ledger.devices_strike key).trans (h.trans (other.devices_strike key).symm)
  | noteDevice key device => exact congrArg (Keyed.insert · key device) h
  | forget key => exact congrArg (Keyed.erase · key) h

end Ledger

/-! ## Runs

Roots do not meet: an operation under another root is not seen, and one under the same root is seen
as it would be without the others. -/

namespace Sheet

open Ledger (Operation)

variable {root : UInt32} {sheet other : Sheet}

/-- Sheets that agree under a root agree after the same operation. -/
theorem AgreeAt.perform (h : AgreeAt root sheet other) (operation : Operation) :
    AgreeAt root (sheet.perform operation).2 (other.perform operation).2 := by
  intro key hkey
  obtain ⟨hcharges, hdevices⟩ := h key hkey
  cases operation <;> simp only [Sheet.perform, Function.update_apply, hcharges, hdevices, and_self]

/-- What is done under another key is not seen. -/
theorem perform_of_ne (sheet : Sheet) {operation : Operation} {key : ObjectKey}
    (h : key ≠ operation.key) :
    (sheet.perform operation).2.charges key = sheet.charges key ∧
      (sheet.perform operation).2.devices key = sheet.devices key := by
  cases operation with
  | charge _ _ => exact ⟨Function.update_of_ne h _ _, rfl⟩
  | strike _ => exact ⟨Function.update_of_ne h _ _, rfl⟩
  | noteDevice _ _ => exact ⟨rfl, Function.update_of_ne h _ _⟩
  | forget _ => exact ⟨rfl, Function.update_of_ne h _ _⟩

/-- An operation under another root is not seen. -/
theorem AgreeAt.perform_of_ne (h : AgreeAt root sheet other) {operation : Operation}
    (hroot : operation.key.root ≠ root) : AgreeAt root sheet (other.perform operation).2 := by
  intro key hkey
  have hne : key ≠ operation.key := by
    rintro rfl
    exact hroot hkey
  obtain ⟨hcharges, hdevices⟩ := other.perform_of_ne hne
  rw [hcharges, hdevices]
  exact h key hkey

/-- Under a root, a run shows what the operations under that root do. -/
theorem AgreeAt.run (h : AgreeAt root sheet other) (operations : List Operation) :
    AgreeAt root (sheet.run (operations.filter fun operation => operation.key.root = root))
      (other.run operations) := by
  induction operations generalizing sheet other with
  | nil => exact h
  | cons operation later ih =>
    by_cases hroot : operation.key.root = root
    · rw [List.filter_cons_of_pos (by simpa using hroot)]
      exact ih (h.perform operation)
    · rw [List.filter_cons_of_neg (by simpa using hroot)]
      exact ih (h.perform_of_ne hroot)

end Sheet

namespace Ledger

variable {ledger other : Ledger} (operations : List Operation)

/-- A run does to the ledger what it does to the sheet. -/
theorem sheet_run (ledger : Ledger) :
    (ledger.run operations).sheet = ledger.sheet.run operations := by
  induction operations generalizing ledger with
  | nil => rfl
  | cons operation later ih =>
    exact (ih _).trans (congrArg (Sheet.run · later) (sheet_perform operation ledger))

/-- A run answers on the ledger as on the sheet. -/
theorem answers_eq (ledger : Ledger) :
    ledger.answers operations = ledger.sheet.answers operations := by
  induction operations generalizing ledger with
  | nil => rfl
  | cons operation later ih =>
    rw [answers, Sheet.answers, ih, answer_perform, sheet_perform]

/-- Of the operations, those on charges make the charges. -/
theorem records_run (hrecords : ledger.records = other.records)
    (hcharged : ledger.charged = other.charged) :
    (ledger.run (operations.filter Operation.onCharges)).records = (other.run operations).records ∧
      (ledger.run (operations.filter Operation.onCharges)).charged =
        (other.run operations).charged := by
  induction operations generalizing ledger other with
  | nil => exact ⟨hrecords, hcharged⟩
  | cons operation later ih =>
    cases hkind : operation.onCharges with
    | true =>
      obtain ⟨hrecords, hcharged⟩ := records_perform_congr operation hrecords hcharged
      rw [List.filter_cons_of_pos hkind]
      exact ih hrecords hcharged
    | false =>
      obtain ⟨hsame, htotal⟩ := records_perform other hkind
      rw [List.filter_cons_of_neg (Bool.not_eq_true _ ▸ hkind)]
      exact ih (hrecords.trans hsame.symm) (hcharged.trans htotal.symm)

/-- The others make the devices. -/
theorem devices_run (h : ledger.devices = other.devices) :
    (ledger.run (operations.filter (!·.onCharges))).devices = (other.run operations).devices := by
  induction operations generalizing ledger other with
  | nil => exact h
  | cons operation later ih =>
    cases hkind : operation.onCharges with
    | true =>
      rw [List.filter_cons_of_neg (by simp [hkind])]
      exact ih (h.trans (devices_perform other hkind).symm)
    | false =>
      rw [List.filter_cons_of_pos (by simp [hkind])]
      exact ih (devices_perform_congr operation h)

theorem run_concat (ledger : Ledger) (before : List Operation) (operation : Operation) :
    ledger.run (before ++ [operation]) = ((ledger.run before).perform operation).2 := by
  rw [run, run, List.foldl_append]
  rfl

/-- What is recorded after a run is what the charges of the sheet sum up to. -/
theorem recorded_run (ledger : Ledger) :
    (ledger.run operations).recorded = (ledger.sheet.run operations).charges.sum := by
  rw [recorded_eq_sum, ← sheet_run]
  rfl

/-- After every operation, the charges together are a word. -/
def StaysWithin (operations : List Operation) : Prop :=
  ∀ before, before <+: operations → (Sheet.blank.run before).charges.sum < UInt64.size

variable {operations}

/-- The bound is on what is recorded after any first operations. -/
theorem staysWithin_iff : StaysWithin operations ↔
    ∀ before ∈ operations.inits, (empty.run before).recorded < UInt64.size := by
  have hrecorded : ∀ before, (empty.run before).recorded = (Sheet.blank.run before).charges.sum :=
    fun before => recorded_run before empty
  simp only [StaysWithin, List.mem_inits, hrecorded]

instance : Decidable (StaysWithin operations) := decidable_of_iff _ staysWithin_iff.symm

theorem StaysWithin.earlier (h : StaysWithin operations) {before : List Operation}
    (hbefore : before <+: operations) : StaysWithin before :=
  fun _ hearlier => h _ (hearlier.trans hbefore)

/-- After a run within the bound the running sum is right. -/
theorem tallied_run (h : StaysWithin operations) : (empty.run operations).Tallied := by
  induction operations using List.reverseRecOn with
  | nil => exact tallied_empty
  | append_singleton before operation ih =>
    have hbefore := ih (h.earlier (List.prefix_append _ _))
    have hfits := h _ List.prefix_rfl
    rw [← show empty.sheet = Sheet.blank from rfl, ← recorded_run, run_concat] at hfits
    rw [run_concat]
    exact hbefore.perform hfits

/-- **A ledger is two maps.** A run of operations on an empty ledger does and answers what it does
and answers on two maps, one for charges and one for devices. While the charges together are a word,
the running sum is exactly what they sum up to, their number is exactly that of the keys with a
charge, and whatever is taken off the running sum is no larger than it. What stands under a root
comes from the operations under that root alone, the charges from the operations on charges alone,
and the devices from the others. -/
theorem run_as_maps (h : StaysWithin operations) :
    ((empty.run operations).sheet = Sheet.blank.run operations ∧
        empty.answers operations = Sheet.blank.answers operations) ∧
      ((empty.run operations).charged.toNat = (Sheet.blank.run operations).charges.sum ∧
        (empty.run operations).count =
          {key | (Sheet.blank.run operations).charges key ≠ none}.ncard) ∧
      (∀ before operation, before ++ [operation] <+: operations → ∀ bytes,
        ((empty.run before).perform operation).1 = .charged (some bytes) →
          bytes ≤ (empty.run before).charged) ∧
      (∀ root, Sheet.AgreeAt root
        (empty.run (operations.filter fun operation => operation.key.root = root)).sheet
        (empty.run operations).sheet) ∧
      ((empty.run (operations.filter Operation.onCharges)).records =
          (empty.run operations).records ∧
        (empty.run (operations.filter Operation.onCharges)).charged =
          (empty.run operations).charged) ∧
      (empty.run (operations.filter (!·.onCharges))).devices = (empty.run operations).devices := by
  have hblank : empty.sheet = Sheet.blank := rfl
  have hsheet : (empty.run operations).sheet = Sheet.blank.run operations :=
    sheet_run operations empty
  refine ⟨⟨hsheet, answers_eq operations empty⟩, ⟨?_, ?_⟩, ?_, ?_,
    records_run operations rfl rfl, devices_run operations rfl⟩
  · rw [tallied_run h, recorded_run, hblank]
  · rw [← hsheet]
    exact Keyed.size_eq_ncard _
  · -- the beginning of a run is a run within the bound, so nothing stops at zero
    intro before operation hbefore bytes hanswer
    have hprefix : before <+: operations := (List.prefix_append _ _).trans hbefore
    exact (tallied_run (h.earlier hprefix)).le_charged hanswer
  · intro root
    rw [sheet_run, sheet_run, hblank]
    exact Sheet.AgreeAt.run (fun _ _ => ⟨rfl, rfl⟩) operations

/-- Two clients use one handle, the first one uses it again, and the second one gives it back
twice. -/
def reusing : List Operation :=
  [.charge ⟨1, 10⟩ 100, .noteDevice ⟨1, 32⟩ 0, .charge ⟨2, 10⟩ 200, .charge ⟨1, 10⟩ 30,
    .strike ⟨2, 10⟩, .strike ⟨2, 10⟩, .forget ⟨1, 32⟩]

/-- A key is charged twice, which displaces its first charge, and struck; a handle is attributed,
and forgotten. -/
theorem run_as_maps_reusing :
    StaysWithin reusing ∧
      (empty.run reusing).charged = 30 ∧
      (empty.run reusing).charged.toNat = (Sheet.blank.run reusing).charges.sum ∧
      Sheet.blank.answers reusing = [.charged none, .nothing, .charged none, .charged (some 100),
        .charged (some 200), .charged none, .belonged (some 0)] ∧
      Sheet.AgreeAt 1 (empty.run (reusing.filter fun operation => operation.key.root = 1)).sheet
        (empty.run reusing).sheet := by
  have hwithin : StaysWithin reusing := by decide
  obtain ⟨⟨-, hanswers⟩, ⟨htotal, -⟩, -, hroots, -, -⟩ := run_as_maps hwithin
  refine ⟨hwithin, by decide, htotal, ?_, hroots 1⟩
  rw [← hanswers]
  decide

end Ledger

end GpuQuota.Accounting
