import GpuQuota.Device.Library

/-!
# The device of a minor number

A monitor is told a minor number and tunes the device that `Library.gpuOfMinor` gives for it. The
right one is the device of lowest index that reports the number, and where no device reports it,
there is none (`Library.Right`).

* `Library.indexOf?_eq_some_iff`, `Library.indexOf?_eq_none_iff`: the search by minor number finds
  the lowest index that reports it, if there is one.
* `Library.gpuOfMinor_of_not_found`: where nothing is found, the device whose index is the number is
  taken instead.
* `Library.right_gpuOfMinor_iff`: when the answer is the right one.
* `Library.not_right_gpuOfMinor`: it is not always.
-/

namespace GpuQuota.Device

namespace Library

/-- The device of an index reports a minor number. -/
def Reports (library : Library) (index minor : UInt32) : Prop :=
  ∃ gpu, library.gpu index = .ok gpu ∧ gpu.minor = .ok minor

/-- The answer that a minor number is to get from a library of so many devices. -/
inductive Right (library : Library) (count minor : UInt32) : Except DeviceFault Gpu → Prop where
  /-- The device of lowest index that reports it. -/
  | found {index : UInt32} {gpu : Gpu} : index < count → library.gpu index = .ok gpu →
      gpu.minor = .ok minor → (∀ lower < index, ¬ library.Reports lower minor) →
      Right library count minor (.ok gpu)
  /-- No device reports it. -/
  | absent : (∀ index < count, ¬ library.Reports index minor) →
      Right library count minor (.error (.deviceNotFound minor))

variable {library : Library} {count minor : UInt32}

/-! ## The search

The search goes from index to index as words, and ends before they wrap, since the count is a word.
-/

/-- The program reads the number that a device reports. -/
theorem minorAt?_eq_some_iff (h : library.provides minorEntry = true) {index : UInt32} :
    library.minorAt? index = some minor ↔ library.Reports index minor := by
  rw [minorAt?, Reports]
  rcases library.gpu index with code | gpu
  · simp
  · simp only [h, if_true, Except.ok.injEq, exists_eq_left']
    cases gpu.minor <;> simp [Except.toOption]

theorem toNat_add_one {index : UInt32} (h : index.toNat + 1 < UInt32.size) :
    (index + 1).toNat = index.toNat + 1 := by
  rw [UInt32.toNat_add, UInt32.toNat_one, Nat.mod_eq_of_lt h]

/-- What is found lies within what was searched. -/
theorem lt_of_searchFrom? {start index : UInt32} {left : Nat}
    (hleft : start.toNat + left ≤ UInt32.size)
    (h : library.searchFrom? minor start left = some index) :
    index.toNat < start.toNat + left := by
  induction left generalizing start with
  | zero => cases h
  | succ left ih =>
    rw [searchFrom?] at h
    split at h
    · obtain rfl := Option.some.inj h
      omega
    · cases left with
      | zero => cases h
      | succ left =>
        have hnext : (start + 1).toNat = start.toNat + 1 := toNat_add_one (by omega)
        have hlt := ih (by omega) h
        omega

/-- A search that finds nothing has passed no index that reports the number. -/
theorem minorAt?_of_searchFrom?_eq_none {start index : UInt32} {left : Nat}
    (h : library.searchFrom? minor start left = none) (hstart : start.toNat ≤ index.toNat)
    (hindex : index.toNat < start.toNat + left) : library.minorAt? index ≠ some minor := by
  induction left generalizing start with
  | zero => omega
  | succ left ih =>
    rw [searchFrom?] at h
    split at h
    · cases h
    · next hminor =>
      rcases Nat.eq_or_lt_of_le hstart with heq | hlt
      · exact UInt32.toNat_inj.1 heq ▸ hminor
      · have hbound : index.toNat < UInt32.size := index.toNat_lt
        have hnext : (start + 1).toNat = start.toNat + 1 := toNat_add_one (by omega)
        exact ih h (by omega) (by omega)

theorem lt_of_indexOf? {index : UInt32} (h : library.indexOf? count minor = some index) :
    index < count := by
  have hcount : (0 : UInt32).toNat + count.toNat ≤ UInt32.size := by
    rw [UInt32.toNat_zero, Nat.zero_add]
    exact Nat.le_of_lt count.toNat_lt
  have hlt := lt_of_searchFrom? hcount h
  rw [UInt32.toNat_zero, Nat.zero_add] at hlt
  exact UInt32.lt_iff_toNat_lt.2 hlt

/-- Nothing is found if and only if no device below the count reports the number. -/
theorem indexOf?_eq_none_iff (h : library.provides minorEntry = true) :
    library.indexOf? count minor = none ↔ ∀ index < count, ¬ library.Reports index minor := by
  constructor
  · intro hnone index hindex hreports
    have hlt : index.toNat < (0 : UInt32).toNat + count.toNat := by
      rw [UInt32.toNat_zero, Nat.zero_add]
      exact UInt32.lt_iff_toNat_lt.1 hindex
    exact minorAt?_of_searchFrom?_eq_none hnone (Nat.zero_le _) hlt
      ((minorAt?_eq_some_iff h).2 hreports)
  · intro hreports
    rw [Option.eq_none_iff_forall_ne_some]
    intro index hindex
    exact hreports index (lt_of_indexOf? hindex)
      ((minorAt?_eq_some_iff h).1 (minorAt?_of_indexOf? hindex))

/-- **What is found is the lowest index below the count that reports the number.** -/
theorem indexOf?_eq_some_iff (h : library.provides minorEntry = true) {index : UInt32} :
    library.indexOf? count minor = some index ↔
      index < count ∧ library.Reports index minor ∧
        ∀ lower < index, ¬ library.Reports lower minor := by
  constructor
  · intro hfound
    refine ⟨lt_of_indexOf? hfound, (minorAt?_eq_some_iff h).1 (minorAt?_of_indexOf? hfound), ?_⟩
    intro lower hlower hreports
    exact indexOf?_least hfound hlower ((minorAt?_eq_some_iff h).2 hreports)
  · rintro ⟨hindex, hreports, hleast⟩
    rcases hsearch : library.indexOf? count minor with _ | found
    · exact absurd hreports ((indexOf?_eq_none_iff h).1 hsearch index hindex)
    · -- of two lowest indices neither is below the other
      have hfound := (minorAt?_eq_some_iff h).1 (minorAt?_of_indexOf? hsearch)
      have hge : ¬ found < index := fun hlt => hleast found hlt hfound
      have hle : ¬ index < found := fun hlt =>
        indexOf?_least hsearch hlt ((minorAt?_eq_some_iff h).2 hreports)
      rw [UInt32.lt_iff_toNat_lt] at hge hle
      exact congrArg some (UInt32.toNat_inj.1 (by omega))

/-! ## The device

Where the search finds nothing the number itself is taken as an index. That is right for a library
which cannot report numbers, and wrong for one that has reported others. -/

/-- Where numbers are reported, the device is looked for at the index found, or at the number. -/
theorem indexFor_eq (hreports : library.reportsMinors = true)
    (hcount : library.count = .ok count) :
    library.indexFor minor = .ok ((library.indexOf? count minor).getD minor) := by
  rw [indexFor, if_pos hreports, hcount]
  rfl

/-- Where a device reports the number, the first one that does is taken. -/
theorem gpuOfMinor_of_found (hreports : library.reportsMinors = true)
    (hcount : library.count = .ok count) {index : UInt32}
    (hindex : library.indexOf? count minor = some index) {gpu : Gpu}
    (hgpu : library.gpu index = .ok gpu) : library.gpuOfMinor minor = .ok gpu := by
  rw [gpuOfMinor, indexFor_eq hreports hcount, hindex]
  dsimp only [Option.getD_some]
  rw [hgpu]
  rfl

/-- Where no device reports it, the number is taken for the index. -/
theorem gpuOfMinor_of_not_found (hreports : library.reportsMinors = true)
    (hcount : library.count = .ok count) (hnone : library.indexOf? count minor = none) :
    library.gpuOfMinor minor = (library.gpu minor).mapError fun _ => .deviceNotFound minor := by
  rw [gpuOfMinor, indexFor_eq hreports hcount, hnone]
  rfl

theorem provides_minorEntry (h : library.reportsMinors = true) :
    library.provides minorEntry = true :=
  (Bool.and_eq_true_iff.1 h).2

/-- **When a minor number gets the right device.** In a library that counts its devices and has them
report their numbers, the answer for a number is the device of lowest index that reports it, or that
there is none, if and only if some device reports the number or there is no device whose index it
is. Otherwise the device of that index is taken, and that is the only way in which a device can be
taken that does not report the number. -/
theorem right_gpuOfMinor_iff (hreports : library.reportsMinors = true)
    (hcount : library.count = .ok count) :
    (library.Right count minor (library.gpuOfMinor minor) ↔
      (∃ index < count, library.Reports index minor) ∨ ∃ code, library.gpu minor = .error code) ∧
    ∀ gpu, library.gpuOfMinor minor = .ok gpu → gpu.minor ≠ .ok minor →
      (∀ index < count, ¬ library.Reports index minor) ∧ library.gpu minor = .ok gpu := by
  have hminors := provides_minorEntry hreports
  rcases hsearch : library.indexOf? count minor with _ | index
  · -- no device reports the number
    have hnone := (indexOf?_eq_none_iff hminors).1 hsearch
    rw [gpuOfMinor_of_not_found hreports hcount hsearch]
    refine ⟨?_, ?_⟩
    · rcases hgpu : library.gpu minor with code | gpu
      · exact ⟨fun _ => .inr ⟨code, rfl⟩, fun _ => .absent hnone⟩
      · constructor
        · intro hright
          obtain ⟨hindex, hat, hminor, -⟩ := hright
          exact absurd ⟨_, hat, hminor⟩ (hnone _ hindex)
        · rintro (⟨index, hindex, hat⟩ | ⟨code, hcode⟩)
          · exact absurd hat (hnone index hindex)
          · cases hcode
    · intro gpu hgpu _
      refine ⟨hnone, ?_⟩
      rcases hanswer : library.gpu minor with code | other
      · rw [hanswer] at hgpu
        cases hgpu
      · rw [hanswer] at hgpu
        exact congrArg Except.ok (Except.ok.inj hgpu)
  · -- the lowest index that reports it was found
    obtain ⟨hindex, ⟨gpu, hgpu, hminor⟩, hleast⟩ := (indexOf?_eq_some_iff hminors).1 hsearch
    rw [gpuOfMinor_of_found hreports hcount hsearch hgpu]
    refine ⟨?_, ?_⟩
    · exact ⟨fun _ => .inl ⟨index, hindex, gpu, hgpu, hminor⟩,
        fun _ => .found hindex hgpu hminor hleast⟩
    · intro other hother hne
      obtain rfl := Except.ok.inj hother
      exact absurd hminor hne

/-- A device of which only its number is known. -/
def numbered (minor : UInt32) : Gpu where
  minor := .ok minor
  current := .error ReturnCode.notSupported
  highest := .error ReturnCode.notSupported
  samples _ _ := .error ReturnCode.notSupported
  memory := .error ReturnCode.notSupported
  name := .error ReturnCode.notSupported
  uuid := .error ReturnCode.notSupported
  clock := .error ReturnCode.notSupported
  boost := .error ReturnCode.notSupported

/-- A library of two devices, whose numbers are 2 and 3. -/
def pair : Library where
  provides _ := true
  setUp := .ok ()
  count := .ok 2
  gpu index := if index = 0 then .ok (numbered 2) else if index = 1 then .ok (numbered 3)
    else .error ReturnCode.notFound

/-- Number 3 of the two gets the second device. -/
theorem right_gpuOfMinor_pair :
    pair.reportsMinors = true ∧ pair.count = .ok 2 ∧ pair.Right 2 3 (pair.gpuOfMinor 3) := by
  have hreports : pair.reportsMinors = true := rfl
  have hcount : pair.count = .ok 2 := rfl
  have hsecond : ∃ index < 2, pair.Reports index 3 := ⟨1, by decide, numbered 3, rfl, rfl⟩
  exact ⟨hreports, hcount, (right_gpuOfMinor_iff hreports hcount).1.2 (.inl hsecond)⟩

/-- Although all devices can be asked for their numbers, a device of another number may be taken:
number 0 of the two is no device's, and gets the first of them. -/
theorem not_right_gpuOfMinor :
    ¬ ∀ (library : Library) (count minor : UInt32), library.reportsMinors = true →
      library.count = .ok count → (∀ index < count, ∃ other, library.Reports index other) →
      library.Right count minor (library.gpuOfMinor minor) ∧
        ∀ gpu other, library.gpuOfMinor minor = .ok gpu → gpu.minor = .ok other →
          other = minor := by
  intro h
  have hanswer : ∀ index < 2, ∃ other, pair.Reports index other := by
    intro index hindex
    rw [UInt32.lt_iff_toNat_lt, show (2 : UInt32).toNat = 2 from rfl] at hindex
    by_cases hzero : index = 0
    · exact ⟨2, numbered 2, if_pos hzero, rfl⟩
    · have hone : index = 1 := by
        rw [← UInt32.toNat_inj] at hzero ⊢
        simp only [UInt32.toNat_zero, UInt32.toNat_one] at hzero ⊢
        omega
      exact ⟨3, numbered 3, by rw [hone]; rfl, rfl⟩
  obtain ⟨-, hsame⟩ := h pair 2 0 rfl rfl hanswer
  exact absurd (hsame (numbered 2) 2 rfl rfl) (by decide)

end Library

end GpuQuota.Device
