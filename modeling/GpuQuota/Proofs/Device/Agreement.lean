import GpuQuota.Device.Summary
import GpuQuota.Proofs.Device.Matching

/-!
# The device that a summary is about

A monitor looks its device up by the entry points that it has bound itself, and the operator's
summary comes from a session of its own, with a search of its own and by the newer entry points.
Where the older and the newer entry point answer alike, both take the same index.

* `Summary.searchFrom?_eq`: the two searches go the same way.
* `Library.indexFor_eq_getD`: what the monitor goes by, also where devices do not report their
  numbers.
* `Summary.index_agrees`: the index in a summary is that of the monitor's device.
-/

namespace GpuQuota.Device

variable {library : Library} {count minor : UInt32}

namespace Summary

theorem minorAt?_of_error {index : UInt32} {code : ReturnCode}
    (h : library.gpu index = .error code) : library.minorAt? index = none := by
  rw [Library.minorAt?, h]

/-- A device reports the number that the summary reads of it. -/
theorem minorAt?_of_ok {index : UInt32} {gpu : Gpu} (h : library.gpu index = .ok gpu) :
    library.minorAt? index = minorOf? library gpu := by
  rw [Library.minorAt?, h]
  rfl

/-- The search of a summary passes over the same devices as that of a monitor, and stops at the same
one. -/
theorem searchFrom?_eq (halike : ∀ index, library.newerGpu index = library.gpu index)
    (start : UInt32) (left : Nat) :
    (searchFrom? library minor start left).map Prod.fst = library.searchFrom? minor start left := by
  induction left generalizing start with
  | zero => rfl
  | succ left ih =>
    rw [searchFrom?, Library.searchFrom?, halike]
    cases hgpu : library.gpu start with
    | error code =>
      rw [minorAt?_of_error hgpu, if_neg (Option.some_ne_none minor).symm]
      exact ih (start + 1)
    | ok gpu =>
      rw [minorAt?_of_ok hgpu]
      dsimp only
      by_cases hfound : minorOf? library gpu = some minor
      · rw [if_pos hfound, if_pos hfound]
        rfl
      · rw [if_neg hfound, if_neg hfound]
        exact ih (start + 1)

end Summary

namespace Library

/-- No device is found where none can report its number. -/
theorem searchFrom?_of_not_provides (h : library.provides minorEntry = false) (start : UInt32)
    (left : Nat) : library.searchFrom? minor start left = none := by
  rw [Option.eq_none_iff_forall_ne_some]
  intro index hfound
  have hminor := minorAt?_of_searchFrom? hfound
  cases hgpu : library.gpu index with
  | error code =>
    rw [Summary.minorAt?_of_error hgpu] at hminor
    cases hminor
  | ok gpu =>
    rw [Summary.minorAt?_of_ok hgpu, Summary.minorOf?, h] at hminor
    cases hminor

/-- In a library that counts its devices, a monitor goes by the index that the search finds, and by
the number itself where it finds none. -/
theorem indexFor_eq_getD (hprovides : library.provides countEntry2 = true)
    (hcount : library.count = .ok count) :
    library.indexFor minor = .ok ((library.indexOf? count minor).getD minor) := by
  cases hminors : library.provides minorEntry with
  | true => exact indexFor_eq (by simp [reportsMinors, hprovides, hminors]) hcount
  | false =>
    rw [indexFor, if_neg (by simp [reportsMinors, hminors]), indexOf?,
      searchFrom?_of_not_provides hminors]
    rfl

theorem gpu_of_gpuOfMinor {gpu : Gpu} {index : UInt32} (hindex : library.indexFor minor = .ok index)
    (h : library.gpuOfMinor minor = .ok gpu) : library.gpu index = .ok gpu := by
  rw [gpuOfMinor, hindex] at h
  cases hgpu : library.gpu index with
  | error code =>
    simp only [hgpu] at h
    cases h
  | ok other =>
    simp only [hgpu] at h
    exact congrArg Except.ok (Except.ok.inj h)

theorem installed_of_load {installed : Installed} (h : (load installed).result = .ok library) :
    fileNames.findSome? installed = some library := by
  unfold load at h
  split at h
  · cases h
  · next other hfound =>
    split at h
    · cases h
    · exact hfound.trans (congrArg some (Except.ok.inj (Session.work_of_result h)))

end Library

namespace Summary

/-- A summary comes from the library of the first file name. -/
theorem ofMinor_of_query {installed : Installed} {summary : Summary}
    (h : (query installed minor).result = .ok summary) :
    ∃ library, Library.fileNames.head?.bind installed = some library ∧
      ofMinor library minor = .ok summary := by
  unfold query at h
  split at h
  · cases h
  · next library hfound =>
    refine ⟨library, hfound, ?_⟩
    split at h
    · exact Session.work_of_result h
    · cases h

/-- The summary has the index that the monitor goes by. -/
theorem indexFor_of_ofMinor (halike : ∀ index, library.newerGpu index = library.gpu index)
    {summary : Summary} (h : ofMinor library minor = .ok summary) :
    library.indexFor minor = .ok summary.index := by
  obtain ⟨hprovides, count, hcount, hindex⟩ := ofMinor_eq_ok h
  rw [Library.indexFor_eq_getD hprovides hcount, Library.indexOf?, ← searchFrom?_eq halike]
  obtain ⟨gpu, hfound⟩ | ⟨hnone, hminor⟩ := hindex
  · rw [hfound]
    rfl
  · rw [hnone, hminor]
    rfl

/-- **A summary is about the monitor's device.** Let the older and the newer entry point for the
device of an index answer alike. Whenever a monitor has got a device for a minor number and a
summary was given for that number, the monitor has looked its device up at the index that stands in
the summary, and that index is the device's. It makes no difference which devices cannot be had or
do not report a number, nor whether any reports this one. -/
theorem index_agrees {installed : Installed} {gpu : Gpu} {summary : Summary}
    (halike : ∀ index, library.newerGpu index = library.gpu index)
    (hload : (Library.load installed).result = .ok library)
    (hgpu : library.gpuOfMinor minor = .ok gpu)
    (hquery : (query installed minor).result = .ok summary) :
    library.indexFor minor = .ok summary.index ∧ library.gpu summary.index = .ok gpu ∧
      library.newerGpu summary.index = .ok gpu := by
  obtain ⟨other, hfirst, hsummary⟩ := ofMinor_of_query hquery
  -- the summary has asked the library of the first name, which a monitor prefers as well
  have hsame : other = library := by
    have hfound := Library.installed_of_load hload
    have hname : installed "libnvidia-ml.so.1" = some other := hfirst
    rw [Library.fileNames, List.findSome?_cons, hname] at hfound
    exact Option.some.inj hfound
  subst hsame
  have hindex := indexFor_of_ofMinor halike hsummary
  have hat := Library.gpu_of_gpuOfMinor hindex hgpu
  exact ⟨hindex, hat, (halike _).trans hat⟩

/-- A device of which only what a summary needs is known, and perhaps its number. -/
def plain (minor : Answer UInt32) : Gpu :=
  { Library.numbered 0 with
    minor, memory := .ok (17179869184, 12884901888), name := .ok "GPU", uuid := .ok "GPU-0" }

/-- A library of three devices. The first one cannot be had, the second one does not tell its
number, and the number of the third one is 7. -/
def faulty : Library where
  provides _ := true
  setUp := .ok ()
  count := .ok 3
  gpu index := if index = 1 then .ok (plain (.error ReturnCode.notSupported))
    else if index = 2 then .ok (plain (.ok 7)) else .error ReturnCode.notFound

/-- The summary of such a device. -/
def told (index minor : UInt32) : Summary :=
  ⟨index, minor, "GPU", "GPU-0", 17179869184, 12884901888, none, none⟩

/-- A summary for number 7 is about the third device, for which it was found, and one for number 1
about the second, for which nothing was found. -/
theorem index_agrees_faulty :
    (Library.load fun _ => some faulty).result = .ok faulty ∧
      faulty.indexFor 7 = .ok 2 ∧ faulty.gpu 2 = .ok (plain (.ok 7)) ∧
      faulty.indexFor 1 = .ok 1 ∧
      faulty.gpu 1 = .ok (plain (.error ReturnCode.notSupported)) := by
  have halike : ∀ index, faulty.newerGpu index = faulty.gpu index := fun _ => rfl
  have hload : (Library.load fun _ => some faulty).result = .ok faulty := rfl
  have hseven : faulty.gpuOfMinor 7 = .ok (plain (.ok 7)) := rfl
  have hone : faulty.gpuOfMinor 1 = .ok (plain (.error ReturnCode.notSupported)) := rfl
  have hsummary : (query (fun _ => some faulty) 7).result = .ok (told 2 7) := rfl
  have hother : (query (fun _ => some faulty) 1).result = .ok (told 1 1) := rfl
  have hthird := index_agrees halike hload hseven hsummary
  have hsecond := index_agrees halike hload hone hother
  exact ⟨hload, hthird.1, hthird.2.1, hsecond.1, hsecond.2.1⟩

end Summary

end GpuQuota.Device
