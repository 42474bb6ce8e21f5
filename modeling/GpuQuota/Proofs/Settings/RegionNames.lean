import GpuQuota.Settings.Config
import GpuQuota.Settings.ControlGroup
import Mathlib.Data.List.TakeWhile

/-!
# Names of shared regions

A compute region is named by its device and its control group, a memory region by its device alone.
A name is read back by cutting it behind the prefix and at the first dot after that: hexadecimal
digits have no dot, so what stands in front of the cut is the device of a compute region, or the tag
of a memory region.

* `hexText_injective`: the digits of a device are those of no other.
* `ControlGroup.isId_iff`: the ids that a control group can have.
* `RegionConfig.parts?_tokenName`, `RegionConfig.parts?_memoryName`: what a name reads back as.
* `RegionConfig.names_apart`: within each of the two families a name belongs to one region. A name
  is in both families for one device only, whose number is written like the tag.
* `RegionConfig.memoryName_taken`: and then there are such names.
-/

namespace GpuQuota.Settings

open GpuQuota.Text

/-! ## Hexadecimal digits

A device is written in as many hexadecimal digits as it takes, in small letters. What is needed of
the digits is that they tell the number and that none of them is a dot. -/

/-- The value of a hexadecimal digit. -/
def hexValue (digit : Char) : Nat :=
  if digit ≤ '9' then digit.toNat - '0'.toNat else digit.toNat - 'a'.toNat + 10

/-- The number that hexadecimal digits stand for. -/
def hexNumber (digits : List Char) : Nat :=
  digits.foldl (fun number digit => 16 * number + hexValue digit) 0

theorem hexValue_digitChar : ∀ digit < 16, hexValue (Nat.digitChar digit) = digit := by decide

theorem digitChar_mem : ∀ digit < 16, Nat.digitChar digit ∈ "0123456789abcdef".toList := by decide

/-- **The digits of a number tell the number.** -/
theorem hexNumber_toDigits (n : Nat) : hexNumber (Nat.toDigits 16 n) = n := by
  induction n using Nat.strongRecOn with
  | ind n ih =>
    rw [Nat.toDigits_eq_if (by decide)]
    split
    · next hlt =>
      rw [hexNumber, List.foldl_cons, List.foldl_nil, hexValue_digitChar n hlt]
      omega
    · next hge =>
      have hhigh := ih (n / 16) (by omega)
      rw [hexNumber] at hhigh ⊢
      rw [List.foldl_append, hhigh, List.foldl_cons, List.foldl_nil,
        hexValue_digitChar _ (Nat.mod_lt n (by decide)), Nat.div_add_mod]

/-- A number is written in these sixteen digits. -/
theorem mem_toDigits {n : Nat} {digit : Char} (h : digit ∈ Nat.toDigits 16 n) :
    digit ∈ "0123456789abcdef".toList := by
  induction n using Nat.strongRecOn with
  | ind n ih =>
    rw [Nat.toDigits_eq_if (by decide)] at h
    split at h
    · next hlt =>
      rw [List.mem_singleton.1 h]
      exact digitChar_mem n hlt
    · next hge =>
      rcases List.mem_append.1 h with hhigh | hlow
      · exact ih (n / 16) (by omega) hhigh
      · rw [List.mem_singleton.1 hlow]
        exact digitChar_mem _ (Nat.mod_lt n (by decide))

/-- The text of a number is its digits. -/
theorem toList_hexText (n : UInt32) : (hexText n).toList = Nat.toDigits 16 n.toNat :=
  String.toList_ofList

/-- Devices are told apart by their digits. -/
theorem hexText_injective : Function.Injective hexText := by
  intro m n h
  have hdigits : Nat.toDigits 16 m.toNat = Nat.toDigits 16 n.toNat := by
    rw [← toList_hexText, h, toList_hexText]
  rw [← UInt32.toNat_inj]
  calc
    m.toNat = hexNumber (Nat.toDigits 16 m.toNat) := (hexNumber_toDigits _).symm
    _ = hexNumber (Nat.toDigits 16 n.toNat) := by rw [hdigits]
    _ = n.toNat := hexNumber_toDigits _

/-- What is no digit is not in the text of a device. -/
theorem not_mem_hexText {c : Char} (h : c ∉ "0123456789abcdef".toList) (n : UInt32) :
    c ∉ (hexText n).toList := by
  rw [toList_hexText]
  exact mt mem_toDigits h

/-- A device number has at most eight digits. -/
theorem length_hexText_le (n : UInt32) : (hexText n).toList.length ≤ 8 := by
  rw [toList_hexText, Nat.length_toDigits_le_iff (by decide) (by decide)]
  exact n.toNat_lt

/-! ## Ids of control groups

An id is what a membership file or an argument is reduced to: the beginning of a part of one segment
of a path. So it has no slash, and it is neither empty nor longer than `idLength`. -/

namespace ControlGroup

/-- What either side can come to: a process by its membership file, a monitor by its command line.
-/
inductive IsId : List Char → Prop where
  /-- what a process reads of itself -/
  | membership {content id : List Char} : idOfMembership? content = some id → IsId id
  /-- what a monitor is told -/
  | argument {text id : List Char} {notices : List Notice} :
      idOfArgument text = .ok (id, notices) → IsId id

/-- There is no separator behind the last one. -/
theorem not_mem_afterLast (sep : Char) (s : List Char) : sep ∉ afterLast sep s := by
  intro h
  rw [afterLast, List.mem_reverse] at h
  have hne := List.mem_takeWhile_imp h
  exact absurd rfl (of_decide_eq_true hne)

/-- Taking a mark off leaves a part of a segment. -/
theorem dropRuntimeMark_sublist (segment : List Char) :
    (dropRuntimeMark segment).Sublist segment := by
  rw [dropRuntimeMark]
  rcases hfound : runtimeMarks.findSome? (dropStart? · segment) with _ | rest
  · exact List.Sublist.refl segment
  · obtain ⟨mark, -, hrest⟩ := List.exists_of_findSome?_eq_some hfound
    obtain ⟨-, hdrop⟩ := Option.ite_none_right_eq_some.1 hrest
    obtain rfl := Option.some.inj hdrop
    exact List.drop_sublist _ segment

/-- An id is a part of its segment. -/
theorem bareId_sublist (segment : List Char) : (bareId segment).Sublist segment := by
  rw [bareId]
  refine List.Sublist.trans ?_ (dropRuntimeMark_sublist segment)
  rcases hended : dropEnd? scopeMark (dropRuntimeMark segment) with _ | rest
  · exact List.Sublist.refl _
  · obtain ⟨-, htake⟩ := Option.ite_none_right_eq_some.1 hended
    obtain rfl := Option.some.inj htake
    exact List.take_sublist _ _

/-- The id of a path is not empty, not too long and within one segment. -/
theorem bounds_of_idOfPath? {path id : List Char} (h : idOfPath? path = some id) :
    id ≠ [] ∧ id.length ≤ idLength ∧ '/' ∉ id := by
  rw [idOfPath?] at h
  split at h
  · cases h
  · next bare hne =>
    obtain rfl := Option.some.inj h
    refine ⟨?_, List.length_take_le _ _, ?_⟩
    · intro hnil
      rcases List.take_eq_nil_iff.1 hnil with hlength | hbare
      · exact absurd hlength (by decide)
      · exact hne hbare
    · intro hslash
      exact not_mem_afterLast '/' (trim path)
        ((bareId_sublist _).subset (List.mem_of_mem_take hslash))

/-- An id has one to fifteen characters and is one path segment. -/
theorem IsId.bounds {id : List Char} (h : IsId id) :
    id ≠ [] ∧ id.length ≤ idLength ∧ '/' ∉ id := by
  cases h with
  | membership hid =>
    obtain ⟨path, -, hpath⟩ := Option.bind_eq_some_iff.1 hid
    exact bounds_of_idOfPath? hpath
  | @argument text _ notices hok =>
    obtain ⟨hne, hlength⟩ := length_le_of_idOfArgument hok
    refine ⟨hne, hlength, ?_⟩
    rw [idOfArgument] at hok
    split at hok
    · cases hok
    · split at hok
      · cases hok
      · next hslash =>
        obtain ⟨rfl, -⟩ := Prod.mk.inj (Except.ok.inj hok)
        exact fun hmem => hslash (List.mem_of_mem_take hmem)

/-- A command line takes an id as it is. -/
theorem idOfArgument_eq_self {id : List Char} (hne : id ≠ []) (hlength : id.length ≤ idLength)
    (hslash : '/' ∉ id) : idOfArgument id = .ok (id, []) := by
  rw [idOfArgument, if_neg hne, if_neg hslash, if_neg (Nat.not_lt.2 hlength),
    List.take_of_length_le hlength]

/-- Any text of so many characters is one, since a command line may give it as it stands. -/
theorem isId_iff {id : List Char} :
    IsId id ↔ id ≠ [] ∧ id.length ≤ idLength ∧ '/' ∉ id := by
  refine ⟨IsId.bounds, ?_⟩
  rintro ⟨hne, hlength, hslash⟩
  exact .argument (idOfArgument_eq_self hne hlength hslash)

/-- The digits of a device number are an id. -/
theorem isId_hexText (n : UInt32) : IsId (hexText n).toList := by
  have hlength : (hexText n).toList.length ≤ idLength :=
    Nat.le_trans (length_hexText_le n) (by decide)
  refine isId_iff.2 ⟨?_, hlength, not_mem_hexText (by decide) n⟩
  rw [toList_hexText]
  exact Nat.toDigits_ne_nil

end ControlGroup

/-! ## Names

Behind the common prefix, both names have a head without dots, a dot and a rest. The head of a
compute region is its device, that of a memory region is the tag; and since the tag is made of
hexadecimal digits, the two families can meet. -/

namespace RegionConfig

/-- What stands behind the prefix of a name, cut at the first dot. -/
def parts? (config : RegionConfig) (name : String) : Option (List Char × List Char) :=
  (dropStart? (config.namePrefix ++ ".").toList name.toList).bind (cutFirst '.')

variable (config : RegionConfig)

/-- A name of a head without dots and a rest is read back. -/
theorem parts?_append {head : String} (hdot : '.' ∉ head.toList) (rest : String) :
    config.parts? (config.namePrefix ++ "." ++ head ++ "." ++ rest) =
      some (head.toList, rest.toList) := by
  have hbehind : dropStart? (config.namePrefix ++ ".").toList
      (config.namePrefix ++ "." ++ head ++ "." ++ rest).toList =
        some (head.toList ++ '.' :: rest.toList) := by
    simp [dropStart?]
  rw [parts?, hbehind, Option.bind_some, cutFirst_eq_some_iff]
  exact ⟨rfl, hdot⟩

/-- The name of a compute region is cut into the digits of its device and its control group. -/
theorem parts?_tokenName (minor : UInt32) (group : String) :
    config.parts? (config.tokenName minor group) = some ((hexText minor).toList, group.toList) :=
  config.parts?_append (not_mem_hexText (by decide) minor) group

/-- The tag of a memory region stands where a compute region has its device. -/
theorem memoryName_eq (minor : UInt32) :
    config.memoryName minor = config.namePrefix ++ "." ++ "fb" ++ "." ++ hexText minor := by
  have htag : (".fb." : String) = "." ++ "fb" ++ "." := by decide
  rw [memoryName, htag, ← String.append_assoc, ← String.append_assoc]

/-- The name of a memory region is cut into the tag and the digits of its device. -/
theorem parts?_memoryName (minor : UInt32) :
    config.parts? (config.memoryName minor) = some ("fb".toList, (hexText minor).toList) := by
  rw [memoryName_eq]
  exact config.parts?_append (by decide) (hexText minor)

variable {config}

/-- A name belongs to one compute region only. -/
theorem tokenName_inj {minor other : UInt32} {group group' : String} :
    config.tokenName minor group = config.tokenName other group' ↔
      minor = other ∧ group = group' := by
  constructor
  · intro h
    have hparts := congrArg config.parts? h
    rw [parts?_tokenName, parts?_tokenName, Option.some.injEq, Prod.mk.injEq, String.toList_inj,
      String.toList_inj] at hparts
    exact ⟨hexText_injective hparts.1, hparts.2⟩
  · rintro ⟨rfl, rfl⟩
    rfl

/-- A name belongs to one memory region only. -/
theorem memoryName_inj {minor other : UInt32} :
    config.memoryName minor = config.memoryName other ↔ minor = other := by
  constructor
  · intro h
    have hparts := congrArg config.parts? h
    rw [parts?_memoryName, parts?_memoryName, Option.some.injEq, Prod.mk.injEq] at hparts
    exact hexText_injective (String.toList_inj.1 hparts.2)
  · rintro rfl
    rfl

/-- The device whose number is written like the tag of memory regions. -/
theorem hexText_eq_tag_iff {minor : UInt32} : hexText minor = "fb" ↔ minor = 0xfb := by
  have htag : hexText 0xfb = "fb" := by decide
  rw [← htag]
  exact hexText_injective.eq_iff

/-- **Where the families meet**: the digits of the device are the tag, and the control group has the
digits of the memory region's device for its id. -/
theorem tokenName_eq_memoryName_iff {minor other : UInt32} {group : String} :
    config.tokenName minor group = config.memoryName other ↔
      minor = 0xfb ∧ group = hexText other := by
  constructor
  · intro h
    have hparts := congrArg config.parts? h
    rw [parts?_tokenName, parts?_memoryName, Option.some.injEq, Prod.mk.injEq, String.toList_inj,
      String.toList_inj] at hparts
    exact ⟨hexText_eq_tag_iff.1 hparts.1, hparts.2⟩
  · rintro ⟨hminor, rfl⟩
    rw [tokenName, memoryName_eq, hexText_eq_tag_iff.2 hminor]

/-- A compute region has the name of a memory region for one device only, and for that device there
is a control group for every memory region. -/
theorem exists_isId_iff (config : RegionConfig) (minor other : UInt32) :
    (∃ id, ControlGroup.IsId id ∧
      config.tokenName minor (String.ofList id) = config.memoryName other) ↔ minor = 0xfb := by
  constructor
  · rintro ⟨id, -, hname⟩
    exact (tokenName_eq_memoryName_iff.1 hname).1
  · intro hminor
    refine ⟨(hexText other).toList, ControlGroup.isId_hexText other, ?_⟩
    exact tokenName_eq_memoryName_iff.2 ⟨hminor, String.ofList_toList⟩

/-- **Names tell regions apart, but for one device.** Compute regions of different devices or
control groups have different names, and memory regions of different devices do. A compute region
has the name of a memory region where its device is number 251, which is written `fb`, and its
control group is called like the other device: every memory region can be hit so, and no other
device is concerned. -/
theorem names_apart (config : RegionConfig) (minor other : UInt32) :
    (∀ group group', config.tokenName minor group = config.tokenName other group' ↔
      minor = other ∧ group = group') ∧
    (config.memoryName minor = config.memoryName other ↔ minor = other) ∧
    (∀ group, config.tokenName minor group = config.memoryName other ↔
      minor = 0xfb ∧ group = hexText other) ∧
    ((∃ id, ControlGroup.IsId id ∧
      config.tokenName minor (String.ofList id) = config.memoryName other) ↔ minor = 0xfb) := by
  refine ⟨?_, memoryName_inj, ?_, config.exists_isId_iff minor other⟩
  · intro group group'
    exact tokenName_inj
  · intro group
    exact tokenName_eq_memoryName_iff

/-- So names do not tell all regions apart: on device 251 the control group `fb` has its compute
region where the memory region of that device is. -/
theorem memoryName_taken :
    ¬ ∀ (config : RegionConfig) (minor other : UInt32) (id id' : List Char),
      ControlGroup.IsId id → ControlGroup.IsId id' →
      (config.tokenName minor (String.ofList id) = config.tokenName other (String.ofList id') →
        minor = other ∧ id = id') ∧
      (config.memoryName minor = config.memoryName other → minor = other) ∧
      config.tokenName minor (String.ofList id) ≠ config.memoryName other := by
  intro h
  have hid : ControlGroup.IsId ['f', 'b'] :=
    ControlGroup.isId_iff.2 ⟨by decide, by decide, by decide⟩
  have hne := (h {} 0xfb 0xfb ['f', 'b'] ['f', 'b'] hid hid).2.2
  exact hne (by decide)

end RegionConfig

end GpuQuota.Settings
