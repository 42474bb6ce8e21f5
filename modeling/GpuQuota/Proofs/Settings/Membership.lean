import GpuQuota.Proofs.Settings.RegionNames
import GpuQuota.Proofs.Text.Cutting
import GpuQuota.Settings.CommandLine
import GpuQuota.Shared.Store
import Mathlib.Data.Bool.AllAny
import Mathlib.Data.String.Basic

/-!
# Processes and monitors meet

A container runtime makes a path segment of a container id: it may put its mark in front of it and
the mark of the init system behind it. A process reads the id off that segment wherever it stands in
its membership file; a monitor is given the id itself. Both come to the same characters.

* `Row`, `Decides`: the lines of a membership file, and the path that tells the group.
* `Decoration`: the segment that is made of an id.
* `idOfMembership?_of_decides`: a process goes by the path that tells the group.
* `bareId_segment`: taking the marks off gives the id back.
* `ids_agree`: the result.
-/

namespace GpuQuota.Settings.ControlGroup

open GpuQuota.Text

/-! ## Membership files

A file has a line for each hierarchy. The path of the devices controller counts where there is one,
else that of the unified hierarchy. -/

/-- A line of a membership file, taken apart: the number of the hierarchy, its controllers and the
path of the process in it. A path may hold colons, the others not. -/
structure Row where
  /-- the number of the hierarchy -/
  number : List Char
  /-- the names of what it governs -/
  controllers : List (List Char)
  /-- where the process is in it -/
  path : List Char
  /-- The number ends at the first colon. -/
  number_plain : ':' ∉ number
  /-- The names end at commas, and the last one at the next colon. -/
  controllers_plain : ∀ name ∈ controllers, ':' ∉ name ∧ ',' ∉ name

/-- The line. -/
def Row.text (row : Row) : List Char :=
  row.number ++ ':' :: ([','].intercalate row.controllers ++ ':' :: row.path)

/-- The line is of the hierarchy that governs devices. -/
def ListsDevices (line : List Char) : Prop :=
  ∃ row : Row, row.text = line ∧ "devices".toList ∈ row.controllers

/-- The path in a membership file that tells the group: that of the first line of the hierarchy that
governs devices, or else that of the first line of the unified hierarchy. -/
inductive Decides (content : List Char) : List Char → Prop where
  /-- The first line that lists devices, wherever it is. -/
  | devices {before after : List (List Char)} {row : Row} :
      Lines content (before ++ row.text :: after) → "devices".toList ∈ row.controllers →
      (∀ line ∈ before, ¬ ListsDevices line) → Decides content row.path
  /-- Where there is none, the first line of the unified hierarchy. -/
  | unified {before after : List (List Char)} {path : List Char} :
      Lines content (before ++ ("0::".toList ++ path) :: after) →
      (∀ line ∈ before ++ ("0::".toList ++ path) :: after, ¬ ListsDevices line) →
      (∀ line ∈ before, ¬ "0::".toList <+: line) → Decides content path

variable {line path content : List Char}

/-- A line gives the path of the devices controller if it lists it. -/
theorem devicesPath?_eq_some_iff :
    devicesPath? line = some path ↔
      ∃ row : Row, row.text = line ∧ "devices".toList ∈ row.controllers ∧ row.path = path := by
  simp only [devicesPath?, bind, Option.bind_eq_some_iff, Prod.exists, cutFirst_eq_some_iff,
    Option.ite_none_right_eq_some, Option.some.injEq, List.contains_iff_mem]
  constructor
  · rintro ⟨number, _, ⟨rfl, hnumber⟩, controllers, path, ⟨rfl, hcolon⟩, hdevices, rfl⟩
    refine ⟨⟨number, controllers.splitOn ',', path, hnumber, ?_⟩, ?_, hdevices, rfl⟩
    · intro name hname
      obtain ⟨hcomma, hsubset⟩ := notMem_and_subset_of_mem_splitOn hname
      exact ⟨fun h => hcolon (hsubset h), hcomma⟩
    · rw [Row.text, List.intercalate_splitOn]
  · rintro ⟨row, rfl, hdevices, rfl⟩
    have hcolon : ':' ∉ [','].intercalate row.controllers :=
      notMem_intercalate (by decide) fun name hname => (row.controllers_plain name hname).1
    have hnames : ([','].intercalate row.controllers).splitOn ',' = row.controllers :=
      List.splitOn_intercalate ',' (fun name hname => (row.controllers_plain name hname).2)
        (List.ne_nil_of_mem hdevices)
    exact ⟨row.number, _, ⟨rfl, row.number_plain⟩, _, row.path, ⟨rfl, hcolon⟩,
      hnames.symm ▸ hdevices, rfl⟩

/-- A line that does not list the controller gives no path. -/
theorem devicesPath?_eq_none_iff : devicesPath? line = none ↔ ¬ ListsDevices line := by
  simp only [Option.eq_none_iff_forall_ne_some, ne_eq, devicesPath?_eq_some_iff, ListsDevices]
  grind

/-- The first answer is that of the first element that has one. -/
theorem findSome?_append_cons {α β : Type} {f : α → Option β} {before : List α} {x : α} {y : β}
    (hbefore : ∀ other ∈ before, f other = none) (hx : f x = some y) (after : List α) :
    (before ++ x :: after).findSome? f = some y := by
  rw [List.findSome?_append, List.findSome?_eq_none_iff.2 hbefore, Option.none_or,
    List.findSome?_cons_of_isSome (by rw [hx]; rfl), hx]

/-- A process goes by the path that tells the group. -/
theorem idOfMembership?_of_decides (h : Decides content path) :
    idOfMembership? content = idOfPath? path := by
  cases h with
  | @devices before after row hlines hdevices hbefore =>
    have hnone : ∀ line ∈ before, devicesPath? line = none :=
      fun line hline => devicesPath?_eq_none_iff.2 (hbefore line hline)
    have hrow : devicesPath? row.text = some row.path :=
      devicesPath?_eq_some_iff.2 ⟨row, rfl, hdevices, rfl⟩
    rw [idOfMembership?, hlines.lines_eq, findSome?_append_cons hnone hrow, Option.some_or,
      Option.bind_some]
  | @unified before after _ hlines hother hbefore =>
    have hnone : ∀ line ∈ before, unifiedPath? line = none :=
      fun line hline => dropStart?_eq_none_iff.2 (hbefore line hline)
    have hrow : unifiedPath? ("0::".toList ++ path) = some path := dropStart?_eq_some_iff.2 rfl
    have hdevices : (before ++ ("0::".toList ++ path) :: after).findSome? devicesPath? = none :=
      List.findSome?_eq_none_iff.2 fun line hline => devicesPath?_eq_none_iff.2 (hother line hline)
    rw [idOfMembership?, hlines.lines_eq, hdevices, findSome?_append_cons hnone hrow,
      Option.none_or, Option.bind_some]

/-! ## Marks

A segment may have one mark in front and one behind. An id that begins or ends like a mark itself
would be cut, which `Decoration.Suits` rules out. -/

/-- The container runtimes that mark the segments they make. -/
inductive Runtime where
  | docker
  | containerd
  | crio

/-- What a runtime puts in front of an id. -/
def Runtime.mark : Runtime → List Char
  | .docker => "docker-".toList
  | .containerd => "cri-containerd-".toList
  | .crio => "crio-".toList

/-- What becomes of an id in a path: who marks it, and whether the init system does. -/
structure Decoration where
  /-- who started the container, where its mark is before the id -/
  runtime : Option Runtime
  /-- whether the init system's mark is behind it -/
  scope : Bool

namespace Decoration

variable (decoration : Decoration) {id : List Char}

/-- What stands behind the id. -/
def ending : List Char := if decoration.scope then ".scope".toList else []

/-- The path segment of an id. -/
def segment (id : List Char) : List Char :=
  decoration.runtime.elim [] Runtime.mark ++ (id ++ decoration.ending)

/-- An id that can be told from the marks: it is one path segment without blanks, and where there is
no mark it does not look as if there were one. -/
structure Suits (id : List Char) : Prop where
  /-- It is not empty. -/
  ne_nil : id ≠ []
  /-- It is one segment, without blanks. -/
  plain : ∀ c ∈ id, isBlank c = false ∧ c ≠ '/'
  /-- Where no mark is before it, it does not begin with one. -/
  start : decoration.runtime = none → ∀ runtime : Runtime, ¬ runtime.mark <+: id
  /-- Where none is behind it, it does not end with one. -/
  ending : decoration.scope = false → ¬ ".scope".toList <:+ id

variable {decoration}

/-- The segment of an id has no blank and no slash. -/
theorem plain_segment (h : decoration.Suits id) :
    ∀ c ∈ decoration.segment id, isBlank c = false ∧ c ≠ '/' := by
  have hmark : ∀ runtime : Runtime, ∀ c ∈ runtime.mark, isBlank c = false ∧ c ≠ '/' := by
    rintro (_ | _ | _) <;> exact List.all_iff_forall_prop.1 (by decide)
  have hscope : ∀ c ∈ ".scope".toList, isBlank c = false ∧ c ≠ '/' :=
    List.all_iff_forall_prop.1 (by decide)
  intro c hc
  rw [segment, List.mem_append, List.mem_append] at hc
  rcases hc with hc | hc | hc
  · rcases hruntime : decoration.runtime with _ | runtime
    · rw [hruntime] at hc
      cases hc
    · rw [hruntime] at hc
      exact hmark runtime c hc
  · exact h.plain c hc
  · rw [Decoration.ending] at hc
    split at hc
    · exact hscope c hc
    · cases hc

theorem segment_ne_nil (h : decoration.Suits id) : decoration.segment id ≠ [] := by
  simp [segment, h.ne_nil]

end Decoration

/-- A mark in front is taken off. -/
theorem dropRuntimeMark_mark (runtime : Runtime) (rest : List Char) :
    dropRuntimeMark (runtime.mark ++ rest) = rest := by
  cases runtime <;> rfl

/-- Without a mark in front nothing is. -/
theorem dropRuntimeMark_of_unmarked {segment : List Char}
    (h : ∀ runtime : Runtime, ¬ runtime.mark <+: segment) : dropRuntimeMark segment = segment := by
  have hnone : ∀ mark ∈ runtimeMarks, dropStart? mark segment = none := by
    have hmarks : runtimeMarks = [.docker, .containerd, .crio].map Runtime.mark := rfl
    intro mark hmark
    rw [hmarks] at hmark
    obtain ⟨runtime, -, rfl⟩ := List.mem_map.1 hmark
    exact dropStart?_eq_none_iff.2 (h runtime)
  rw [dropRuntimeMark, List.findSome?_eq_none_iff.2 hnone, Option.getD_none]

/-- What stands behind an id does not make up a mark: no mark has a dot. -/
theorem Decoration.Suits.unmarked {decoration : Decoration} {id : List Char}
    (h : decoration.Suits id) (hruntime : decoration.runtime = none) (runtime : Runtime) :
    ¬ runtime.mark <+: id ++ decoration.ending := by
  intro hmark
  rcases List.prefix_or_prefix_of_prefix hmark (List.prefix_append id _) with hid | ⟨rest, hid⟩
  · exact h.start hruntime runtime hid
  · rw [← hid, List.prefix_append_right_inj] at hmark
    have hdot : '.' ∉ runtime.mark := by cases runtime <;> decide
    cases rest with
    | nil =>
      rw [List.append_nil] at hid
      exact h.start hruntime runtime (hid ▸ List.prefix_refl _)
    | cons c rest =>
      rw [Decoration.ending] at hmark
      split at hmark
      · obtain rfl : c = '.' := (List.cons_prefix_cons.1 hmark).1
        exact hdot (by rw [← hid]; simp)
      · exact absurd (List.prefix_nil.1 hmark) (List.cons_ne_nil _ _)

/-- Taking the marks off gives the id back. -/
theorem bareId_segment {decoration : Decoration} {id : List Char} (h : decoration.Suits id) :
    bareId (decoration.segment id) = id := by
  have hfront : dropRuntimeMark (decoration.segment id) = id ++ decoration.ending := by
    rw [Decoration.segment]
    rcases hruntime : decoration.runtime with _ | runtime
    · exact dropRuntimeMark_of_unmarked (h.unmarked hruntime)
    · exact dropRuntimeMark_mark runtime _
  rw [bareId, hfront, Decoration.ending]
  split
  · have hback : dropEnd? scopeMark (id ++ ".scope".toList) = some id := dropEnd?_eq_some_iff.2 rfl
    rw [hback, Option.getD_some]
  · next hscope =>
    have hnone : dropEnd? scopeMark id = none :=
      dropEnd?_eq_none_iff.2 (h.ending (Bool.not_eq_true _ ▸ hscope))
    rw [List.append_nil, hnone, Option.getD_none]

/-! ## Paths

Only the last segment of a path matters, and blanks around the path do not. -/

/-- The last segment of a path is what stands behind its last slash. -/
def EndsIn (path segment : List Char) : Prop := path = segment ∨ ∃ up, path = up ++ '/' :: segment

/-- Blanks around a path are no matter where the last segment has none. -/
theorem afterLast_trim {segment : List Char} (hne : segment ≠ [])
    (hplain : ∀ c ∈ segment, isBlank c = false ∧ c ≠ '/') (h : EndsIn path segment) :
    afterLast '/' (trim path) = segment := by
  have hslash : '/' ∉ segment := fun hmem => (hplain _ hmem).2 rfl
  have hlast : ∀ c ∈ segment.getLast?, isBlank c = false :=
    fun c hc => (hplain c (List.mem_of_getLast? hc)).1
  rcases h with rfl | ⟨up, rfl⟩
  · have hhead : ∀ c ∈ path.head?, isBlank c = false :=
      fun c hc => (hplain c (List.mem_of_head? hc)).1
    rw [trim_eq_self hhead hlast, afterLast_of_notMem hslash]
  · have hend : ∀ c ∈ (trimStart up ++ '/' :: segment).getLast?, isBlank c = false := by
      intro c hc
      rw [List.getLast?_append, List.getLast?_cons_of_ne_nil hne] at hc
      rw [List.getLast?_eq_some_getLast hne] at hc hlast
      exact hlast c hc
    rw [trim, trimStart_append_cons up (by decide), trimEnd_eq_self hend,
      afterLast_append _ hslash]

/-- A path that ends in the segment of an id gives the id back. -/
theorem idOfPath?_segment {decoration : Decoration} {id : List Char} (h : decoration.Suits id)
    (hpath : EndsIn path (decoration.segment id)) : idOfPath? path = some (id.take idLength) := by
  rw [idOfPath?, afterLast_trim (Decoration.segment_ne_nil h) (Decoration.plain_segment h) hpath,
    bareId_segment h]
  split
  · exact absurd rfl h.ne_nil
  · rfl

/-! ## The monitor's side

The monitor cuts an id to the same length as the process does, so both may be given the long one. -/

/-- A text that may be an id is cut to its length. -/
theorem idOfArgument_eq {text : List Char} (hne : text ≠ []) (hslash : '/' ∉ text) :
    (idOfArgument text).map Prod.fst = .ok (text.take idLength) := by
  rw [idOfArgument, if_neg hne, if_neg hslash]
  rfl

/-- A monitor started with these arguments looks after that group. -/
theorem group_read {minor percent text id : String} {device share : UInt32}
    (hminor : CommandLine.Reading.ranged 0 (UInt32.size - 1) minor.toList = .ok device)
    (hpercent : CommandLine.Reading.ranged 1 100 percent.toList = .ok share)
    (hid : (idOfArgument text.toList).map Prod.fst = .ok id.toList) (env : Environment) :
    (CommandLine.read ["--", minor, text, percent] env).map (·.1.group) = .ok id := by
  rcases hargument : idOfArgument text.toList with problem | ⟨kept, notices⟩
  · rw [hargument] at hid
    cases hid
  · rw [hargument] at hid
    obtain rfl : kept = id.toList := by simpa [Except.map] using hid
    simp [CommandLine.read, CommandLine.Reading.read, CommandLine.Reading.position,
      CommandLine.Reading.positions, CommandLine.Reading.settle, CommandLine.Reading.assign,
      CommandLine.Reading.isSet, CommandLine.Reading.fill, CommandLine.Reading.finish,
      show CommandLine.Reading.ranged 0 4294967295 minor.toList = .ok device from hminor,
      hpercent, hargument, bind, Except.bind, pure, Except.pure, Except.map]

/-- A device and a share of its compute time that a monitor can be started for. -/
structure Startable (minor percent : String) : Prop where
  minor : ∃ device, CommandLine.Reading.ranged 0 (UInt32.size - 1) minor.toList = .ok device
  percent : ∃ share, CommandLine.Reading.ranged 1 100 percent.toList = .ok share

/-! ## Names

The name of the region is the same on both sides, as its parts are, and it is a name that the system
takes. -/

/-- A text has no more bytes than its characters can take. -/
theorem utf8Len_le {s : List Char} {size : Nat} (h : ∀ c ∈ s, c.utf8Size ≤ size) :
    String.utf8Len s ≤ size * s.length := by
  induction s with
  | nil => simp
  | cons c s ih =>
    have hhead := h c List.mem_cons_self
    have htail := ih fun d hd => h d (List.mem_cons_of_mem _ hd)
    rw [String.utf8Len_cons, List.length_cons, Nat.mul_add, Nat.mul_one]
    exact Nat.add_le_add htail hhead

/-- A compute region can be named after any group, unless the prefix is too long. -/
theorem isRegionName_tokenName {config : RegionConfig} {rest id : List Char} (minor : UInt32)
    (hlead : config.namePrefix.toList = '/' :: rest) (hrest : '/' ∉ rest)
    (hsize : config.namePrefix.utf8ByteSize ≤ 184) (hid : '/' ∉ id) (hlength : id.length ≤ 15) :
    Shared.isRegionName (config.tokenName minor (String.ofList id)) = true := by
  have hname : (config.tokenName minor (String.ofList id)).toList =
      '/' :: (rest ++ '.' :: ((hexText minor).toList ++ '.' :: id)) := by
    simp [RegionConfig.tokenName, hlead]
  -- the bytes: 184 for the prefix, 8 for the device, 4 for each of 15 characters, and two dots
  have hminor : (hexText minor).utf8ByteSize ≤ 8 := by
    have hdigit : ∀ c ∈ "0123456789abcdef".toList, c.utf8Size ≤ 1 :=
      List.all_iff_forall_prop.1 (by decide)
    have hle : String.utf8Len (hexText minor).toList ≤ 1 * (hexText minor).toList.length :=
      utf8Len_le fun c hc => hdigit c (mem_toDigits (toList_hexText minor ▸ hc))
    have hdigits := length_hexText_le minor
    rw [← String.ofList_toList (s := hexText minor), String.utf8ByteSize_ofList]
    omega
  have hgroup : (String.ofList id).utf8ByteSize ≤ 60 := by
    have hle : String.utf8Len id ≤ 4 * id.length := utf8Len_le fun c _ => c.utf8Size_le_four
    rw [String.utf8ByteSize_ofList]
    omega
  have hdot : ".".utf8ByteSize = 1 := rfl
  have hslash : '/' ∉ rest ++ '.' :: ((hexText minor).toList ++ '.' :: id) := by
    simp [hrest, hid, not_mem_hexText (show '/' ∉ "0123456789abcdef".toList by decide)]
  rw [Shared.isRegionName, hname]
  simp only [RegionConfig.tokenName, String.utf8ByteSize_append, hdot, Bool.and_eq_true,
    decide_eq_true_eq, Bool.not_eq_true', List.contains_eq_mem, decide_eq_false_iff_not]
  refine ⟨⟨?_, ?_⟩, hslash⟩ <;> omega

/-! ## The result -/

/-- **Processes and monitors agree on the id of their group.** Let a membership file tell the group
by a path that ends in the segment of an id, wherever the line stands and whatever the other lines
are. Then a process comes to the first fifteen characters of that id, and so does a monitor that is
given the id, or those characters alone. Whatever the file holds, what a process comes to has one to
fifteen characters and no slash, a monitor takes it as it is, and it makes the name of a region. -/
theorem ids_agree :
    (∀ (content path id : List Char) (decoration : Decoration), decoration.Suits id →
      Decides content path → EndsIn path (decoration.segment id) →
      idOfMembership? content = some (id.take 15) ∧
      ∀ text ∈ [id, id.take 15], (idOfArgument text).map Prod.fst = .ok (id.take 15) ∧
        ∀ minor percent, Startable minor percent → ∀ env,
          (CommandLine.read ["--", minor, String.ofList text, percent] env).map (·.1.group) =
            .ok (String.ofList (id.take 15))) ∧
    ∀ content id : List Char, idOfMembership? content = some id →
      1 ≤ id.length ∧ id.length ≤ 15 ∧ '/' ∉ id ∧ idOfArgument id = .ok (id, []) ∧
      ∀ (config : RegionConfig) rest minor, config.namePrefix.toList = '/' :: rest → '/' ∉ rest →
        config.namePrefix.utf8ByteSize ≤ 184 →
        Shared.isRegionName (config.tokenName minor (String.ofList id)) = true := by
  constructor
  · intro content path id decoration hsuits hdecides hends
    refine ⟨?_, ?_⟩
    · rw [idOfMembership?_of_decides hdecides, idOfPath?_segment hsuits hends]
      rfl
    · intro text htext
      have htext' : text = id ∨ text = id.take 15 := by simpa using htext
      -- both texts that the monitor may be given are the same once they are cut
      have hcut : text.take 15 = id.take 15 := by
        rcases htext' with rfl | rfl
        · rfl
        · exact List.take_take.trans (by rw [Nat.min_self])
      have hne : text ≠ [] := by
        rintro rfl
        exact hsuits.ne_nil (by simpa using hcut.symm)
      have hslash : '/' ∉ text := by
        have hid : '/' ∉ id := fun hmem => (hsuits.plain _ hmem).2 rfl
        rcases htext' with rfl | rfl
        · exact hid
        · exact fun hmem => hid (List.mem_of_mem_take hmem)
      have hargument : (idOfArgument text).map Prod.fst = .ok (id.take 15) := by
        rw [idOfArgument_eq hne hslash, ← hcut]
        rfl
      refine ⟨hargument, ?_⟩
      rintro minor percent ⟨⟨device, hdevice⟩, ⟨share, hshare⟩⟩ env
      apply group_read hdevice hshare
      simpa using hargument
  · intro content id hid
    obtain ⟨hne, hlength, hslash⟩ := (IsId.membership hid).bounds
    refine ⟨List.length_pos_iff.2 hne, hlength, hslash, idOfArgument_eq_self hne hlength hslash, ?_⟩
    intro config rest minor hlead hrest hsize
    exact isRegionName_tokenName minor hlead hrest hsize hslash hlength

/-- A container that a runtime and the init system mark, behind a line of another hierarchy. -/
theorem ids_agree_marked :
    let content :=
      "0::/b/cafebabe\n4:cpu,devices:/a b/docker-0123456789abcdef0123.scope\n".toList
    let short := "0123456789abcde"
    idOfMembership? content = some short.toList ∧
    (∀ text ∈ ["0123456789abcdef0123", short],
      (idOfArgument text.toList).map Prod.fst = .ok short.toList ∧
      (CommandLine.read ["--", "0", text, "30"] fun _ => none).map (·.1.group) = .ok short) ∧
    idOfArgument short.toList = .ok (short.toList, []) ∧
    Shared.isRegionName (RegionConfig.tokenName {} 0 short) = true := by
  intro content short
  let id := "0123456789abcdef0123".toList
  let decoration : Decoration := ⟨some .docker, true⟩
  let row : Row :=
    ⟨['4'], ["cpu".toList, "devices".toList], "/a b/docker-0123456789abcdef0123.scope".toList,
      by decide, by decide⟩
  have hsuits : decoration.Suits id := by
    refine ⟨by decide, List.all_iff_forall_prop.1 (by decide), ?_, ?_⟩
    · intro hnone
      cases hnone
    · intro hfalse
      cases hfalse
  have hlines : Lines content (["0::/b/cafebabe".toList] ++ row.text :: []) :=
    lines_eq_iff.1 (by decide)
  have hbefore : ∀ line ∈ ["0::/b/cafebabe".toList], ¬ ListsDevices line := by
    intro line hline
    rw [← devicesPath?_eq_none_iff, List.mem_singleton.1 hline]
    decide
  have hends : EndsIn row.path (decoration.segment id) := .inr ⟨"/a b".toList, rfl⟩
  have hshort : id.take 15 = short.toList := by decide
  obtain ⟨hid, hgiven⟩ := ids_agree.1 content row.path id decoration hsuits
    (.devices hlines (by decide) hbefore) hends
  rw [hshort] at hid hgiven
  obtain ⟨-, -, -, hself, hname⟩ := ids_agree.2 content _ hid
  have hstart : Startable "0" "30" := ⟨⟨0, by decide⟩, ⟨30, by decide⟩⟩
  refine ⟨hid, ?_, hself, ?_⟩
  · intro text htext
    have hmem : text.toList ∈ [id, short.toList] := by
      rcases List.mem_cons.1 htext with rfl | htext
      · exact List.mem_cons_self
      · rw [List.mem_singleton.1 htext]
        exact List.mem_cons_of_mem _ List.mem_cons_self
    obtain ⟨hargument, hread⟩ := hgiven text.toList hmem
    have hgroup := hread "0" "30" hstart fun _ => none
    rw [String.ofList_toList, String.ofList_toList] at hgroup
    exact ⟨hargument, hgroup⟩
  · have hregion := hname {} "cuda_hook".toList 0 (by decide) (by decide) (by decide)
    rwa [String.ofList_toList] at hregion

end GpuQuota.Settings.ControlGroup
