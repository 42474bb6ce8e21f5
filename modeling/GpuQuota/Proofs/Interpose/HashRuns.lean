import GpuQuota.Interpose.GnuHash
import Mathlib.Algebra.Group.Nat.Defs
import Mathlib.Data.List.TakeWhile

/-!
# The runs of a hash table

The hashed symbols of a module stand bucket by bucket, behind those that are not hashed. The chain
words of one bucket's symbols make a run, whose end is marked in its last word (`GnuHash.IsRun`),
and a bucket holds where its run starts (`GnuHash.starts`). No bucket needs to hold the last start,
but the highest one does, and the symbols end where its run ends.

* `GnuHash.Runs.highest_of_concat`: the highest bucket starts the last run.
* `GnuHash.LaidOut.counting`, `GnuHash.Counting.unique`: a walk from there, word by word, comes to
  the end of the symbols (`GnuHash.Counting`).
* `GnuHash.LaidOut.symbolCount_eq`: so the symbols are counted.
* `GnuHash.Stored.decode?_eq`, `GnuHash.Stored.symbols_counted`: the table is found in memory, and
  the count reads no word behind it.
-/

namespace GpuQuota.Interpose

namespace GnuHash

/-- The chain words of one bucket's symbols: the last one is marked, and no other. -/
def IsRun (words : List UInt32) : Prop :=
  ∃ before last, words = before ++ [last] ∧ isLast last = true ∧
    ∀ word ∈ before, isLast word = false

/-- Where each of some runs starts, if the first one starts at `first`. -/
def starts (first : Nat) : List (List UInt32) → List Nat
  | [] => []
  | run :: runs => first :: starts (first + run.length) runs

/-- The runs of a table: they fill the chain from its beginning, and the buckets that are not empty
hold their starts, in any order. -/
structure Runs (table : GnuHash) (runs : List (List UInt32)) : Prop where
  /-- The last word of a run is marked, and no other. -/
  isRun : ∀ run ∈ runs, IsRun run
  /-- Behind the runs the chain may go on with anything. -/
  chain : runs.flatten <+: table.chain
  buckets : (table.buckets.filter (· ≠ 0)).Perm (starts table.symbolOffset runs)

/-- A table for so many symbols. The first one is never hashed, so that zero stands for an empty
bucket. -/
structure LaidOut (table : GnuHash) (count : Nat) : Prop where
  offset_pos : 0 < table.symbolOffset
  /-- The symbols are those left out of the table and those in its runs. -/
  runs : ∃ runs, table.Runs runs ∧ count = table.symbolOffset + runs.flatten.length

/-- How a table stands in memory: behind the numbers of buckets, of symbols left out and of filter
words comes a filter, in words of double width, then the buckets and the chain. -/
inductive Stored : List UInt32 → GnuHash → Prop where
  | intro {bucketCount symbolOffset filterCount : UInt32} (shift : UInt32)
      {filter buckets : List UInt32} (chain : List UInt32) :
      filter.length = 2 * filterCount.toNat → buckets.length = bucketCount.toNat →
      Stored (bucketCount :: symbolOffset :: filterCount :: shift :: (filter ++ (buckets ++ chain)))
        ⟨symbolOffset.toNat, buckets.map UInt32.toNat, chain⟩

variable {table : GnuHash} {runs : List (List UInt32)} {run : List UInt32}

/-- **A table that is stored is read as it is.** -/
theorem Stored.decode?_eq {words : List UInt32} (h : Stored words table) :
    decode? words = some table := by
  cases h with
  | intro shift chain hfilter hbuckets =>
    rw [decode?, ← hfilter, ← hbuckets, List.drop_left, List.take_left, List.drop_left]

/-- Where the words are wide enough, a table is stored as its words. -/
theorem stored_words (hoffset : table.symbolOffset < 2 ^ 32)
    (hcount : table.buckets.length < 2 ^ 32)
    (hbuckets : ∀ bucket ∈ table.buckets, bucket < 2 ^ 32) : Stored table.words table := by
  have hback : ∀ n < 2 ^ 32, (UInt32.ofNat n).toNat = n := fun n hn => UInt32.toNat_ofNat_of_lt hn
  have hread : (table.buckets.map UInt32.ofNat).map UInt32.toNat = table.buckets := by
    rw [List.map_map]
    exact (List.map_congr_left fun bucket hbucket => hback bucket (hbuckets bucket hbucket)).trans
      (List.map_id _)
  have hlength : (table.buckets.map UInt32.ofNat).length =
      (UInt32.ofNat table.buckets.length).toNat := by
    rw [List.length_map, hback _ hcount]
  have hstored := @Stored.intro (UInt32.ofNat table.buckets.length)
    (UInt32.ofNat table.symbolOffset) 0 0 [] _ table.chain rfl hlength
  rw [hread, hback _ hoffset] at hstored
  exact hstored

/-! ## A table with one bucket

All hashed symbols are in one run, of which only the last word is marked. Modules that are laid out
have such a table (`Image.ofSymbols`). -/

theorem stored_single {left : Nat} (hashed : Nat) (h : left < 2 ^ 32) :
    Stored (single left hashed).words (single left hashed) := by
  refine stored_words h (by simp [single]) fun bucket hbucket => ?_
  rw [single, List.mem_singleton] at hbucket
  split at hbucket <;> omega

/-- A table of one run is laid out for the symbols left out and those hashed. -/
theorem laidOut_single {left : Nat} (hashed : Nat) (h : 0 < left) :
    (single left hashed).LaidOut (left + hashed) := by
  refine ⟨h, ?_⟩
  rcases Nat.eq_zero_or_pos hashed with rfl | hpos
  · exact ⟨[], ⟨by simp, by simp, by simp [single, starts]⟩, rfl⟩
  · have hrun : IsRun (List.replicate (hashed - 1) 0 ++ [1]) :=
      ⟨_, 1, rfl, rfl, fun word hword => by rw [List.eq_of_mem_replicate hword]; rfl⟩
    refine ⟨[_], ⟨by simpa using hrun, ?_, ?_⟩, ?_⟩
    · simp [single, hpos.ne']
    · simp [single, starts, hpos.ne', h.ne']
    · simp [single]
      omega

/-! ## The highest bucket

Buckets hold the starts of the runs in any order. The runs are not empty, so the last one starts
highest, and the maximum of the buckets is its start. -/

/-- The maximum of some values is the one that bounds them all. -/
theorem foldl_max_eq {values : List Nat} {start highest : Nat} (hstart : start ≤ highest)
    (hle : ∀ value ∈ values, value ≤ highest) (hmem : highest ∈ values ∨ start = highest) :
    values.foldl max start = highest := by
  induction values generalizing start with
  | nil => exact hmem.resolve_left List.not_mem_nil
  | cons value values ih =>
    have hvalue := hle value List.mem_cons_self
    refine ih (Nat.max_le.2 ⟨hstart, hvalue⟩)
      (fun other hother => hle other (List.mem_cons_of_mem _ hother)) ?_
    rcases hmem with hmem | rfl
    · rcases List.mem_cons.1 hmem with rfl | hmem
      · exact .inr (Nat.max_eq_right hstart)
      · exact .inl hmem
    · exact .inr (Nat.max_eq_left hvalue)

theorem starts_concat (first : Nat) (runs : List (List UInt32)) (run : List UInt32) :
    starts first (runs ++ [run]) = starts first runs ++ [first + runs.flatten.length] := by
  induction runs generalizing first with
  | nil => rfl
  | cons other runs ih =>
    rw [List.cons_append, starts, starts, ih, List.flatten_cons, List.length_append, Nat.add_assoc,
      List.cons_append]

/-- A run starts behind the first start, and within the chain. -/
theorem le_of_mem_starts {first start : Nat} (h : start ∈ starts first runs) :
    first ≤ start ∧ start ≤ first + runs.flatten.length := by
  induction runs generalizing first with
  | nil => cases h
  | cons run runs ih =>
    rw [List.flatten_cons, List.length_append]
    rcases List.mem_cons.1 h with rfl | h
    · omega
    · have := ih h
      omega

/-- There are no runs where all buckets are empty, and only there. -/
theorem Runs.eq_nil_iff (h : table.Runs runs) :
    runs = [] ↔ ∀ bucket ∈ table.buckets, bucket = 0 := by
  have hnone : table.buckets.filter (· ≠ 0) = [] ↔ ∀ bucket ∈ table.buckets, bucket = 0 := by
    rw [List.filter_eq_nil_iff]
    simp
  rw [← hnone]
  cases runs with
  | nil => exact iff_of_true rfl h.buckets.eq_nil
  | cons run runs =>
    refine iff_of_false (List.cons_ne_nil _ _) fun hempty => ?_
    have hstarts := hempty ▸ h.buckets
    exact List.cons_ne_nil _ _ hstarts.symm.eq_nil

/-- Without runs the highest bucket is empty. -/
theorem Runs.highest_of_nil (h : table.Runs []) : table.buckets.foldl max 0 = 0 :=
  foldl_max_eq (Nat.le_refl 0)
    (fun bucket hbucket => (h.eq_nil_iff.1 rfl bucket hbucket).le) (.inr rfl)

/-- The highest bucket holds the start of the last run. -/
theorem Runs.highest_of_concat (h : table.Runs (runs ++ [run])) :
    table.buckets.foldl max 0 = table.symbolOffset + runs.flatten.length := by
  have hmem : ∀ bucket, bucket ∈ table.buckets ∧ bucket ≠ 0 ↔
      bucket ∈ starts table.symbolOffset runs ∨
        bucket = table.symbolOffset + runs.flatten.length := by
    intro bucket
    have hperm := h.buckets.mem_iff (a := bucket)
    rw [starts_concat, List.mem_append, List.mem_singleton] at hperm
    rw [← hperm, List.mem_filter, decide_eq_true_iff]
  refine foldl_max_eq (Nat.zero_le _) (fun bucket hbucket => ?_) (.inl ((hmem _).2 (.inr rfl)).1)
  rcases Nat.eq_zero_or_pos bucket with rfl | hbucketPos
  · exact Nat.zero_le _
  · rcases (hmem bucket).1 ⟨hbucket, hbucketPos.ne'⟩ with hstart | rfl
    · exact (le_of_mem_starts hstart).2
    · exact Nat.le_refl _

/-! ## The walk

The program walks from the highest bucket to the first marked word. The walk is unique, ends within
the chain, and its end is the count. -/

/-- The chain word of a symbol. One that is not hashed has none. -/
def chainWord? (table : GnuHash) (index : Nat) : Option UInt32 :=
  if index < table.symbolOffset then none else table.chain[index - table.symbolOffset]?

/-- A walk along the chain, word by word, from a symbol on. It reads the words of some symbols, the
last of which is marked, and comes to the index behind them. -/
inductive Walk (table : GnuHash) : Nat → List Nat → Nat → Prop where
  /-- The marked word is the last one that is read. -/
  | stop {index : Nat} {word : UInt32} : table.chainWord? index = some word → isLast word = true →
      Walk table index [index] (index + 1)
  /-- Behind any other the walk goes on. -/
  | pass {index : Nat} {word : UInt32} {later : List Nat} {count : Nat} :
      table.chainWord? index = some word → isLast word = false →
      Walk table (index + 1) later count → Walk table index (index :: later) count

/-- How the symbols are counted, with those whose chain words are read: none where every bucket is
below the hashed symbols, else those that a walk from the highest bucket reads. -/
inductive Counting (table : GnuHash) : List Nat → Nat → Prop where
  /-- No chain word is read, and the symbols left out are all there are. -/
  | unhashed : table.buckets.foldl max 0 < table.symbolOffset →
      Counting table [] table.symbolOffset
  /-- The walk starts at the highest bucket, where the last run starts. -/
  | walked {visited : List Nat} {count : Nat} : table.symbolOffset ≤ table.buckets.foldl max 0 →
      table.Walk (table.buckets.foldl max 0) visited count → Counting table visited count

/-- The chain from a symbol on begins with its word. -/
theorem drop_of_chainWord? {index : Nat} {word : UInt32} (h : table.chainWord? index = some word) :
    table.chain.drop (index - table.symbolOffset) =
      word :: table.chain.drop (index + 1 - table.symbolOffset) := by
  rw [chainWord?] at h
  split at h
  · cases h
  · next hle =>
    obtain ⟨hlt, rfl⟩ := List.getElem?_eq_some_iff.1 h
    rw [List.drop_eq_getElem_cons hlt, Nat.sub_add_comm (Nat.le_of_not_lt hle)]

/-- The word of a symbol stands as far into the chain as the symbol is behind those left out. -/
theorem chainWord?_of_eq {index : Nat} {word : UInt32} {before behind : List UInt32}
    (hindex : index = table.symbolOffset + before.length)
    (h : table.chain = before ++ word :: behind) : table.chainWord? index = some word := by
  rw [chainWord?, if_neg (by omega), hindex, Nat.add_sub_cancel_left, h,
    List.getElem?_append_right (Nat.le_refl _), Nat.sub_self, List.getElem?_cons_zero]

namespace Walk

variable {index count : Nat} {visited : List Nat}

/-- Unmarked words are passed one by one, and a marked one behind them ends the walk. -/
theorem of_unmarked {before unmarked behind : List UInt32} {last : UInt32}
    (hindex : index = table.symbolOffset + before.length)
    (hchain : table.chain = before ++ (unmarked ++ last :: behind)) (hlast : isLast last = true)
    (hunmarked : ∀ word ∈ unmarked, isLast word = false) :
    ∃ visited, table.Walk index visited (index + unmarked.length + 1) := by
  induction unmarked generalizing index before with
  | nil => exact ⟨_, .stop (chainWord?_of_eq hindex hchain) hlast⟩
  | cons word unmarked ih =>
    have hnext : index + 1 = table.symbolOffset + (before ++ [word]).length := by
      rw [List.length_append, List.length_singleton]
      omega
    have hrest : table.chain = before ++ [word] ++ (unmarked ++ last :: behind) := by
      rw [hchain, List.append_assoc, List.singleton_append, List.cons_append]
    obtain ⟨later, hlater⟩ := ih hnext hrest fun other hother =>
      hunmarked other (List.mem_cons_of_mem _ hother)
    have hword := hunmarked word List.mem_cons_self
    rw [List.length_cons, Nat.add_comm unmarked.length, ← Nat.add_assoc]
    exact ⟨_, .pass (chainWord?_of_eq hindex hchain) hword hlater⟩

/-- No symbol is left out on the way. -/
theorem visited_eq (h : table.Walk index visited count) :
    visited = List.range' index (count - index) ∧ index < count := by
  induction h with
  | stop _ _ => simp
  | @pass index _ later count _ _ _ ih =>
    obtain ⟨rfl, hlt⟩ := ih
    refine ⟨?_, by omega⟩
    rw [show count - index = count - (index + 1) + 1 by omega, List.range'_succ]

/-- A walk counts the words that are not marked. -/
theorem length_takeWhile (h : table.Walk index visited count) :
    index + ((table.chain.drop (index - table.symbolOffset)).takeWhile
      fun word => !isLast word).length + 1 = count := by
  induction h with
  | stop hword hlast =>
    rw [drop_of_chainWord? hword, List.takeWhile_cons_of_neg (by simp [hlast])]
    rfl
  | pass hword hlast _ ih =>
    rw [drop_of_chainWord? hword, List.takeWhile_cons_of_pos (by simp [hlast]), List.length_cons]
    omega

end Walk

namespace Counting

variable {count : Nat} {visited : List Nat}

/-- The program counts as the walk does. -/
theorem symbolCount_eq (h : table.Counting visited count) : table.symbolCount = count := by
  rw [symbolCount]
  cases h with
  | unhashed hlt => exact if_pos hlt
  | walked hle hwalk => exact (if_neg (Nat.not_lt.2 hle)).trans hwalk.length_takeWhile

/-- Only words of hashed symbols are read, and none behind the symbols that are counted. -/
theorem of_mem (h : table.Counting visited count) :
    ∀ index ∈ visited, table.symbolOffset ≤ index ∧ index < count := by
  cases h with
  | unhashed => exact fun _ hindex => absurd hindex List.not_mem_nil
  | walked hle hwalk =>
    intro index hindex
    rw [hwalk.visited_eq.1, List.mem_range'_1] at hindex
    omega

/-- Symbols are counted in one way only. -/
theorem unique {other : List Nat} {result : Nat} (h : table.Counting visited count)
    (hother : table.Counting other result) : other = visited ∧ result = count := by
  obtain rfl : result = count := hother.symbolCount_eq.symm.trans h.symbolCount_eq
  refine ⟨?_, rfl⟩
  cases h with
  | unhashed hlt =>
    cases hother with
    | unhashed => rfl
    | walked hle _ => omega
  | walked hle hwalk =>
    cases hother with
    | unhashed hlt => omega
    | walked _ hother => rw [hwalk.visited_eq.1, hother.visited_eq.1]

end Counting

/-- In a table that is laid out, the count comes to an end behind the last symbol. -/
theorem LaidOut.counting {count : Nat} (h : table.LaidOut count) :
    ∃ visited, table.Counting visited count := by
  obtain ⟨runs, hruns, rfl⟩ := h.runs
  rcases List.eq_nil_or_concat runs with rfl | ⟨earlier, run, rfl⟩
  · refine ⟨[], .unhashed ?_⟩
    rw [hruns.highest_of_nil]
    exact h.offset_pos
  · rw [List.concat_eq_append] at hruns ⊢
    obtain ⟨behind, hchain⟩ := hruns.chain
    obtain ⟨unmarked, last, rfl, hlast, hunmarked⟩ :=
      hruns.isRun run (List.mem_append_right _ List.mem_cons_self)
    have hstored : table.chain = earlier.flatten ++ (unmarked ++ last :: behind) := by
      rw [← hchain]
      simp
    have hcount : table.symbolOffset + (earlier ++ [unmarked ++ [last]]).flatten.length =
        table.symbolOffset + earlier.flatten.length + unmarked.length + 1 := by
      simp [Nat.add_assoc]
    obtain ⟨visited, hwalk⟩ := Walk.of_unmarked rfl hstored hlast hunmarked
    rw [← hcount, ← hruns.highest_of_concat] at hwalk
    have hle : table.symbolOffset ≤ table.buckets.foldl max 0 := by
      rw [hruns.highest_of_concat]
      exact Nat.le_add_right _ _
    exact ⟨visited, .walked hle hwalk⟩

/-- **The symbols are counted**: the count is one past the last symbol, and where none is hashed it
is the number of those that are left out. -/
theorem LaidOut.symbolCount_eq {count : Nat} (h : table.LaidOut count) :
    table.symbolCount = count := by
  obtain ⟨visited, hcounting⟩ := h.counting
  exact hcounting.symbolCount_eq

/-- No symbol is hashed where all buckets are empty, and only there. -/
theorem LaidOut.eq_offset_iff {count : Nat} (h : table.LaidOut count) :
    count = table.symbolOffset ↔ ∀ bucket ∈ table.buckets, bucket = 0 := by
  obtain ⟨runs, hruns, rfl⟩ := h.runs
  rw [← hruns.eq_nil_iff, Nat.add_eq_left, List.length_eq_zero_iff, List.flatten_eq_nil_iff]
  refine ⟨fun hempty => List.eq_nil_iff_forall_not_mem.2 fun run hrun => ?_, fun hnil => ?_⟩
  · -- a run has at least its last word
    obtain ⟨before, last, rfl, -⟩ := hruns.isRun run hrun
    exact List.append_ne_nil_of_right_ne_nil before (List.cons_ne_nil last []) (hempty _ hrun)
  · rw [hnil]
    exact fun _ hrun => absurd hrun List.not_mem_nil

/-- **A table in memory tells how many symbols there are.** The count comes to an end in one way
only. It reads the chain words of hashed symbols that exist, and no others, and finds as many
symbols as the table was laid out for; these are the symbols that are left out, and no more, just
where all buckets are empty. -/
theorem Stored.symbols_counted {words : List UInt32} {count : Nat} (hstored : Stored words table)
    (h : table.LaidOut count) :
    (decode? words).map symbolCount = some count ∧
      (∃ visited, (∀ index ∈ visited, table.symbolOffset ≤ index ∧ index < count) ∧
        ∀ other result, table.Counting other result ↔ other = visited ∧ result = count) ∧
      (table.symbolCount = table.symbolOffset ↔ ∀ bucket ∈ table.buckets, bucket = 0) := by
  refine ⟨?_, ?_, ?_⟩
  · rw [hstored.decode?_eq, Option.map_some, h.symbolCount_eq]
  · obtain ⟨visited, hcounting⟩ := h.counting
    refine ⟨visited, hcounting.of_mem, fun other result => ⟨hcounting.unique, ?_⟩⟩
    rintro ⟨rfl, rfl⟩
    exact hcounting
  · rw [h.symbolCount_eq, h.eq_offset_iff]

/-- Three symbols are left out and four are hashed, in two of three buckets. The runs do not stand
in the order of their buckets. -/
def threeBuckets : GnuHash := ⟨3, [5, 0, 3], [10, 11, 20, 31, 98]⟩

/-- The highest bucket is the first one, and the count ends behind its run. -/
theorem symbols_counted_threeBuckets :
    Stored [3, 3, 1, 6, 129, 0, 5, 0, 3, 10, 11, 20, 31, 98] threeBuckets ∧
      threeBuckets.LaidOut 7 ∧
      (decode? [3, 3, 1, 6, 129, 0, 5, 0, 3, 10, 11, 20, 31, 98]).map symbolCount = some 7 := by
  have hstored : Stored [3, 3, 1, 6, 129, 0, 5, 0, 3, 10, 11, 20, 31, 98] threeBuckets :=
    @Stored.intro 3 3 1 6 [129, 0] [5, 0, 3] [10, 11, 20, 31, 98] rfl rfl
  have hruns : threeBuckets.Runs [[10, 11], [20, 31]] := by
    have hfirst : IsRun [10, 11] := ⟨[10], 11, rfl, rfl, List.forall_mem_singleton.2 rfl⟩
    have hsecond : IsRun [20, 31] := ⟨[20], 31, rfl, rfl, List.forall_mem_singleton.2 rfl⟩
    exact ⟨List.forall_mem_cons.2 ⟨hfirst, List.forall_mem_singleton.2 hsecond⟩, ⟨[98], rfl⟩,
      by decide⟩
  have hlaid : threeBuckets.LaidOut 7 := ⟨by decide, _, hruns, rfl⟩
  exact ⟨hstored, hlaid, (Stored.symbols_counted hstored hlaid).1⟩

end GnuHash

end GpuQuota.Interpose
