import GpuQuota.Proofs.Number.SinglePrecision
import GpuQuota.Proofs.Text.Cutting
import GpuQuota.Settings.Quota

/-!
# How quotas are written

A quota is a text `minor=amount`. What counts as a minor number and as an amount is said here by a
grammar, apart from how a text is read: whole numbers, numbers with a point, and the letter of a
unit with whatever follows it. Reading succeeds on the texts of the grammar and on no others.

* `Number.Natural`, `Size.Numeral`, `Size.Suffix`: the grammar.
* `Number.readUnsigned_eq_ok_iff`, `Size.fraction?_eq_some_iff`, `Size.unit?_eq_some_iff`: each part
  is read by its rule.
* `Size.read?_eq_some_iff`: sizes, and `Size.bytesOf_natCast`: whole units are counted exactly.
* `quotas_read_as_written`: the result.
-/

namespace GpuQuota.Number

/-! ## Whole numbers

The reader takes one optional plus sign and then goes from digit to digit. The grammar says no more
than that there are digits and nothing else. Zeros in front are digits as any others. -/

/-- A whole number as it may be written: digits, at least one, with or without a plus sign. -/
inductive Natural : List Char → ℕ → Prop where
  /-- Digits only. -/
  | plain {digits : List Char} : digits ≠ [] → (∀ c ∈ digits, c.isDigit) →
      Natural digits (Nat.ofDigitChars 10 digits 0)
  /-- A plus sign, then digits. -/
  | signed {digits : List Char} : digits ≠ [] → (∀ c ∈ digits, c.isDigit) →
      Natural ('+' :: digits) (Nat.ofDigitChars 10 digits 0)

theorem Natural.ne_nil {s : List Char} {n : ℕ} (h : Natural s n) : s ≠ [] := by
  cases h with
  | plain hne _ => exact hne
  | signed _ _ => exact List.cons_ne_nil _ _

/-- The code's test on a character is the library's, and the value its distance from zero. -/
theorem digit?_eq (c : Char) :
    digit? c = if c.isDigit then some (c.toNat - '0'.toNat) else none := by
  have hdigit : ('0' ≤ c ∧ c ≤ '9') ↔ c.isDigit = true := by
    simp [Char.isDigit, Char.le_def]
  simp only [digit?, hdigit]

/-- What has a value as a digit is what the library calls a digit. -/
theorem isSome_digit? (c : Char) : (digit? c).isSome = c.isDigit := by
  rw [digit?_eq]
  split <;> simp_all

/-- The value that is added up from the left is the library's value of the digits. -/
theorem valueFrom_eq {s : List Char} (h : ∀ c ∈ s, c.isDigit) (value : ℕ) :
    valueFrom value s = Nat.ofDigitChars 10 s value := by
  induction s generalizing value with
  | nil => rfl
  | cons c s ih =>
    have hhead : digit? c = some (c.toNat - '0'.toNat) := by
      rw [digit?_eq, if_pos (h c List.mem_cons_self)]
    rw [Nat.ofDigitChars_cons, ← ih (fun d hd => h d (List.mem_cons_of_mem _ hd)), valueFrom,
      List.foldl_cons, hhead, Option.getD_some, Nat.mul_comm]
    rfl

/-- Digits are read if there is nothing else and their value is within the bound. -/
theorem digits_zero_eq_ok_iff {bound n : ℕ} {excess : Malformed} {s : List Char} :
    digits bound excess 0 s = .ok n ↔
      (∀ c ∈ s, c.isDigit) ∧ n = Nat.ofDigitChars 10 s 0 ∧ n ≤ bound := by
  simp only [digits_eq_ok_iff (Nat.zero_le bound), isSome_digit?]
  constructor
  · rintro ⟨hdigits, hvalue, hbound⟩
    exact ⟨hdigits, hvalue.trans (valueFrom_eq hdigits 0), hbound⟩
  · rintro ⟨hdigits, hvalue, hbound⟩
    exact ⟨hdigits, hvalue.trans (valueFrom_eq hdigits 0).symm, hbound⟩

/-- **A whole number is read by its rule**, with or without a sign, if it is within the bound. -/
theorem readUnsigned_eq_ok_iff {bound n : ℕ} {s : List Char} :
    readUnsigned bound s = .ok n ↔ Natural s n ∧ n ≤ bound := by
  have hplus : ('+' : Char).isDigit ≠ true := by decide
  rw [readUnsigned.eq_def]
  -- the empty text, a sign alone, a sign and digits, digits
  split
  · constructor
    · intro h
      cases h
    · rintro ⟨⟨hne, -⟩, -⟩
      exact absurd rfl hne
  · constructor
    · intro h
      cases h
    · rintro ⟨⟨-, hdigits⟩ | ⟨hne, -⟩, -⟩
      · exact absurd (hdigits '+' List.mem_cons_self) hplus
      · exact absurd rfl hne
  · next rest hrest =>
    rw [digits_zero_eq_ok_iff]
    constructor
    · rintro ⟨hdigits, rfl, hbound⟩
      exact ⟨.signed (by simpa using hrest) hdigits, hbound⟩
    · rintro ⟨⟨-, hdigits⟩ | ⟨-, hdigits⟩, hbound⟩
      · exact absurd (hdigits '+' List.mem_cons_self) hplus
      · exact ⟨hdigits, rfl, hbound⟩
  · next hempty _ hsigned =>
    rw [digits_zero_eq_ok_iff]
    constructor
    · rintro ⟨hdigits, rfl, hbound⟩
      exact ⟨.plain (by simpa using hempty) hdigits, hbound⟩
    · rintro ⟨⟨-, hdigits⟩ | ⟨-, -⟩, hbound⟩
      · exact ⟨hdigits, rfl, hbound⟩
      · exact absurd rfl (hsigned _)

end GpuQuota.Number

namespace GpuQuota.Settings

open GpuQuota.Text GpuQuota.Number

/-! ## Sizes

Where a number ends and its unit starts is not a matter of the grammar: the reader cuts behind the
last digit or point. No unit starts with either (`Suffix.takeWhile_eq`), so that a text of the
grammar is cut where it was put together. -/

namespace Size

/-- A number of units: digits, at least one, with at most one point among them. -/
inductive Numeral : List Char → ℚ → Prop where
  /-- No point. -/
  | whole {digits : List Char} : digits ≠ [] → (∀ c ∈ digits, c.isDigit) →
      Numeral digits (Nat.ofDigitChars 10 digits 0)
  /-- A point with digits on one side at least. -/
  | pointed {before behind : List Char} : before ++ behind ≠ [] →
      (∀ c ∈ before ++ behind, c.isDigit) →
      Numeral (before ++ '.' :: behind)
        (Nat.ofDigitChars 10 (before ++ behind) 0 / 10 ^ behind.length)

/-- The letters of the units, and which power of two each stands for. -/
def letters : List (Char × ℕ) :=
  [('K', 10), ('k', 10), ('M', 20), ('m', 20), ('G', 30), ('g', 30), ('T', 40), ('t', 40)]

/-- What stands behind a number, and the bytes of the unit that it names: nothing, or a letter and
anything at all behind that. -/
inductive Suffix : List Char → ℕ → Prop where
  /-- No unit is named, which means bytes. -/
  | bytes : Suffix [] 1
  /-- The first letter decides. -/
  | letter {c : Char} {exponent : ℕ} (tail : List Char) : (c, exponent) ∈ letters →
      Suffix (c :: tail) (2 ^ exponent)

variable {s numeral suffix : List Char} {value : ℚ} {unit : ℕ}

theorem Numeral.nonneg (h : Numeral s value) : 0 ≤ value := by
  cases h <;> positivity

theorem Numeral.ne_nil (h : Numeral s value) : s ≠ [] := by
  cases h with
  | whole hne _ => exact hne
  | pointed _ _ => simp

theorem not_isDigit_point : ('.' : Char).isDigit ≠ true := by decide

/-- **A number of units is read by its rule.** A point is looked for first; where there is one, the
digits on both sides are read as one number and divided by a power of ten. -/
theorem fraction?_eq_some_iff : fraction? s = some value ↔ Numeral s value := by
  have hall : ∀ digits : List Char, (digits.all fun c => (digit? c).isSome) = true ↔
      ∀ c ∈ digits, c.isDigit = true := by
    intro digits
    simp only [List.all_eq_true, isSome_digit?]
  have hten : ∀ n : ℕ, ((powerOfTen n : ℕ) : ℚ) = 10 ^ n := by
    intro n
    rw [powerOfTen, Nat.pow_eq, Nat.cast_pow, Nat.cast_ofNat]
  simp only [fraction?]
  rcases hcut : cutFirst '.' s with _ | ⟨before, behind⟩
  · have hpoint := cutFirst_eq_none_iff.1 hcut
    simp only [Option.getD_none, List.append_nil, List.length_nil, hall,
      Option.ite_none_right_eq_some, Option.some.injEq, Rat.mkRat_eq_div, hten]
    constructor
    · rintro ⟨⟨hne, hdigits⟩, rfl⟩
      rw [valueFrom_eq hdigits, pow_zero, div_one]
      exact .whole hne hdigits
    · rintro (⟨hne, hdigits⟩ | ⟨-, -⟩)
      · rw [valueFrom_eq hdigits, pow_zero, div_one]
        exact ⟨⟨hne, hdigits⟩, rfl⟩
      · exact absurd (by simp) hpoint
  · obtain ⟨rfl, hpoint⟩ := cutFirst_eq_some_iff.1 hcut
    simp only [Option.getD_some, hall, Option.ite_none_right_eq_some, Option.some.injEq,
      Rat.mkRat_eq_div, hten]
    constructor
    · rintro ⟨⟨hne, hdigits⟩, rfl⟩
      rw [valueFrom_eq hdigits]
      exact .pointed hne hdigits
    · intro h
      -- of the two rules only the one with a point fits, and the point can only be this one
      generalize htext : before ++ '.' :: behind = text at h
      cases h with
      | whole hne hdigits =>
        exact absurd (hdigits '.' (by rw [← htext]; simp)) not_isDigit_point
      | @pointed first rest hne hdigits =>
        have hfirst : '.' ∉ first :=
          fun hmem => not_isDigit_point (hdigits '.' (List.mem_append_left _ hmem))
        have hsame : cutFirst '.' (first ++ '.' :: rest) = some (before, behind) := by
          rw [← htext, hcut]
        obtain ⟨rfl, rfl⟩ : first = before ∧ rest = behind := by
          rw [cutFirst_eq_some_iff.2 ⟨rfl, hfirst⟩] at hsame
          simpa using hsame
        rw [valueFrom_eq hdigits]
        exact ⟨⟨hne, hdigits⟩, rfl⟩

/-- **A unit is read by its rule**: nothing stands for bytes, and only the first letter counts. -/
theorem unit?_eq_some_iff : unit? s = some unit ↔ Suffix s unit := by
  have hletter : ∀ {c exponent}, (c, exponent) ∈ letters → ∀ tail,
      Suffix (c :: tail) (1 <<< exponent) := by
    intro c exponent h tail
    rw [Nat.one_shiftLeft]
    exact .letter tail h
  constructor
  · intro h
    unfold unit? at h
    split at h
    · obtain rfl := Option.some.inj h
      exact .bytes
    iterate 8
      · obtain rfl := Option.some.inj h
        exact hletter (by decide) _
    · cases h
  · intro h
    cases h with
    | bytes => rfl
    | letter tail h =>
      simp only [letters, List.mem_cons, Prod.mk.injEq, List.not_mem_nil, or_false] at h
      rcases h with ⟨rfl, rfl⟩ | ⟨rfl, rfl⟩ | ⟨rfl, rfl⟩ | ⟨rfl, rfl⟩ | ⟨rfl, rfl⟩ | ⟨rfl, rfl⟩ |
        ⟨rfl, rfl⟩ | ⟨rfl, rfl⟩ <;> rfl

/-- A number goes as far as there are digits and points. -/
theorem Numeral.all (h : Numeral s value) : ∀ c ∈ s, isNumeral c = true := by
  intro c hc
  rw [isNumeral, isSome_digit?]
  cases h with
  | whole _ hdigits => rw [hdigits c hc, Bool.true_or]
  | pointed _ hdigits =>
    rcases List.mem_append.1 hc with hbefore | hbehind
    · rw [hdigits c (List.mem_append_left _ hbefore), Bool.true_or]
    · rcases List.mem_cons.1 hbehind with rfl | hbehind
      · rfl
      · rw [hdigits c (List.mem_append_right _ hbehind), Bool.true_or]

/-- What follows it starts with neither. -/
theorem Suffix.takeWhile_eq (h : Suffix s unit) : s.takeWhile isNumeral = [] := by
  cases h with
  | bytes => rfl
  | letter tail h =>
    have hletters : ∀ pair ∈ letters, isNumeral pair.1 = false := by decide
    rw [List.takeWhile_cons_of_neg (by simp [hletters _ h])]

/-- **A size is read if it is a number with a unit right behind it**, and blanks around the two. -/
theorem read?_eq_some_iff {bytes : UInt64} :
    read? s = some bytes ↔ ∃ numeral suffix value unit, trim s = numeral ++ suffix ∧
      Numeral numeral value ∧ Suffix suffix unit ∧ bytes = UInt64.ofNat (bytesOf value unit) := by
  simp only [read?, bind, pure, Option.bind_eq_some_iff, Option.some.injEq, fraction?_eq_some_iff,
    unit?_eq_some_iff]
  constructor
  · rintro ⟨value, hnumeral, unit, hsuffix, rfl⟩
    exact ⟨_, _, value, unit, List.takeWhile_append_dropWhile.symm, hnumeral, hsuffix, rfl⟩
  · rintro ⟨numeral, suffix, value, unit, htrim, hnumeral, hsuffix, rfl⟩
    have htake : (trim s).takeWhile isNumeral = numeral := by
      rw [htrim, List.takeWhile_append_of_pos hnumeral.all, hsuffix.takeWhile_eq, List.append_nil]
    have hdrop : (trim s).dropWhile isNumeral = suffix := by
      have hsplit := List.takeWhile_append_dropWhile (p := isNumeral) (l := trim s)
      rw [htake, htrim] at hsplit
      rw [htrim]
      exact List.append_cancel_left hsplit
    rw [htake, hdrop]
    exact ⟨value, hnumeral, unit, hsuffix, rfl⟩

/-! ### Bytes

A number of units is first rounded to a float, then multiplied by the unit, which is a power of two
and so loses nothing, and then cut to whole bytes. -/

/-- A float tells every whole number up to `2 ^ 53` exactly. -/
theorem double_natCast {n : ℕ} (h : n ≤ 2 ^ 53) : double n = n := by
  have hexact := roundTo_mul_zpow (p := 53) (n := n) (by simpa using h) 0
  rwa [zpow_zero, mul_one, Int.cast_natCast] at hexact

/-- A size is counted in whole bytes, of which there are no more than a word can tell. -/
theorem bytesOf_eq (hvalue : 0 ≤ value) (unit : ℕ) :
    bytesOf value unit = min ⌊double value * unit⌋₊ (2 ^ 64 - 1) := by
  have hproduct : 0 ≤ double value * unit :=
    mul_nonneg (roundTo_nonneg hvalue) (Nat.cast_nonneg unit)
  have hfloor : ⌊double value * unit⌋ = (⌊double value * unit⌋₊ : ℤ) :=
    (Int.natCast_floor_eq_floor hproduct).symm
  have hmax : maxBytes = 2 ^ 64 - 1 := rfl
  rw [bytesOf, clampTrunc, towardZero_of_nonneg hproduct, hfloor, hmax]
  omega

/-- A size fits a word. -/
theorem bytesOf_le (value : ℚ) (unit : ℕ) : bytesOf value unit ≤ 2 ^ 64 - 1 := by
  have hmax : maxBytes = 2 ^ 64 - 1 := rfl
  rw [bytesOf, clampTrunc, hmax]
  omega

/-- So many whole units are counted exactly, as long as a float can tell how many. -/
theorem bytesOf_natCast {n : ℕ} (h : n ≤ 2 ^ 53) (unit : ℕ) :
    bytesOf n unit = min (n * unit) (2 ^ 64 - 1) := by
  rw [bytesOf_eq (Nat.cast_nonneg n), double_natCast h, ← Nat.cast_mul, Nat.floor_natCast]

theorem toNat_bytesOf (value : ℚ) (unit : ℕ) :
    (UInt64.ofNat (bytesOf value unit)).toNat = bytesOf value unit := by
  have hle := bytesOf_le value unit
  rw [UInt64.toNat_ofNat', Nat.mod_eq_of_lt (by omega)]

end Size

/-! ## Quotas

Blanks do not count around the text, around the minor number and around the amount. The sign of
equality that counts is the first; another one can only stand behind the letter of a unit. -/

/-- A minor number or a share of compute time is a whole number that fits 32 bits. -/
theorem word32?_eq_some_iff {s : List Char} {word : UInt32} :
    word32? s = some word ↔ Natural s word.toNat := by
  have hsize : UInt32.size = 2 ^ 32 := rfl
  rw [word32?]
  constructor
  · intro h
    split at h
    · next n hread =>
      obtain ⟨hnatural, hle⟩ := readUnsigned_eq_ok_iff.1 hread
      obtain rfl := Option.some.inj h
      rwa [UInt32.toNat_ofNat', Nat.mod_eq_of_lt (by omega)]
    · cases h
  · intro h
    have hread : readUnsigned (UInt32.size - 1) s = .ok word.toNat :=
      readUnsigned_eq_ok_iff.2 ⟨h, by have := word.toNat_lt; omega⟩
    rw [hread]
    exact congrArg some (UInt32.ofNat_toNat)

/-- A text is cut at its first equals sign into a minor number and an amount, and blanks around the
text and around either part do not count. -/
def Splits (spec : List Char) (minor : ℕ) (amount : List Char) : Prop :=
  ∃ left right, trim spec = left ++ '=' :: right ∧ '=' ∉ left ∧ Natural (trim left) minor ∧
    minor < 2 ^ 32 ∧ trim right = amount

/-- A quota on memory as it may be written: an amount is so many units of so many bytes. -/
def MemoryQuota.Written (spec : List Char) (minor : ℕ) (value : ℚ) (unit : ℕ) : Prop :=
  ∃ numeral suffix, Splits spec minor (numeral ++ suffix) ∧ Size.Numeral numeral value ∧
    Size.Suffix suffix unit

/-- A quota on compute time as it may be written: an amount is a whole number. -/
def ComputeQuota.Written (spec : List Char) (minor percent : ℕ) : Prop :=
  ∃ amount, Splits spec minor amount ∧ Natural amount percent ∧ percent < 2 ^ 32

variable {spec amount : List Char} {value : ℚ} {unit : ℕ}

/-- **A quota is cut as it is written**; the amount must not be missing. -/
theorem cutSpec_eq_ok_iff_splits {minor : UInt32} :
    cutSpec spec = .ok (minor, amount) ↔ Splits spec minor.toNat amount ∧ amount ≠ [] := by
  simp only [cutSpec_eq_ok_iff, cutFirst_eq_some_iff, word32?_eq_some_iff]
  constructor
  · rintro ⟨left, right, ⟨hspec, hleft⟩, hminor, rfl, hne⟩
    exact ⟨⟨left, right, hspec, hleft, hminor, minor.toNat_lt, rfl⟩, hne⟩
  · rintro ⟨⟨left, right, hspec, hleft, hminor, -, rfl⟩, hne⟩
    exact ⟨left, right, ⟨hspec, hleft⟩, hminor, rfl, hne⟩

theorem Splits.minor_lt {minor : ℕ} (h : Splits spec minor amount) : minor < 2 ^ 32 := by
  obtain ⟨left, right, -, -, -, hlt, -⟩ := h
  exact hlt

/-- An amount has no blanks around it. -/
theorem Splits.trim_eq {minor : ℕ} (h : Splits spec minor amount) : trim amount = amount := by
  obtain ⟨left, right, -, -, -, -, rfl⟩ := h
  exact trim_trim right

/-- A text is read as a quota on memory if it is written as one for the minor number and the size
that are read. -/
theorem MemoryQuota.parse_eq_ok_iff {quota : MemoryQuota} :
    MemoryQuota.parse spec = .ok quota ↔
      ∃ value unit, MemoryQuota.Written spec quota.minor.toNat value unit ∧
        quota.bytes = UInt64.ofNat (Size.bytesOf value unit) := by
  obtain ⟨minor, bytes⟩ := quota
  constructor
  · intro h
    rcases hcut : cutSpec spec with problem | ⟨number, amount⟩
    · simp [MemoryQuota.parse, hcut, bind, Except.bind] at h
    · rcases hread : Size.read? amount with _ | size
      · simp [MemoryQuota.parse, hcut, hread, bind, Except.bind] at h
      · obtain ⟨rfl, rfl⟩ : number = minor ∧ size = bytes := by
          simpa [MemoryQuota.parse, hcut, hread, bind, Except.bind] using h
        obtain ⟨hsplits, -⟩ := cutSpec_eq_ok_iff_splits.1 hcut
        obtain ⟨numeral, suffix, value, unit, htrim, hnumeral, hsuffix, rfl⟩ :=
          Size.read?_eq_some_iff.1 hread
        rw [hsplits.trim_eq] at htrim
        subst htrim
        exact ⟨value, unit, ⟨numeral, suffix, hsplits, hnumeral, hsuffix⟩, rfl⟩
  · rintro ⟨value, unit, ⟨numeral, suffix, hsplits, hnumeral, hsuffix⟩, rfl⟩
    have hne : numeral ++ suffix ≠ [] := by simp [hnumeral.ne_nil]
    have hcut := cutSpec_eq_ok_iff_splits.2 ⟨hsplits, hne⟩
    have hread := Size.read?_eq_some_iff.2
      ⟨numeral, suffix, value, unit, hsplits.trim_eq, hnumeral, hsuffix, rfl⟩
    simp [MemoryQuota.parse, hcut, hread, bind, Except.bind]

/-- A text is read as a quota on compute time if it is written as one for the two numbers that are
read. -/
theorem ComputeQuota.parse_eq_ok_iff {quota : ComputeQuota} :
    ComputeQuota.parse spec = .ok quota ↔
      ComputeQuota.Written spec quota.minor.toNat quota.percent.toNat := by
  obtain ⟨minor, percent⟩ := quota
  constructor
  · intro h
    rcases hcut : cutSpec spec with problem | ⟨number, amount⟩
    · simp [ComputeQuota.parse, hcut, bind, Except.bind] at h
    · rcases hread : word32? amount with _ | share
      · simp [ComputeQuota.parse, hcut, hread, bind, Except.bind] at h
      · obtain ⟨rfl, rfl⟩ : number = minor ∧ share = percent := by
          simpa [ComputeQuota.parse, hcut, hread, bind, Except.bind] using h
        obtain ⟨hsplits, -⟩ := cutSpec_eq_ok_iff_splits.1 hcut
        exact ⟨amount, hsplits, word32?_eq_some_iff.1 hread, share.toNat_lt⟩
  · rintro ⟨amount, hsplits, hshare, -⟩
    have hcut := cutSpec_eq_ok_iff_splits.2 ⟨hsplits, hshare.ne_nil⟩
    have hread := word32?_eq_some_iff.2 hshare
    simp [ComputeQuota.parse, hcut, hread, bind, Except.bind]

theorem toNat_ofNat_word32 {n : ℕ} (h : n < 2 ^ 32) : (UInt32.ofNat n).toNat = n := by
  rw [UInt32.toNat_ofNat', Nat.mod_eq_of_lt h]

/-- What is written is read, in whatever way it can be taken apart. -/
theorem MemoryQuota.Written.parse {minor : ℕ} (h : MemoryQuota.Written spec minor value unit) :
    MemoryQuota.parse spec =
      .ok ⟨UInt32.ofNat minor, UInt64.ofNat (Size.bytesOf value unit)⟩ := by
  obtain ⟨numeral, suffix, hsplits, hnumeral, hsuffix⟩ := h
  rw [MemoryQuota.parse_eq_ok_iff]
  refine ⟨value, unit, ⟨numeral, suffix, ?_, hnumeral, hsuffix⟩, rfl⟩
  rwa [toNat_ofNat_word32 hsplits.minor_lt]

/-- A quota on compute time that is written is read. -/
theorem ComputeQuota.Written.parse {minor percent : ℕ}
    (h : ComputeQuota.Written spec minor percent) :
    ComputeQuota.parse spec = .ok ⟨UInt32.ofNat minor, UInt32.ofNat percent⟩ := by
  obtain ⟨amount, hsplits, hshare, hpercent⟩ := h
  rw [ComputeQuota.parse_eq_ok_iff]
  dsimp only
  rw [toNat_ofNat_word32 hsplits.minor_lt, toNat_ofNat_word32 hpercent]
  exact ⟨amount, hsplits, hshare, hpercent⟩

/-! ## The result -/

/-- **Quotas are read as they are written.** A text is read as a quota on memory if and only if it
is written as one, and as a quota on compute time if and only if it is written as one. What is read
are the numbers that are written: the minor number, the share of compute time, and the size in
bytes, of which there are as many as a word can tell if that many do not fit. So many whole units
are counted exactly, up to `2 ^ 53` of them; more, or parts of one, are so many units as the nearest
float, less what is not a whole byte. -/
theorem quotas_read_as_written (spec : List Char) :
    ((∃ quota, MemoryQuota.parse spec = .ok quota) ↔
      ∃ minor value unit, MemoryQuota.Written spec minor value unit) ∧
    (∀ quota minor value unit, MemoryQuota.parse spec = .ok quota →
      MemoryQuota.Written spec minor value unit →
      quota.minor.toNat = minor ∧
      quota.bytes.toNat = min ⌊double value * unit⌋₊ (2 ^ 64 - 1) ∧
      ∀ n : ℕ, value = n → n ≤ 2 ^ 53 → quota.bytes.toNat = min (n * unit) (2 ^ 64 - 1)) ∧
    ((∃ quota, ComputeQuota.parse spec = .ok quota) ↔
      ∃ minor percent, ComputeQuota.Written spec minor percent) ∧
    ∀ quota minor percent, ComputeQuota.parse spec = .ok quota →
      ComputeQuota.Written spec minor percent →
      quota.minor.toNat = minor ∧ quota.percent.toNat = percent := by
  refine ⟨⟨?_, ?_⟩, ?_, ⟨?_, ?_⟩, ?_⟩
  · rintro ⟨quota, hquota⟩
    obtain ⟨value, unit, hwritten, -⟩ := MemoryQuota.parse_eq_ok_iff.1 hquota
    exact ⟨_, value, unit, hwritten⟩
  · rintro ⟨minor, value, unit, hwritten⟩
    exact ⟨_, hwritten.parse⟩
  · intro quota minor value unit hquota hwritten
    obtain rfl := Except.ok.inj (hquota.symm.trans hwritten.parse)
    obtain ⟨numeral, suffix, hsplits, hnumeral, -⟩ := hwritten
    refine ⟨toNat_ofNat_word32 hsplits.minor_lt, ?_, ?_⟩
    · rw [Size.toNat_bytesOf, Size.bytesOf_eq hnumeral.nonneg]
    · rintro n rfl hn
      rw [Size.toNat_bytesOf, Size.bytesOf_natCast hn]
  · rintro ⟨quota, hquota⟩
    exact ⟨_, _, ComputeQuota.parse_eq_ok_iff.1 hquota⟩
  · rintro ⟨minor, percent, hwritten⟩
    exact ⟨_, hwritten.parse⟩
  · intro quota minor percent hquota hwritten
    obtain rfl := Except.ok.inj (hquota.symm.trans hwritten.parse)
    obtain ⟨amount, hsplits, -, hpercent⟩ := hwritten
    exact ⟨toNat_ofNat_word32 hsplits.minor_lt, toNat_ofNat_word32 hpercent⟩

/-- Half a gibibyte on device 3 and a tenth of device 0, each with signs, spaces or digits that
could be left out. -/
theorem quotas_read_as_written_spaced :
    (∃ quota, MemoryQuota.parse " +3 = 512MiB ".toList = .ok quota ∧ quota.minor.toNat = 3 ∧
      quota.bytes.toNat = 512 * 2 ^ 20) ∧
    ∃ quota, ComputeQuota.parse "0=010".toList = .ok quota ∧ quota.minor.toNat = 0 ∧
      quota.percent.toNat = 10 := by
  have hdigits : ∀ s : List Char, s.all Char.isDigit = true → ∀ c ∈ s, c.isDigit = true :=
    fun _ => List.all_eq_true.1
  have hnumeral : Size.Numeral ['5', '1', '2'] (512 : ℕ) := .whole (by decide) (hdigits _ rfl)
  have hunit : Size.Suffix ('M' :: ['i', 'B']) (2 ^ 20) := .letter ['i', 'B'] (by decide)
  have hminor : Number.Natural ('+' :: ['3']) 3 := .signed (by decide) (hdigits _ rfl)
  have hmemory : MemoryQuota.Written " +3 = 512MiB ".toList 3 (512 : ℕ) (2 ^ 20) :=
    ⟨['5', '1', '2'], "MiB".toList,
      ⟨"+3 ".toList, " 512MiB".toList, by decide, by decide, hminor, by decide, by decide⟩,
      hnumeral, hunit⟩
  have hcompute : ComputeQuota.Written "0=010".toList 0 10 :=
    ⟨"010".toList, ⟨['0'], "010".toList, by decide, by decide,
      .plain (by decide) (hdigits _ rfl), by decide, by decide⟩,
      .plain (by decide) (hdigits _ rfl), by decide⟩
  obtain ⟨hreads, hnumbers, -, -⟩ := quotas_read_as_written " +3 = 512MiB ".toList
  obtain ⟨-, -, hreads', hnumbers'⟩ := quotas_read_as_written "0=010".toList
  obtain ⟨quota, hquota⟩ := hreads.2 ⟨3, _, _, hmemory⟩
  obtain ⟨quota', hquota'⟩ := hreads'.2 ⟨0, 10, hcompute⟩
  obtain ⟨hdevice, -, hexact⟩ := hnumbers quota 3 _ _ hquota hmemory
  exact ⟨⟨quota, hquota, hdevice, hexact 512 rfl (by decide)⟩,
    ⟨quota', hquota', hnumbers' quota' 0 10 hquota' hcompute⟩⟩

end GpuQuota.Settings
