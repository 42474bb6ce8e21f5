/-!
# Blanks and trimming

Text is handled as a list of characters; `String` appears only where a caller hands one in or
gets one back. A **blank** is a character with Unicode's White_Space property, not only the
ASCII ones, so a no-break space around a setting is trimmed like a plain one.

* `isBlank_of_isWhitespace`: every character that core calls white space is a blank.
* `trim_eq_self`: trimming leaves a text alone that starts and ends with no blank.
-/

namespace GpuQuota.Text

/-- Unicode's White_Space property. -/
def isBlank (c : Char) : Bool :=
  let n := c.toNat
  (0x9 ≤ n && n ≤ 0xd) || n == 0x20 || n == 0x85 || n == 0xa0 || n == 0x1680 ||
    (0x2000 ≤ n && n ≤ 0x200a) || n == 0x2028 || n == 0x2029 || n == 0x202f || n == 0x205f ||
    n == 0x3000

/-- The text without the blanks it starts with. -/
def trimStart (s : List Char) : List Char :=
  s.dropWhile isBlank

/-- The text without the blanks it ends with. -/
def trimEnd (s : List Char) : List Char :=
  (s.reverse.dropWhile isBlank).reverse

/-- The text without the blanks around it. -/
def trim (s : List Char) : List Char :=
  trimEnd (trimStart s)

theorem isBlank_of_isWhitespace {c : Char} (h : c.isWhitespace) : isBlank c := by
  simp only [Char.isWhitespace, Bool.or_eq_true, decide_eq_true_eq] at h
  rcases h with ((h | h) | h) | h <;> subst h <;> decide

theorem trimStart_eq_self {s : List Char} (h : ∀ c ∈ s.head?, isBlank c = false) :
    trimStart s = s := by
  cases s with
  | nil => rfl
  | cons c r => simp [trimStart, h c (by simp)]

theorem trimEnd_eq_self {s : List Char} (h : ∀ c ∈ s.getLast?, isBlank c = false) :
    trimEnd s = s := by
  have hr : trimStart s.reverse = s.reverse := trimStart_eq_self (by simpa using h)
  rw [trimStart] at hr
  rw [trimEnd, hr, List.reverse_reverse]

theorem trim_eq_self {s : List Char} (hs : ∀ c ∈ s.head?, isBlank c = false)
    (he : ∀ c ∈ s.getLast?, isBlank c = false) : trim s = s := by
  rw [trim, trimStart_eq_self hs, trimEnd_eq_self he]

end GpuQuota.Text
