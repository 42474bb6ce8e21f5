import GpuQuota.Driver.Request
import Mathlib.Algebra.Group.Nat.Defs

/-!
# Fields of a request number

A request number is put together from shifted words, and taken apart by the bits that each field
has (`field`). None of the words reaches into the field of another, but for the size: one of more
than 14 bits runs into the direction and beyond. The direction does not show this, since both of its
bits are set anyway, and the size that is read back has lost its upper bits.

* `field_or`, `field_shiftLeft_of_le`, `field_shiftLeft`: the fields of shifted words.
* `Request.eq_of_field_eq`: four fields make up a number of 32 bits.
* `Request.readWrite_taken_apart`: the fields of a number that transfers both ways, and which
  numbers are put together again from their fields.
-/

namespace GpuQuota.Driver

/-- The number that `width` bits of a word make, from the bit `start` on. -/
def field (word : UInt64) (start width : Nat) : Nat := word.toNat >>> start % 2 ^ width

section Fields

variable {word shift : UInt64} {start width : Nat}

/-- A bit of a field is the bit of the word so much further up. -/
theorem testBit_field (word : UInt64) (start width i : Nat) :
    (field word start width).testBit i =
      (decide (i < width) && word.toNat.testBit (start + i)) := by
  rw [field, Nat.testBit_mod_two_pow, Nat.testBit_shiftRight]

/-- A bit of a shifted word is the bit so much further down, and those shifted in are not set. -/
theorem testBit_shiftLeft (word : UInt64) (hshift : shift.toNat < 64) (i : Nat) :
    (word <<< shift).toNat.testBit i =
      (decide (i < 64) && (decide (shift.toNat ≤ i) && word.toNat.testBit (i - shift.toNat))) := by
  rw [UInt64.toNat_shiftLeft, Nat.mod_eq_of_lt hshift, Nat.testBit_mod_two_pow,
    Nat.testBit_shiftLeft]

/-- A field of two words together has the bits of both. -/
theorem field_or (word other : UInt64) (start width : Nat) :
    field (word ||| other) start width = field word start width ||| field other start width := by
  rw [field, UInt64.toNat_or, Nat.shiftRight_or_distrib, Nat.or_mod_two_pow, field, field]

/-- A small word has nothing from `start` on. -/
theorem field_of_lt (h : word.toNat < 2 ^ start) : field word start width = 0 := by
  rw [field, Nat.shiftRight_eq_div_pow, Nat.div_eq_of_lt h, Nat.zero_mod]

/-- A shifted word has nothing below the shift. -/
theorem field_shiftLeft_of_le (hshift : shift.toNat < 64) (h : start + width ≤ shift.toNat) :
    field (word <<< shift) start width = 0 := by
  refine Nat.eq_of_testBit_eq fun i => ?_
  rw [testBit_field, testBit_shiftLeft word hshift, Nat.zero_testBit]
  by_cases hi : i < width
  · have hbelow : ¬ shift.toNat ≤ start + i := by omega
    simp [hbelow]
  · simp [hi]

/-- From there on, its bits are those of the word. -/
theorem field_shiftLeft (hshift : shift.toNat < 64) (hstart : shift.toNat ≤ start)
    (h : start + width ≤ 64) :
    field (word <<< shift) start width = field word (start - shift.toNat) width := by
  refine Nat.eq_of_testBit_eq fun i => ?_
  rw [testBit_field, testBit_field, testBit_shiftLeft word hshift]
  by_cases hi : i < width
  · have hinside : start + i < 64 := by omega
    have habove : shift.toNat ≤ start + i := by omega
    rw [Nat.sub_add_comm hstart]
    simp [hinside, habove]
  · simp [hi]

end Fields

namespace Request

/-! ## Taking a number apart

A number is told by four fields: the number of the request proper in the lowest eight bits, its kind
in the next eight, a size of fourteen and the two bits of its direction. -/

/-- The number of a request is its lowest byte. -/
theorem toNat_number_decode (raw : UInt64) : (decode raw).number.toNat = field raw 0 8 :=
  UInt64.toNat_toUInt8 raw

theorem toNat_kind_decode (raw : UInt64) : (decode raw).kind.toNat = field raw 8 8 := by
  rw [decode, UInt64.toNat_toUInt8, UInt64.toNat_shiftRight]
  rfl

theorem size_decode (raw : UInt64) : (decode raw).size = field raw 16 14 := by
  rw [decode, UInt64.toNat_and, UInt64.toNat_shiftRight]
  exact Nat.and_two_pow_sub_one_eq_mod _ 14

theorem toNat_direction (raw : UInt64) : (raw >>> 30 &&& 3).toNat = field raw 30 2 := by
  rw [UInt64.toNat_and, UInt64.toNat_shiftRight]
  exact Nat.and_two_pow_sub_one_eq_mod _ 2

/-- A size that is read has fourteen bits. -/
theorem size_decode_lt (raw : UInt64) : (decode raw).size < 2 ^ 14 := by
  rw [size_decode]
  exact Nat.mod_lt _ (Nat.two_pow_pos 14)

/-- The four fields make up a number of 32 bits. -/
theorem eq_of_field_eq {raw other : UInt64} (hraw : raw.toNat < 2 ^ 32)
    (hother : other.toNat < 2 ^ 32) (hnumber : field raw 0 8 = field other 0 8)
    (hkind : field raw 8 8 = field other 8 8) (hsize : field raw 16 14 = field other 16 14)
    (hdirection : field raw 30 2 = field other 30 2) : raw = other := by
  simp only [field, Nat.shiftRight_eq_div_pow] at hnumber hkind hsize hdirection
  rw [← UInt64.toNat_inj]
  omega

/-! ## Putting a number together

A field of a number that is put together has the bits of all the words that reach into it. For the
number, the kind and a small size that is one word each. -/

section Together

variable (number : UInt8) (size : UInt64)

/-- A field of a number that is put together has the bits of four words. -/
theorem field_raw_readWrite (start width : Nat) :
    field (readWrite number size).raw start width =
      field ((3 : UInt64) <<< 30) start width ||| field (size <<< 16) start width |||
        field (requestKind.toUInt64 <<< 8) start width ||| field number.toUInt64 start width := by
  rw [readWrite, decode_raw, field_or, field_or, field_or]

/-- The number of the request is below the other fields. -/
theorem field_number_of_le {start : Nat} (width : Nat) (h : 8 ≤ start) :
    field number.toUInt64 start width = 0 := by
  refine field_of_lt ?_
  rw [UInt8.toNat_toUInt64]
  exact Nat.lt_of_lt_of_le number.toNat_lt (Nat.pow_le_pow_right Nat.zero_lt_two h)

/-- What is put together is taken apart into the same request. -/
theorem decode_raw_readWrite : decode (readWrite number size).raw = readWrite number size := rfl

theorem number_readWrite : (readWrite number size).number = number := by
  have hnumber : field number.toUInt64 0 8 = number.toNat := by
    rw [field, UInt8.toNat_toUInt64, Nat.shiftRight_zero]
    exact Nat.mod_eq_of_lt number.toNat_lt
  rw [← decode_raw_readWrite, ← UInt8.toNat_inj, toNat_number_decode, field_raw_readWrite,
    field_shiftLeft_of_le (by decide) (by decide), field_shiftLeft_of_le (by decide) (by decide),
    field_shiftLeft_of_le (by decide) (by decide), hnumber, Nat.or_self, Nat.or_self, Nat.zero_or]

theorem kind_readWrite : (readWrite number size).kind = requestKind := by
  have hkind : field (requestKind.toUInt64 <<< 8) 8 8 = requestKind.toNat := by decide
  rw [← decode_raw_readWrite, ← UInt8.toNat_inj, toNat_kind_decode, field_raw_readWrite,
    field_shiftLeft_of_le (by decide) (by decide), field_shiftLeft_of_le (by decide) (by decide),
    hkind, field_number_of_le number 8 (by decide), Nat.or_self, Nat.zero_or, Nat.or_zero]

/-- The upper bits of a large size are not part of the size that is read back. -/
theorem size_readWrite : (readWrite number size).size = size.toNat % 2 ^ 14 := by
  have hsize : field (size <<< 16) 16 14 = field size 0 14 :=
    field_shiftLeft (by decide) (by decide) (by decide)
  have hkind : field (requestKind.toUInt64 <<< 8) 16 14 = 0 := by decide
  rw [← decode_raw_readWrite, size_decode, field_raw_readWrite,
    field_shiftLeft_of_le (by decide) (by decide), hsize, hkind,
    field_number_of_le number 14 (by decide), Nat.zero_or, Nat.or_zero, Nat.or_zero, field,
    Nat.shiftRight_zero]

/-- Both bits of the direction are set, whatever of the size runs into them. -/
theorem direction_readWrite : field (readWrite number size).raw 30 2 = 3 := by
  have hset : ∀ bits < 2 ^ 2, 3 ||| bits = 3 := by decide
  have hboth : field ((3 : UInt64) <<< 30) 30 2 = 3 := by decide
  have hkind : field (requestKind.toUInt64 <<< 8) 30 2 = 0 := by decide
  rw [field_raw_readWrite, hboth, hkind, field_number_of_le number 2 (by decide), Nat.or_zero,
    Nat.or_zero]
  exact hset _ (Nat.mod_lt _ (Nat.two_pow_pos 2))

/-- A number has 32 bits if the size has 14. -/
theorem raw_readWrite_lt {size : UInt64} (h : size.toNat < 2 ^ 14) :
    (readWrite number size).raw.toNat < 2 ^ 32 := by
  have hdirection : ((3 : UInt64) <<< 30).toNat < 2 ^ 32 := by decide
  have hsize : (size <<< 16).toNat < 2 ^ 32 := by
    have hshifted : (size <<< 16).toNat = size.toNat * 2 ^ 16 % 2 ^ 64 := by
      rw [UInt64.toNat_shiftLeft, Nat.shiftLeft_eq]
      rfl
    omega
  have hkind : (requestKind.toUInt64 <<< 8).toNat < 2 ^ 32 := by decide
  have hnumber : number.toUInt64.toNat < 2 ^ 32 := by
    rw [UInt8.toNat_toUInt64]
    exact Nat.lt_trans number.toNat_lt (by decide)
  rw [readWrite, decode_raw, UInt64.toNat_or, UInt64.toNat_or, UInt64.toNat_or]
  exact Nat.or_lt_two_pow (Nat.or_lt_two_pow (Nat.or_lt_two_pow hdirection hsize) hkind) hnumber

end Together

/-! ## Both ways

A raw number comes back from its fields if it is of the one kind, has both bits of its direction set
and nothing above them. -/

/-- A word is put together again from its number and its size just where it has 32 bits, both
directions and this library's type. -/
theorem raw_readWrite_decode_iff (raw : UInt64) :
    (readWrite (decode raw).number (UInt64.ofNat (decode raw).size)).raw = raw ↔
      raw.toNat < 2 ^ 32 ∧ raw >>> 30 &&& 3 = 3 ∧ (decode raw).kind = requestKind := by
  have hlt := size_decode_lt raw
  have hsize : (UInt64.ofNat (decode raw).size).toNat = (decode raw).size := by
    rw [UInt64.toNat_ofNat', Nat.mod_eq_of_lt (by omega)]
  have hfits : (UInt64.ofNat (decode raw).size).toNat < 2 ^ 14 := by rwa [hsize]
  have hbits := raw_readWrite_lt (decode raw).number hfits
  have hdirection : raw >>> 30 &&& 3 = 3 ↔ field raw 30 2 = 3 := by
    rw [← UInt64.toNat_inj, toNat_direction]
    rfl
  rw [hdirection]
  constructor
  · intro hraw
    rw [← hraw]
    exact ⟨hbits, direction_readWrite _ _, kind_readWrite _ _⟩
  · rintro ⟨hraw, hboth, hkind⟩
    refine eq_of_field_eq hbits hraw ?_ ?_ ?_ ?_
    · rw [← toNat_number_decode, ← toNat_number_decode, decode_raw_readWrite, number_readWrite]
    · rw [← toNat_kind_decode, ← toNat_kind_decode, decode_raw_readWrite, kind_readWrite, hkind]
    · rw [← size_decode, ← size_decode, decode_raw_readWrite, size_readWrite, hsize,
        Nat.mod_eq_of_lt hlt]
    · rw [direction_readWrite, hboth]

/-- **Numbers are taken apart as they are put together.** A number that transfers both ways has the
number it was made with, this library's type and the lower 14 bits of the size, which are the size
just where it has no more, and decoding its word gives all its fields again. Conversely, the words
that are made again from their number and size are those of 32 bits with both directions and this
library's type. -/
theorem readWrite_taken_apart :
    (∀ (number : UInt8) (size : UInt64),
      let request := readWrite number size
      request.number = number ∧ request.kind = requestKind ∧
        request.size = size.toNat % 2 ^ 14 ∧ (request.size = size.toNat ↔ size.toNat < 2 ^ 14) ∧
        decode request.raw = request) ∧
      ∀ raw : UInt64, (readWrite (decode raw).number (UInt64.ofNat (decode raw).size)).raw = raw ↔
        raw.toNat < 2 ^ 32 ∧ raw >>> 30 &&& 3 = 3 ∧ (decode raw).kind = requestKind := by
  refine ⟨fun number size => ?_, raw_readWrite_decode_iff⟩
  refine ⟨number_readWrite number size, kind_readWrite number size, size_readWrite number size, ?_,
    decode_raw_readWrite number size⟩
  rw [size_readWrite]
  exact Nat.mod_eq_iff_lt (by decide)

/-- A size of 17 bits: the upper three are in the word, but not in the size that is read back. -/
example : readWrite freeNumber 0x14010 = ⟨0x1c0104629, freeNumber, requestKind, 0x10⟩ := by decide

end Request

end GpuQuota.Driver
