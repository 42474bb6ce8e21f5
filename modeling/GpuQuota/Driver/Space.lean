/-!
# The memory of a calling process

A parameter block is reached through an address, and its fields may be addresses again. A `Space`
gives the byte at every address; reading and writing words is little-endian. Addresses are 64-bit
words and wrap around, so every address has a byte and nothing can fault.

* `byte_write`: which byte a write leaves at each address.
* `read_write_add`: what is written is read back, in whole or in part.
-/

namespace GpuQuota.Driver

/-- The byte at each address. -/
structure Space where
  byte : UInt64 → UInt8

namespace Space

/-- All bytes are zero. -/
def blank : Space := ⟨fun _ => 0⟩

instance : Inhabited Space := ⟨blank⟩

/-- The number in the `width` bytes from `address` on, the least significant byte first. -/
def read (space : Space) (address : UInt64) : Nat → Nat
  | 0 => 0
  | width + 1 => (space.byte address).toNat + 256 * space.read (address + 1) width

/-- What the byte at `place` of a number counts. -/
def weight (place : Nat) : Nat := Nat.pow 256 place

/-- The `width` low bytes of `value`, the least significant first. -/
def bytesOf (width value : Nat) : List UInt8 :=
  (List.range width).map fun place => UInt8.ofNat (value / weight place)

/-- Lays the `width` low bytes of `value` down from `address` on. -/
def write (space : Space) (address : UInt64) (width value : Nat) : Space where
  byte spot :=
    let place := (spot - address).toNat
    if place < width then UInt8.ofNat (value / weight place) else space.byte spot

/-- The word of 16 bits at an address. -/
def word16 (space : Space) (address : UInt64) : UInt16 := UInt16.ofNat (space.read address 2)

/-- The word of 32 bits at an address. -/
def word32 (space : Space) (address : UInt64) : UInt32 := UInt32.ofNat (space.read address 4)

/-- The word of 64 bits at an address. -/
def word64 (space : Space) (address : UInt64) : UInt64 := UInt64.ofNat (space.read address 8)

/-- Writes a word of 32 bits. -/
def setWord32 (space : Space) (address : UInt64) (value : UInt32) : Space :=
  space.write address 4 value.toNat

/-- Writes a word of 64 bits. -/
def setWord64 (space : Space) (address : UInt64) (value : UInt64) : Space :=
  space.write address 8 value.toNat

/-- Lays bytes down from `address` on. -/
def place (space : Space) (address : UInt64) (bytes : Array UInt8) : Space where
  byte spot := (bytes[(spot - address).toNat]?).getD (space.byte spot)

/-- A write leaves the bytes of its value, the lowest first, and no other byte changes. -/
theorem byte_write (space : Space) (address spot : UInt64) (width value : Nat) :
    (space.write address width value).byte spot =
      if (spot - address).toNat < width then UInt8.ofNat (value / weight (spot - address).toNat)
      else space.byte spot := rfl

/-- A byte outside of what is written stays. -/
theorem byte_write_of_outside {space : Space} {address spot : UInt64} {width value : Nat}
    (h : width ≤ (spot - address).toNat) :
    (space.write address width value).byte spot = space.byte spot :=
  if_neg (Nat.not_lt.2 h)

/-- How far a later address is from an earlier one, also where the addresses wrap around. -/
theorem toNat_add_ofNat_sub (address : UInt64) {place : Nat} (h : place < UInt64.size) :
    (address + UInt64.ofNat place - address).toNat = place := by
  rw [UInt64.add_comm, UInt64.add_sub_cancel, UInt64.toNat_ofNat', Nat.mod_eq_of_lt h]

/-- How far an address is from one that lies `place` bytes behind another. -/
theorem toNat_sub_add_ofNat (address spot : UInt64) {place : Nat} (h : place < UInt64.size) :
    (spot - (address + UInt64.ofNat place)).toNat =
      (UInt64.size - place + (spot - address).toNat) % UInt64.size := by
  have hshift : spot - (address + UInt64.ofNat place) = spot - address - UInt64.ofNat place := by
    rw [UInt64.sub_eq_iff_eq_add, UInt64.add_comm address, ← UInt64.add_assoc,
      UInt64.sub_add_cancel, UInt64.sub_add_cancel]
  rw [hshift, UInt64.toNat_sub, UInt64.toNat_ofNat', Nat.mod_eq_of_lt h]

theorem weight_zero : weight 0 = 1 := rfl

theorem weight_succ (place : Nat) : weight (place + 1) = weight place * 256 := rfl

/-- A part of a written number, from the byte at `place` on. -/
theorem read_write_add (space : Space) (address : UInt64) {width : Nat}
    (hwidth : width ≤ UInt64.size) (value : Nat) {place count : Nat} (h : place + count ≤ width) :
    (space.write address width value).read (address + UInt64.ofNat place) count =
      value / weight place % weight count := by
  induction count generalizing place with
  | zero => simp [read, weight_zero, Nat.mod_one]
  | succ count ih =>
    have hplace := toNat_add_ofNat_sub address (show place < UInt64.size by omega)
    have hnext : address + UInt64.ofNat place + 1 = address + UInt64.ofNat (place + 1) := by
      rw [UInt64.ofNat_add, UInt64.add_assoc]
      rfl
    rw [read, byte_write, hplace, if_pos (by omega), hnext, ih (by omega), UInt8.toNat_ofNat',
      weight_succ place, weight_succ count, ← Nat.div_div_eq_div_mul, Nat.mul_comm (weight count),
      Nat.mod_mul]

/-- What is written is read back as far as its width goes. -/
theorem read_write (space : Space) (address : UInt64) {width : Nat} (hwidth : width ≤ UInt64.size)
    (value : Nat) :
    (space.write address width value).read address width = value % weight width := by
  simpa [weight_zero] using space.read_write_add address hwidth value
    (show 0 + width ≤ width from Nat.le_of_eq (Nat.zero_add width))

/-- A word of 32 bits is read back. -/
theorem word32_setWord32 (space : Space) (address : UInt64) (value : UInt32) :
    (space.setWord32 address value).word32 address = value := by
  rw [word32, setWord32, read_write space address (by decide), UInt32.toNat_inj.symm,
    UInt32.toNat_ofNat', show weight 4 = 2 ^ 32 from rfl]
  have := value.toNat_lt
  omega

theorem word64_setWord64 (space : Space) (address : UInt64) (value : UInt64) :
    (space.setWord64 address value).word64 address = value := by
  rw [word64, setWord64, read_write space address (by decide), UInt64.toNat_inj.symm,
    UInt64.toNat_ofNat', show weight 8 = 2 ^ 64 from rfl]
  have := value.toNat_lt
  omega

end Space

end GpuQuota.Driver
