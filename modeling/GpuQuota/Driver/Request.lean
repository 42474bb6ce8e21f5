/-!
# Request numbers of the device driver

A call to the driver carries one request number that packs four fields, from the low bits up: the
number of the request (8 bits), its type (8 bits), the size of its parameter block (14 bits) and
the direction of the transfer (2 bits). The driver's own requests have type `F`.

* `decode_raw`: decoding forgets nothing, the word itself is kept.
-/

namespace GpuQuota.Driver

/-- The major number of the device files. -/
def deviceMajor : UInt32 := 195

/-- The minor number of the control device, through which all resources are managed. -/
def controlMinor : UInt32 := 0xff

/-- The type of the driver's requests, the letter `F`. -/
def requestKind : UInt8 := 0x46

/-- The number of a request to free an object. -/
def freeNumber : UInt8 := 0x29

/-- The number of a command to an object. -/
def controlNumber : UInt8 := 0x2a

/-- The number of a request to create an object. -/
def allocNumber : UInt8 := 0x2b

/-- The number of a request for memory, or for the totals. -/
def heapNumber : UInt8 := 0x4a

/-- A request word and the fields it packs. -/
structure Request where
  /-- the word as it was passed -/
  raw : UInt64
  /-- which request it is -/
  number : UInt8
  /-- whose request it is -/
  kind : UInt8
  /-- how many bytes the parameters have -/
  size : Nat
  deriving DecidableEq, Repr

namespace Request

/-- The fields of a request word. -/
def decode (raw : UInt64) : Request where
  raw := raw
  number := raw.toUInt8
  kind := (raw >>> 8).toUInt8
  size := ((raw >>> 16) &&& 0x3fff).toNat

/-- The request of this library's type that transfers a block of `size` bytes both ways. A size
of more than 14 bits spills into the direction. -/
def readWrite (number : UInt8) (size : UInt64) : Request :=
  decode (((3 : UInt64) <<< 30) ||| (size <<< 16) ||| (requestKind.toUInt64 <<< 8) |||
    number.toUInt64)

/-- Whether the request is one of the four that are looked into. -/
def isGoverned (request : Request) : Bool :=
  request.number == freeNumber || request.number == controlNumber ||
    request.number == allocNumber || request.number == heapNumber

theorem decode_raw (raw : UInt64) : (decode raw).raw = raw := rfl

end Request

end GpuQuota.Driver
