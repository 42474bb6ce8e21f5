/-!
# Return codes of the device library

Every call into the device library answers with a code: zero for success, and otherwise a number
that tells what is wrong.
-/

namespace GpuQuota.Device

/-- A number other than zero. -/
abbrev ReturnCode := UInt32

/-- What a call answers: a value, or the code of its failure. -/
abbrev Answer (α : Type) := Except ReturnCode α

namespace ReturnCode

/-- There is nothing at the index or under the name that was asked for. -/
def invalidArgument : ReturnCode := 2

/-- The device does not answer such a question. -/
def notSupported : ReturnCode := 3

/-- There is nothing to give, such as no samples. -/
def notFound : ReturnCode := 6

/-- The kernel has no driver for the devices. -/
def driverNotLoaded : ReturnCode := 9

/-- What the codes mean. -/
def meanings : List (ReturnCode × String) :=
  [(1, "NVML was not first initialized with \x60Nvml::init()\x60"),
    (2, "a supplied argument was invalid"),
    (3, "the requested operation is not available on the target device"),
    (4, "the current user does not have permission to perform this operation"),
    (5, "NVML was already initialized"),
    (6, "a query to find an object was unsuccessful"),
    (7, "an input argument is not large enough"),
    (8, "device's external power cables are not properly attached"),
    (9, "NVIDIA driver is not loaded"),
    (10, "the provided timeout was reached"),
    (11, "NVIDIA kernel detected an interrupt issue with a device"),
    (12, "a shared library couldn't be found or loaded"),
    (13, "a function couldn't be found in a shared library"),
    (14, "the infoROM is corrupted"),
    (15, "device fell off the bus or has otherwise become inacessible"),
    (16, "device requires a reset before it can be used again"),
    (17, "device control has been blocked by the operating system/cgroups"),
    (18, "RM detects a driver/library version mismatch"),
    (19, "operation cannot be performed because the GPU is currently in use"),
    (20, "insufficient memory"),
    (21, "no data"),
    (22, "the requested vgpu operation is not available on the target device because ECC is " ++
      "enabled"),
    (999, "an internal driver error occured")]

/-- The text of a code. -/
def text (code : ReturnCode) : String :=
  (meanings.lookup code).getD ("unexpected enum variant value: " ++ toString code)

end ReturnCode

end GpuQuota.Device
