import CsmVgaSelector.Bytes
import CsmVgaSelector.Pci
import CsmVgaSelector.Status

/-!
# The PCI inventory

One record for each handle with PCI I/O, as the inventory's snapshot holds it. A device path stands in a
record only after it was validated and measured, so it ends in the end node; a record without one has
the size zero.
-/

namespace CsmVgaSelector

def endDevicePathLength : Nat := 4

/-- The end node of an entire device path. -/
def endDevicePath : List UInt8 := [0x7F, 0xFF, 4, 0]

/-- A validated device path, whose size is the length of its bytes. -/
structure DevicePath where
  bytes : List UInt8
  ended : endDevicePath <:+ bytes

instance : DecidableEq DevicePath := fun path path' =>
  decidable_of_iff (path.bytes = path'.bytes) (by cases path; cases path'; simp)

/-- The fields of `PCI_DEVICE_RECORD` that the bridge paths are built from. A pointer is zero while it is
`NULL`. -/
structure PciDeviceRecord where
  handle : Nat
  pciIo : Nat
  /-- Whether the protocol has a `Pci.Read`. -/
  pciRead : Bool
  devicePath : Option DevicePath
  segment : Nat
  bus : Nat
  device : Nat
  function : Nat
  locationStatus : EfiStatus
  configStatus : EfiStatus
  config : List UInt8
  rootBridgeHandle : Nat
  /-- The root bridge protocol, by its `ParentHandle`. -/
  rootBridgeIo : Option Nat
  rootBridgeStatus : EfiStatus
  deriving DecidableEq

instance : Inhabited PciDeviceRecord where
  default :=
    { handle := 0
      pciIo := 0
      pciRead := false
      devicePath := none
      segment := 0
      bus := 0
      device := 0
      function := 0
      locationStatus := .notReady
      configStatus := .notReady
      config := []
      rootBridgeHandle := 0
      rootBridgeIo := none
      rootBridgeStatus := .notReady }

/-- The records of `PCI_INVENTORY`, of which there are `Count`. -/
abbrev PciInventory := List PciDeviceRecord

/-! ### Configuration space -/

def pciSubclassOffset : Nat := 0x0A
def pciBaseClassOffset : Nat := 0x0B
def pciHeaderTypeOffset : Nat := 0x0E
def pciPrimaryBusOffset : Nat := 0x18
def pciSecondaryBusOffset : Nat := 0x19
def pciSubordinateBusOffset : Nat := 0x1A
def pciBridgeControlOffset : Nat := 0x3E

def pciHeaderTypeMask : UInt8 := 0x7F
def pciHeaderTypeBridge : UInt8 := 0x01
def pciBaseClassDisplay : UInt8 := 0x03
def pciBaseClassBridge : UInt8 := 0x06
def pciSubclassP2pBridge : UInt8 := 0x04

namespace PciDeviceRecord

variable (record : PciDeviceRecord)

def devicePathSize : Nat :=
  match record.devicePath with
  | none => 0
  | some path => path.bytes.length

def primaryBus : Nat := record.config[pciPrimaryBusOffset]!.toNat

def secondaryBus : Nat := record.config[pciSecondaryBusOffset]!.toNat

def subordinateBus : Nat := record.config[pciSubordinateBusOffset]!.toNat

/-- The location of a record whose location is valid. -/
def address : PciAddress where
  segment := record.segment.toUInt16
  bus := record.bus.toUInt8
  device := record.device.toUInt8
  function := record.function.toUInt8

end PciDeviceRecord

def recordLocationIsValid (record : PciDeviceRecord) : Bool :=
  !record.locationStatus.isError && record.segment ≤ 0xFFFF && record.bus ≤ 0xFF &&
    record.device ≤ 31 && record.function ≤ 7

def recordIsDisplay (record : PciDeviceRecord) : Bool :=
  !record.configStatus.isError && record.config[pciBaseClassOffset]! == pciBaseClassDisplay

def recordIsP2pBridge (record : PciDeviceRecord) : Bool :=
  !record.configStatus.isError &&
    record.config[pciHeaderTypeOffset]! &&& pciHeaderTypeMask == pciHeaderTypeBridge &&
    record.config[pciBaseClassOffset]! == pciBaseClassBridge &&
    record.config[pciSubclassOffset]! == pciSubclassP2pBridge

end CsmVgaSelector
