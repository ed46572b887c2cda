import CsmVgaSelector.Config.Import
import CsmVgaSelector.Lib.Only
import CsmVgaSelector.Pci.Build
import CsmVgaSelector.Report.Observe

/-!
# The endpoints of a plan

The inventory is searched for the configured display, for the display that owns legacy VGA, and for the
controller of the configured disk. Each has to be the only one, and the two displays have to share their root
bridge and its host. What the boot options are called follows from the controller, unless the configuration
says it. The messages logged on the way decide nothing, and are left out.
-/

namespace CsmVgaSelector

open Only

def pciSubsystemVendorIdOffset : Nat := 0x2C
def pciSubsystemIdOffset : Nat := 0x2E
def pciCommandRegisterOffset : Nat := 0x04

def pciBaseClassStorage : UInt8 := 0x01
def pciBaseClassSerial : UInt8 := 0x0C
def pciSubclassUsb : UInt8 := 0x03

def efiPciIoAttributeVgaMemory : UInt64 := 0x0008
def efiPciIoAttributeVgaIo : UInt64 := 0x0010
def efiPciIoAttributeVgaIo16 : UInt64 := 0x40000

/-- `NATIVE_CSM_VGA_PLAN_ENDPOINT`. -/
structure NativeEndpoint where
  inventoryRecord : PciRecord
  handle : Nat
  pciIo : Nat
  address : PciAddress
  vendor : UInt16
  deviceId : UInt16
  subsystemVendor : UInt16
  subsystemDevice : UInt16
  rootBridgeHandle : Nat
  rootBridgeIo : Option Nat
  /-- Zero while it is `NULL`. -/
  parentHostHandle : Nat
  originalCommand : UInt16
  originalAttributes : UInt64
  originalAttributesStatus : EfiStatus
  deriving DecidableEq

namespace PciRecord

variable (record : PciRecord)

def addressEqual (address : PciAddress) : Bool :=
  !record.locationStatus.isError && record.segment == address.segment.toNat &&
    record.bus == address.bus.toNat && record.device == address.device.toNat &&
    record.function == address.function.toNat

def isUsbController : Bool :=
  !record.configStatus.isError && record.config[pciBaseClassOffset]! == pciBaseClassSerial &&
    record.config[pciSubclassOffset]! == pciSubclassUsb

def isBootController : Bool :=
  !record.configStatus.isError &&
    (record.config[pciBaseClassOffset]! == pciBaseClassStorage || record.isUsbController)

/-- The record is the configured display. -/
def isTarget (targetPci : PciAddress) : Bool :=
  recordIsDisplay record.toPciDeviceRecord && record.addressEqual targetPci

/-- The record is a display that decodes legacy VGA. -/
def ownsLegacyVga : Bool :=
  recordIsDisplay record.toPciDeviceRecord && !record.currentAttributesStatus.isError &&
    record.currentAttributes &&&
      (efiPciIoAttributeVgaIo ||| efiPciIoAttributeVgaIo16 ||| efiPciIoAttributeVgaMemory) != 0

/-- The record is a controller of disks where the firmware's boot table has the configured one: the table names
no segment. -/
def isSegmentlessController (targetControllerPci : PciAddress) : Bool :=
  record.isBootController && !record.locationStatus.isError &&
    record.bus == targetControllerPci.bus.toNat && record.device == targetControllerPci.device.toNat &&
    record.function == targetControllerPci.function.toNat

/-- The record is the configured controller. -/
def isTargetController (targetControllerPci : PciAddress) : Bool :=
  record.isSegmentlessController targetControllerPci && record.addressEqual targetControllerPci

end PciRecord

/-- A record as a plan has it. -/
def PciRecord.endpoint (record : PciRecord) : NativeEndpoint where
  inventoryRecord := record
  handle := record.handle
  pciIo := record.pciIo
  address := record.address
  vendor := readLe16 record.config 0
  deviceId := readLe16 record.config 2
  subsystemVendor := readLe16 record.config pciSubsystemVendorIdOffset
  subsystemDevice := readLe16 record.config pciSubsystemIdOffset
  rootBridgeHandle := record.rootBridgeHandle
  rootBridgeIo := record.rootBridgeIo
  parentHostHandle := record.rootBridgeIo.getD 0
  originalCommand := readLe16 record.config pciCommandRegisterOffset
  originalAttributes := record.currentAttributes
  originalAttributesStatus := record.currentAttributesStatus

def copyEndpoint (record : PciRecord) : Except EfiStatus NativeEndpoint :=
  if record.locationStatus.isError || record.configStatus.isError || record.pciIo == 0 ||
      record.segment > 0xFFFF || record.bus > 0xFF || record.device > 31 || record.function > 7 then
    .error .invalidParameter
  else .ok record.endpoint

/-! ### The displays -/

/-- The target is the card that the configuration expects, as far as it says. -/
def isExpectedCard (core : NcvConfigCore) (target : NativeEndpoint) : Bool :=
  !(core.hasExpectedVendor && target.vendor != core.expectedVendor ||
    core.hasExpectedDevice && target.deviceId != core.expectedDevice ||
    core.hasExpectedSubsystemVendor && target.subsystemVendor != core.expectedSubsystemVendor ||
    core.hasExpectedSubsystemDevice && target.subsystemDevice != core.expectedSubsystemDevice)

/-- The displays hang below one root bridge of one host. -/
def shareRootBridge (target active : NativeEndpoint) : Bool :=
  !(target.inventoryRecord.rootBridgeStatus.isError || active.inventoryRecord.rootBridgeStatus.isError ||
    target.rootBridgeHandle == 0 || active.rootBridgeHandle == 0 ||
    target.rootBridgeIo.isNone || active.rootBridgeIo.isNone ||
    target.parentHostHandle == 0 || active.parentHostHandle == 0 ||
    target.rootBridgeHandle != active.rootBridgeHandle ||
    target.parentHostHandle != active.parentHostHandle)

/-- The two displays that were found, as a plan has them. -/
def acceptDisplays (core : NcvConfigCore) (target active : PciRecord) :
    Except EfiStatus (NativeEndpoint × NativeEndpoint) :=
  match copyEndpoint target with
  | .error status => .error status
  | .ok target =>
      match copyEndpoint active with
      | .error status => .error status
      | .ok active =>
          if target.address.segment ≠ 0 then .error .unsupported
          else if !isExpectedCard core target then .error .securityViolation
          else if !shareRootBridge target active then .error .noMapping
          else .ok (target, active)

/-- The target's endpoint, and the active display's. -/
def findVideoEndpoints (core : NcvConfigCore) (inventory : List PciRecord) :
    Except EfiStatus (NativeEndpoint × NativeEndpoint) :=
  match (scan (·.isTarget core.targetPci) inventory).only with
  | none => .error .notFound
  | some (target, targetIndex) =>
      match (scan PciRecord.ownsLegacyVga inventory).only with
      | none => .error .noMapping
      | some (active, activeIndex) =>
          if targetIndex = activeIndex then .error .alreadyStarted
          else acceptDisplays core target active

/-! ### The disk's controller -/

/-- How the boot options of disks on this kind of controller are called, and how those of the other kind. -/
def defaultDescription (isUsb : Bool) : List UInt16 := if isUsb then ofString "USB" else ofString "Hard Drive"

/-- The configuration with the descriptions that it leaves open. -/
def resolveDescriptions (config : ProbeConfig) (isUsb : Bool) : ProbeConfig :=
  { config with
    legacyOptionDescription :=
      if config.core.hasLegacyOptionDescription then config.legacyOptionDescription
      else defaultDescription isUsb
    excludeDescription :=
      if config.core.hasExcludeDescription then config.excludeDescription else defaultDescription !isUsb }

/-- What discovery is asked for. -/
def ProbeConfig.discoverRequest (config : ProbeConfig) : DiscoverRequest where
  target := config.diskTarget
  legacyOptionDescription := config.legacyOptionDescription
  excludeDescription := config.excludeDescription

/-- The controller that was found, and the configuration as the boot goes on with it. A controller of USB can
have several disks, so its address alone does not name one. -/
def acceptController (config : ProbeConfig) (selected : PciRecord) :
    Except EfiStatus (NativeEndpoint × ProbeConfig) :=
  match copyEndpoint selected with
  | .error status => .error status
  | .ok endpoint =>
      if selected.isUsbController &&
          (!config.core.hasTargetBbsDescription || config.targetBbsDescription.isEmpty) then
        .error .invalidParameter
      else .ok (endpoint, resolveDescriptions config selected.isUsbController)

def findStorageController (config : ProbeConfig) (inventory : List PciRecord) :
    Except EfiStatus (NativeEndpoint × ProbeConfig) :=
  match (scan (·.isTargetController config.core.targetControllerPci) inventory).only with
  | none => .error .noMapping
  | some (selected, _) =>
      if (scan (·.isSegmentlessController config.core.targetControllerPci) inventory).count ≠ 1 then
        .error .noMapping
      else acceptController config selected

end CsmVgaSelector
