import CsmVgaSelector.Pci.Verify
import CsmVgaSelector.Route.Compatibility16

/-!
# The resources behind the base addresses

The firmware describes the window behind a base address as a list of ACPI address-space descriptors, of which
the report believes nothing that does not agree with the configuration space and with the descriptors before.
The list ends with a tag that may carry a checksum. The messages logged on the way decide nothing, and are left
out but for the window that was validated.
-/

namespace CsmVgaSelector

open Peek

def barResourceScanLimit : Nat := 4096
def barResourceDescriptorLimit : Nat := 64
def acpiLargeDescriptorHeaderSize : Nat := 3
def acpiEndTagSize : Nat := 2

/-- The size of `EFI_ACPI_ADDRESS_SPACE_DESCRIPTOR`. -/
def acpiAddressSpaceBytes : Nat := 46

def acpiEndTagDescriptor : UInt8 := 0x79
def acpiAddressSpaceDescriptor : UInt8 := 0x8A
def acpiAddressSpaceTypeMem : UInt8 := 0
def acpiAddressSpaceTypeIo : UInt8 := 1
def acpiLargeDescriptorBit : UInt8 := 0x80

def uint64Max : UInt64 := 0xFFFFFFFFFFFFFFFF

def readLe64 (bytes : List UInt8) (offset : Nat) : UInt64 := .ofNat (readLe bytes offset 8)

/-- The fields of `EFI_ACPI_ADDRESS_SPACE_DESCRIPTOR` that are looked at. -/
structure AddressSpace where
  resType : UInt8
  granularity : UInt64
  hostBase : UInt64
  rangeMaximum : UInt64
  translation : UInt64
  length : UInt64
  deriving DecidableEq

def addressSpace (descriptor : List UInt8) : AddressSpace where
  resType := descriptor[3]!
  granularity := readLe64 descriptor 6
  hostBase := readLe64 descriptor 14
  rangeMaximum := readLe64 descriptor 22
  translation := readLe64 descriptor 30
  length := readLe64 descriptor 38

/-- What the configuration space says of the window. -/
structure BarExpected where
  expectedIo : Bool
  expected64Bit : Bool
  configBusBase : UInt64

namespace AddressSpace

variable (resource : AddressSpace)

def hostOverflows : Bool :=
  resource.length == 0 || resource.hostBase > uint64Max - (resource.length - 1) ||
    resource.hostBase > uint64Max - resource.translation

def hostEnd : UInt64 := if resource.hostOverflows then 0 else resource.hostBase + resource.length - 1

def busBase : UInt64 := if resource.hostOverflows then 0 else resource.hostBase + resource.translation

def busOverflows : Bool := resource.busBase > uint64Max - (resource.length - 1)

def busEnd : UInt64 :=
  if resource.hostOverflows || resource.busOverflows then 0 else resource.busBase + resource.length - 1

/-- The first two warnings. -/
def typeIsExpected (bar : BarExpected) : Bool :=
  if resource.resType != acpiAddressSpaceTypeMem && resource.resType != acpiAddressSpaceTypeIo then false
  else (resource.resType == acpiAddressSpaceTypeIo) == bar.expectedIo

def widthIsExpected (bar : BarExpected) : Bool :=
  if resource.resType == acpiAddressSpaceTypeMem then
    if resource.granularity != 32 && resource.granularity != 64 then false
    else (resource.granularity == 64) == bar.expected64Bit
  else true

/-- `AddrRangeMax` is where the range ends, or a mask that the bus address is aligned to. -/
def rangeMaximumIsValid : Bool :=
  if resource.rangeMaximum == resource.hostEnd then true
  else if resource.rangeMaximum ≥ resource.length - 1 &&
      resource.rangeMaximum &&& (resource.rangeMaximum + 1) == 0 then
    resource.busBase &&& resource.rangeMaximum == 0
  else false

end AddressSpace

/-- What has been put together from the descriptors before. -/
structure BarScan where
  resourceCount : Nat := 0
  listValid : Bool := true
  firstHostBase : UInt64 := 0
  firstBusBase : UInt64 := 0
  previousHostEnd : UInt64 := 0
  previousBusEnd : UInt64 := 0
  combinedLength : UInt64 := 0

namespace BarScan

/-- The first range begins where the configuration space says, and each later one where the one before ends. -/
def joins (bar : BarExpected) (scan : BarScan) (resource : AddressSpace) : Bool :=
  if scan.resourceCount = 0 then resource.busBase == bar.configBusBase
  else
    !(scan.previousHostEnd == uint64Max || scan.previousBusEnd == uint64Max ||
      resource.hostBase != scan.previousHostEnd + 1 || resource.busBase != scan.previousBusEnd + 1)

/-- A range whose ends do not overflow. -/
def addRange (bar : BarExpected) (scan : BarScan) (resource : AddressSpace) : BarScan :=
  let lengthOverflows : Bool := scan.combinedLength > uint64Max - resource.length
  { scan with
    listValid := scan.listValid && resource.rangeMaximumIsValid && scan.joins bar resource && !lengthOverflows
    firstHostBase := if scan.resourceCount = 0 then resource.hostBase else scan.firstHostBase
    firstBusBase := if scan.resourceCount = 0 then resource.busBase else scan.firstBusBase
    previousHostEnd := resource.hostEnd
    previousBusEnd := resource.busEnd
    combinedLength :=
      if lengthOverflows then scan.combinedLength else scan.combinedLength + resource.length }

/-- One descriptor. -/
def add (bar : BarExpected) (scan : BarScan) (resource : AddressSpace) : BarScan :=
  let scan :=
    { scan with
      listValid := scan.listValid && resource.typeIsExpected bar && resource.widthIsExpected bar }
  let scan :=
    if resource.hostOverflows || resource.busOverflows then { scan with listValid := false }
    else scan.addRange bar resource
  { scan with resourceCount := scan.resourceCount + 1 }

end BarScan

/-- Where the list ends: what was put together, and whether it was its end tag. -/
structure BarList where
  scan : BarScan
  endTagFound : Bool

def BarScan.stop (scan : BarScan) : BarList := ⟨{ scan with listValid := false }, false⟩

/-- The list from this offset on, with so many descriptors allowed. -/
def readBarResources (snapshot : MemoryMapSnapshot) (bar : BarExpected) (resources : Nat) :
    Nat → Nat → UInt8 → BarScan → Peek Nat UInt8 BarList
  | 0, _, _, scan => return ⟨scan, false⟩
  | limit + 1, offset, checksum, scan =>
      if offset ≥ barResourceScanLimit then return ⟨scan, false⟩
      else if resources > maxUintn - offset ∨ ¬ isReadable snapshot (resources + offset) 1 then return scan.stop
      else do
        let tag ← peek (resources + offset)
        if tag = acpiEndTagDescriptor then
          if offset > barResourceScanLimit - acpiEndTagSize ∨
              ¬ isReadable snapshot (resources + offset) acpiEndTagSize then
            return scan.stop
          else
            let descriptor ← peekBytes (resources + offset) acpiEndTagSize
            let checksum := checksum + descriptor.sum
            return ⟨{ scan with listValid := scan.listValid && !(descriptor[1]! != 0 && checksum != 0) }, true⟩
        else if tag ≠ acpiAddressSpaceDescriptor then
          -- The length of a large descriptor is read for the message.
          if tag &&& acpiLargeDescriptorBit ≠ 0 ∧
              offset ≤ barResourceScanLimit - acpiLargeDescriptorHeaderSize ∧
              isReadable snapshot (resources + offset) acpiLargeDescriptorHeaderSize then
            let _ ← peekWord (resources + offset + 1)
            return scan.stop
          else return scan.stop
        else if offset > barResourceScanLimit - acpiLargeDescriptorHeaderSize ∨
            ¬ isReadable snapshot (resources + offset) acpiLargeDescriptorHeaderSize then
          return scan.stop
        else
          let descriptorLength ← peekWord (resources + offset + 1)
          if descriptorLength.toNat ≠ acpiAddressSpaceBytes - acpiLargeDescriptorHeaderSize then return scan.stop
          else
            let totalLength := acpiLargeDescriptorHeaderSize + descriptorLength.toNat
            if offset > barResourceScanLimit - totalLength ∨
                ¬ isReadable snapshot (resources + offset) totalLength then
              return scan.stop
            else
              let descriptor ← peekBytes (resources + offset) totalLength
              readBarResources snapshot bar resources limit (offset + totalLength) (checksum + descriptor.sum)
                (scan.add bar (addressSpace descriptor))

/-- The window that the report prints as validated. -/
structure BarWindow where
  descriptors : Nat
  hostBase : UInt64
  busBase : UInt64
  size : UInt64
  deriving DecidableEq

/-- What follows the loop. -/
def BarList.finish (bar : BarExpected) (list : BarList) : EfiStatus × Option BarWindow :=
  let scan := list.scan
  if !list.endTagFound then (.compromisedData, none)
  else if scan.resourceCount = 0 then
    if bar.configBusBase ≠ 0 then (.compromisedData, none)
    else (if scan.listValid then .success else .compromisedData, none)
  else if !scan.listValid then (.compromisedData, none)
  else (.success, some ⟨scan.resourceCount, scan.firstHostBase, scan.firstBusBase, scan.combinedLength⟩)

/-- `PrintBarResourceList`, with what the capture of the memory map gives. -/
def printBarResourceList (captured : Except EfiStatus MemoryMapSnapshot) (bar : BarExpected)
    (resources logicalBarIndex : Nat) : Peek Nat UInt8 (EfiStatus × Option BarWindow) :=
  if resources = 0 ∨ logicalBarIndex ≥ 6 then return (.invalidParameter, none)
  else
    match captured with
    | .error status => return (status, none)
    | .ok snapshot => do
        let list ← readBarResources snapshot bar resources barResourceDescriptorLimit 0 0 {}
        return list.finish bar

/-! ### The base addresses of a display -/

/-- A base address as the configuration space holds it. -/
structure ConfigBar where
  expected : BarExpected
  consumesNextBar : Bool

def configBar (config : List UInt8) (configBarIndex : Nat) : ConfigBar :=
  let rawLow := readLe config (pciBar0Offset + configBarIndex * 4) 4
  if rawLow &&& 1 ≠ 0 then ⟨⟨true, false, .ofNat (rawLow &&& 0xFFFFFFFC)⟩, false⟩
  else
    let is64 := (rawLow >>> 1) &&& 3 == 2
    if is64 && configBarIndex < 5 then
      let rawHigh := readLe config (pciBar0Offset + (configBarIndex + 1) * 4) 4
      ⟨⟨false, is64, .ofNat ((rawHigh <<< 32) ||| (rawLow &&& 0xFFFFFFF0))⟩, true⟩
    else ⟨⟨false, is64, .ofNat (rawLow &&& 0xFFFFFFF0)⟩, false⟩

/-- What `GetBarAttributes` answers. -/
structure BarAnswer where
  status : EfiStatus
  /-- Zero while it is `NULL`. -/
  resources : Nat

/-- What is left of one base address. -/
structure BarOutcome where
  status : EfiStatus
  window : Option BarWindow
  /-- What `FreePool` is called with. -/
  freed : Option Nat

/-- The calls about one base address. An entry point that is not there is `none`. -/
structure BarFirmware where
  getBarAttributes : Option (Nat → BarAnswer)
  captured : Nat → Except EfiStatus MemoryMapSnapshot
  freePool : Nat → EfiStatus

def printBar (firmware : BarFirmware) (config : List UInt8) (configBarIndex logicalBarIndex : Nat) :
    Peek Nat UInt8 BarOutcome :=
  if configBarIndex ≥ 6 ∨ logicalBarIndex ≥ 6 then return ⟨.invalidParameter, none, none⟩
  else
    let answer : BarAnswer :=
      firmware.getBarAttributes.elim ⟨.unsupported, 0⟩ fun answers => answers logicalBarIndex
    if answer.status.isError then return ⟨answer.status, none, none⟩
    else if answer.resources = 0 then return ⟨.compromisedData, none, none⟩
    else do
      let listed ← printBarResourceList (firmware.captured logicalBarIndex)
        (configBar config configBarIndex).expected answer.resources logicalBarIndex
      let freeStatus := firmware.freePool answer.resources
      return ⟨if freeStatus.isError && !listed.1.isError then freeStatus else listed.1, listed.2,
        some answer.resources⟩

/-- The loop over the base addresses: the dword each begins with, and its logical number. -/
def barIndices (config : List UInt8) (barIndex logicalBarIndex : Nat) : List (Nat × Nat) :=
  if barIndex < 6 then
    (barIndex, logicalBarIndex) ::
      barIndices config (barIndex + (if (configBar config barIndex).consumesNextBar then 2 else 1))
        (logicalBarIndex + 1)
  else []
  termination_by 6 - barIndex
  decreasing_by split <;> omega

/-- What `PrintDisplay` says of these base addresses. -/
def printBars (firmware : BarFirmware) (config : List UInt8) : List (Nat × Nat) → Peek Nat UInt8 (List BarOutcome)
  | [] => return []
  | (barIndex, logicalBarIndex) :: rest => do
      let outcome ← printBar firmware config barIndex logicalBarIndex
      let outcomes ← printBars firmware config rest
      return outcome :: outcomes

def printDisplayBars (firmware : BarFirmware) (config : List UInt8) : Peek Nat UInt8 (List BarOutcome) :=
  printBars firmware config (barIndices config 0 0)

end CsmVgaSelector
