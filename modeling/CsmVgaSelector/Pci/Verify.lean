import CsmVgaSelector.MemoryMap
import CsmVgaSelector.Pci.Build

/-!
# Verifying the inventory's snapshot

At its end the report reads every register again that it captured at its beginning, and says whether one has
changed. A failed read of the configuration space is the new status whatever came before; a failed query of
attributes is so only while nothing is wrong yet.
-/

namespace CsmVgaSelector

def pciCommandOffset : Nat := 0x04
def pciBar0Offset : Nat := 0x10

/-- What the calls about one record answer at the end. An entry point that is not there is `none`. -/
structure ReadBack where
  read : ConfigAnswer
  attributes : Option AttributesAnswer
  rootAttributes : Option RootAttributesAnswer

/-- One of the six dwords of the base addresses has changed. -/
def barsChanged (before after : List UInt8) : Bool :=
  (List.range 6).any fun slot =>
    readLe before (pciBar0Offset + 4 * slot) 4 != readLe after (pciBar0Offset + 4 * slot) 4

/-- A record that has been read, and can be read again. -/
def isVerifiable (record : PciRecord) : Bool :=
  !record.configStatus.isError && recordLocationIsValid record.toPciDeviceRecord && record.pciIo != 0 &&
    record.pciRead

/-- The registers that were captured of the device. -/
def verifyConfig (record : PciRecord) (current : List UInt8) (overallStatus : EfiStatus) : EfiStatus :=
  if readLe16 record.config pciCommandOffset ≠ readLe16 current pciCommandOffset then .compromisedData
  else if recordIsDisplay record.toPciDeviceRecord && barsChanged record.config current then .compromisedData
  else if recordIsP2pBridge record.toPciDeviceRecord &&
      readLe16 record.config pciBridgeControlOffset != readLe16 current pciBridgeControlOffset then
    .compromisedData
  else overallStatus

def keepFirst (overallStatus status : EfiStatus) : EfiStatus :=
  if overallStatus.isError then overallStatus else status

def verifyAttributes (record : PciRecord) (attributes : Option AttributesAnswer) (overallStatus : EfiStatus) :
    EfiStatus :=
  match attributes with
  | none => overallStatus
  | some answer =>
      if record.currentAttributesStatus.isError then overallStatus
      else if answer.status.isError then keepFirst overallStatus answer.status
      else if answer.attributes ≠ record.currentAttributes then .compromisedData
      else overallStatus

def verifyRootAttributes (record : PciRecord) (attributes : Option RootAttributesAnswer)
    (overallStatus : EfiStatus) : EfiStatus :=
  match attributes with
  | none => overallStatus
  | some answer =>
      if !recordIsDisplay record.toPciDeviceRecord || record.rootBridgeStatus.isError ||
          record.rootAttributesStatus.isError || record.rootBridgeIo.isNone then
        overallStatus
      else if answer.status.isError then keepFirst overallStatus answer.status
      else if answer.supported ≠ record.rootSupportedAttributes ∨ answer.current ≠ record.rootCurrentAttributes then
        .compromisedData
      else overallStatus

/-- One turn of the loop. -/
def verifyRecord (record : PciRecord) (now : ReadBack) (overallStatus : EfiStatus) : EfiStatus :=
  if !isVerifiable record then overallStatus
  else if now.read.status.isError then now.read.status
  else
    verifyRootAttributes record now.rootAttributes
      (verifyAttributes record now.attributes (verifyConfig record now.read.bytes.toList overallStatus))

/-- The records in their order, each with what is answered about it now. -/
def pciVerifyReadOnlySnapshot (inventory : List (PciRecord × ReadBack)) : EfiStatus :=
  inventory.foldl (fun overallStatus (record, now) => verifyRecord record now overallStatus) .success

end CsmVgaSelector
