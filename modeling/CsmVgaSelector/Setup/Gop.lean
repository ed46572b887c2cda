import CsmVgaSelector.Lib.Only
import CsmVgaSelector.Setup.Displays

/-!
# Which display the firmware draws on

Every graphics output of the firmware is associated with a display, where there is exactly one that has its
handle or the beginning of its device path. Unless each of them could be, a display that none was associated
with stays unknown. The messages logged on the way decide nothing, and are left out.
-/

namespace CsmVgaSelector

open Only

/-- What the firmware answers about one handle with a graphics output. -/
structure GopAnswer where
  handle : Nat
  status : EfiStatus
  /-- Zero while it is `NULL`. -/
  gop : Nat
  pathStatus : EfiStatus
  /-- The handle's device path, if there is one and `IsDevicePathValid` says that it is. -/
  path : Option DevicePath

namespace GopAnswer

variable (answer : GopAnswer)

def usablePath : Option DevicePath := if answer.pathStatus.isError then none else answer.path

/-- The record is a display that the graphics output may belong to. -/
def mayBelongTo (record : PciRecord) : Bool :=
  recordLocationIsValid record.toPciDeviceRecord && recordIsDisplay record.toPciDeviceRecord &&
    (record.handle == answer.handle ||
      devicePathPrefix record.devicePath record.devicePathSize answer.usablePath
        ((answer.usablePath.map fun path => path.bytes.length).getD 0))

end GopAnswer

namespace NcvDisplayCandidate

variable (candidate : NcvDisplayCandidate)

/-- The candidate is where the record is. -/
def isAt (record : PciRecord) : Bool :=
  candidate.addressValid && candidate.address.segment.toNat == record.segment &&
    candidate.address.bus.toNat == record.bus && candidate.address.device.toNat == record.device &&
    candidate.address.function.toNat == record.function

def associate : NcvDisplayCandidate := { candidate with gopAssociated := true, gopAssociationKnown := true }

end NcvDisplayCandidate

/-- The loop over the candidates, up to the first that is where the record is. -/
def associateFirst (record : PciRecord) : List NcvDisplayCandidate → Option (List NcvDisplayCandidate)
  | [] => none
  | candidate :: rest =>
      if candidate.isAt record then some (candidate.associate :: rest)
      else (associateFirst record rest).map (candidate :: ·)

/-- What the scan of the graphics outputs has found out. -/
structure GopScan where
  items : List NcvDisplayCandidate
  scanComplete : Bool

/-- One turn of the loop. -/
def GopScan.see (records : List PciRecord) (scanned : GopScan) (answer : GopAnswer) : GopScan :=
  if answer.status.isError || answer.gop == 0 then { scanned with scanComplete := false }
  else
    match (scan answer.mayBelongTo records).only with
    | none => { scanned with scanComplete := false }
    | some (record, _) =>
        match associateFirst record scanned.items with
        | none => { scanned with scanComplete := false }
        | some items => { scanned with items }

/-- The candidates as they are left, with what `LocateHandleBuffer` answers. -/
def reportGopOwnership (located : EfiStatus) (answers : List GopAnswer) (records : List PciRecord)
    (items : List NcvDisplayCandidate) : List NcvDisplayCandidate :=
  if located.isError then items
  else
    let scanned := answers.foldl (GopScan.see records) { items, scanComplete := true }
    if scanned.scanComplete then
      scanned.items.map fun candidate => { candidate with gopAssociationKnown := true }
    else scanned.items

end CsmVgaSelector
