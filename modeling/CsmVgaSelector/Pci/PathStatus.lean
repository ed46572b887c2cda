import CsmVgaSelector.Bbs.Transaction
import CsmVgaSelector.Pci.Build
import CsmVgaSelector.Pci.BusPath

/-!
# What is reported of the bridge paths

Setup asks of every display whether it has a path and whether the bus registers agree with it, and reports the
paths of all displays one by one. A path that was found by bus numbers only is reported as none. The messages
logged on the way are left out, and a grant is an allocation's answer.
-/

namespace CsmVgaSelector

/-- What `PciProbeDevicePathBridgePathStatus` answers. -/
structure PathProbe where
  status : EfiStatus
  pathDiscovered : Bool := false
  pathValidated : Bool := false
  deriving DecidableEq

def pciProbeDevicePathBridgePathStatus (granted : Bool) (inventory : PciInventory)
    (selected : PciDeviceRecord) : PathProbe :=
  if !recordLocationIsValid selected || !recordIsDisplay selected then { status := .invalidParameter }
  else if selected.rootBridgeStatus.isError || selected.rootBridgeHandle == 0 ||
      selected.rootBridgeIo.getD 0 == 0 then
    { status := .noMapping }
  else if inventory.length > maxUintn / 8 || !granted then { status := .outOfResources }
  else
    match buildDevicePathBridgePath inventory selected with
    | .error status => { status }
    | .ok path =>
        let status := crossCheckBridgePath inventory selected path
        { status, pathDiscovered := true, pathValidated := !status.isError }

def printRootBridge (display : PciRecord) : EfiStatus :=
  if display.rootBridgeStatus.isError then display.rootBridgeStatus
  else if display.rootBridgeIo.isNone then .compromisedData
  else if display.rootAttributesStatus.isError then display.rootAttributesStatus
  else .success

/-- The path that is printed, and whether the device path gave it. -/
def deriveBridgePath (inventory : PciInventory) (display : PciDeviceRecord) :
    Except EfiStatus (List Nat × Bool) :=
  match buildDevicePathBridgePath inventory display with
  | .ok path => .ok (path, true)
  | .error _ =>
      match buildBusBridgePath inventory display with
      | .ok path => .ok (path, false)
      | .error status => .error status

def printBridgePathForRecord (granted : Bool) (inventory : PciInventory) (display : PciRecord) : EfiStatus :=
  if !recordLocationIsValid display.toPciDeviceRecord || !recordIsDisplay display.toPciDeviceRecord then
    .invalidParameter
  else if inventory.length > maxUintn / 8 || !granted then .outOfResources
  else
    match deriveBridgePath inventory display.toPciDeviceRecord with
    | .error status => status
    | .ok (path, usedDevicePath) =>
        let crossCheckStatus := crossCheckBridgePath inventory display.toPciDeviceRecord path
        if crossCheckStatus.isError then crossCheckStatus
        else if !usedDevicePath then .noMapping
        else printRootBridge display

/-- The displays of the report, each with what its allocation was granted. -/
def reportedDisplays (granted : Nat → Bool) (records : List PciRecord) : List (PciRecord × Bool) :=
  ((records.filter fun record => recordIsDisplay record.toPciDeviceRecord).zipIdx).map fun (record, place) =>
    (record, granted place)

def pciPrintAllDisplayBridgePaths (granted : Nat → Bool) (records : List PciRecord) : EfiStatus :=
  let inventory := records.map PciRecord.toPciDeviceRecord
  let displays := reportedDisplays granted records
  if displays.isEmpty then .notFound
  else
    displays.foldl (fun overallStatus display =>
      firstError overallStatus (printBridgePathForRecord display.2 inventory display.1)) .success

def pciPrintSelectedBridgePath (granted : Bool) (records : List PciRecord)
    (segment bus device function : Nat) : EfiStatus :=
  if segment > 0xFFFF ∨ bus > 0xFF ∨ device > 31 ∨ function > 7 then .invalidParameter
  else
    match findDevice records segment bus device function with
    | none => .notFound
    | some selected =>
        if !recordIsDisplay selected.toPciDeviceRecord then .invalidParameter
        else printBridgePathForRecord granted (records.map PciRecord.toPciDeviceRecord) selected

end CsmVgaSelector
