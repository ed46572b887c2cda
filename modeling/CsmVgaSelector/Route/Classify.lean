import CsmVgaSelector.Pci.BridgePath
import CsmVgaSelector.Route.Plan

/-!
# The paths of a plan

The bridge paths of the active display and of the target are built, each bridge's live register is read
against the inventory's snapshot and journalled, and the two paths are split into what they share and
what each has alone. A bridge that stands on both paths after they part is refused.
-/

namespace CsmVgaSelector

/-- `NATIVE_CSM_VGA_PLAN_BRIDGE`, with the whole record and before any write. -/
structure JournaledBridge where
  record : PciDeviceRecord
  originalBridgeControl : UInt16
  deriving DecidableEq

def bridgeIdentityEqual (left right : JournaledBridge) : Bool :=
  left.record.handle == right.record.handle && left.record.pciIo == right.record.pciIo &&
    left.record.segment == right.record.segment && left.record.bus == right.record.bus &&
    left.record.device == right.record.device && left.record.function == right.record.function

/-- The paths of a plan that was classified. -/
structure ClassifiedPaths where
  activePath : List JournaledBridge
  targetPath : List JournaledBridge
  sharedPath : List JournaledBridge
  activeExclusivePath : List JournaledBridge
  targetExclusivePath : List JournaledBridge
  deriving DecidableEq

def maxBridges : Nat := 16

def copyAndJournalPath :
    List PciDeviceRecord → RouteQuery (Except EfiStatus (List JournaledBridge))
  | [] => return .ok []
  | record :: rest => do
      if record.pciIo = 0 ∨ record.pciRead = false ∨ record.configStatus.isError then
        return .error .unsupported
      let (status, liveControl) ← readRegister fun state => state.bridgeControl record.address
      if status.isError then return .error status
      if liveControl ≠ readLe16 record.config pciBridgeControlOffset then return .error .notReady
      match ← copyAndJournalPath rest with
      | .error status => return .error status
      | .ok journaled => return .ok ({ record, originalBridgeControl := liveControl } :: journaled)

/-- The bridges that the two paths begin with, copied from the active one. -/
def sharedPrefix : List JournaledBridge → List JournaledBridge →
    Except EfiStatus (List JournaledBridge)
  | active :: activeRest, target :: targetRest =>
      if !bridgeIdentityEqual active target then .ok []
      else if active.originalBridgeControl ≠ target.originalBridgeControl then .error .notReady
      else
        match sharedPrefix activeRest targetRest with
        | .error status => .error status
        | .ok shared => .ok (active :: shared)
  | _, _ => .ok []

/-- A bridge reappears after the paths have parted. -/
def reappears (activeExclusive targetExclusive : List JournaledBridge) : Bool :=
  activeExclusive.any fun active => targetExclusive.any (bridgeIdentityEqual active)

def classifyPaths (activePath targetPath : List JournaledBridge) :
    Except EfiStatus ClassifiedPaths :=
  match sharedPrefix activePath targetPath with
  | .error status => .error status
  | .ok sharedPath =>
      let activeExclusivePath := activePath.drop sharedPath.length
      let targetExclusivePath := targetPath.drop sharedPath.length
      if reappears activeExclusivePath targetExclusivePath then .error .compromisedData
      else
        .ok { activePath, targetPath, sharedPath, activeExclusivePath, targetExclusivePath }

/-- One validated path, with what its allocation was granted, and its bridges' registers. -/
def buildJournaledPath (inventory : PciInventory) (display : PciDeviceRecord) :
    RouteQuery (Except EfiStatus (List JournaledBridge)) := do
  let allocation ← Query.call
  match pciBuildValidatedDevicePathBridgePath (!allocation.status.isError) inventory display
      maxBridges with
  | .error status => return .error status
  | .ok rawPath => copyAndJournalPath rawPath

def buildAndClassifyPaths (inventory : PciInventory) (active target : PciDeviceRecord) :
    RouteQuery (Except EfiStatus ClassifiedPaths) := do
  match ← buildJournaledPath inventory active with
  | .error status => return .error status
  | .ok activePath =>
      match ← buildJournaledPath inventory target with
      | .error status => return .error status
      | .ok targetPath => return classifyPaths activePath targetPath

/-- A bridge as the route writes it. -/
def JournaledBridge.planBridge (bridge : JournaledBridge) : PlanBridge where
  record := bridge.record.address
  originalBridgeControl := bridge.originalBridgeControl

/-- The route's part of a plan with these paths. -/
def ClassifiedPaths.plan (paths : ClassifiedPaths)
    (ioDecoding memoryDecoding busMastering : EndpointPolicy) (target : PlanEndpoint) :
    RuntimePlan where
  ioDecoding := ioDecoding
  memoryDecoding := memoryDecoding
  busMastering := busMastering
  target := target
  sharedPath := paths.sharedPath.map JournaledBridge.planBridge
  activeExclusivePath := paths.activeExclusivePath.map JournaledBridge.planBridge
  targetExclusivePath := paths.targetExclusivePath.map JournaledBridge.planBridge

end CsmVgaSelector
