import CsmVgaSelector.Route.Classify
import CsmVgaSelector.Route.Compatibility16
import CsmVgaSelector.Route.Endpoints
import CsmVgaSelector.Rom.Check

/-!
# Building a run plan

A boot plans everything before it changes anything: the firmware's entry points, the inventory, the two displays,
the bridge paths between them, the target's ROM, the controller of the disk and the disk's row. The first part
that fails ends the build with its status.

The registers are those that the route writes later; what else the build is answered comes from its sources. The
messages logged on the way decide nothing, and are left out.
-/

namespace CsmVgaSelector

/-- What the build is answered, apart from the route's registers. -/
structure PlanSources where
  memory : Nat → UInt8
  systemTable : Nat
  compatibilityMap : Except EfiStatus MemoryMapSnapshot
  /-- The status of `LocateProtocol`, and whether the entry points that are needed are there. -/
  legacyBios : EfiStatus × Bool
  legacyRegion2 : EfiStatus × Bool
  located : EfiStatus
  handles : List HandleAnswer
  devicesGranted : Bool
  buffersFreed : Option EfiStatus
  /-- The target's attributes as they are now, if the protocol has them. -/
  attributes : Option AttributesAnswer
  /-- Zero while the target exposes no ROM. -/
  romImage : Nat
  rom : List UInt8
  survey : RomSurvey
  boot : BootState
  bootAnswers : Nat → FirmwareAnswer
  bootRanges : Except EfiStatus MemoryMapSnapshot

/-! ### The entry points and the displays -/

/-- A configuration that boots names everything that the boot needs. -/
def bootKeysPresent (core : NcvConfigCore) : Bool :=
  !core.probe && core.hasTargetPci && core.hasTargetControllerPci && core.hasIoDecoding &&
    core.hasMemoryDecoding && core.hasBusMastering

/-- What is there when the displays have been found. -/
structure PlanDisplays where
  compatibility16 : PlanCompatibility16
  inventory : List PciRecord
  target : NativeEndpoint
  active : NativeEndpoint

/-- A protocol that was located without an entry point is unsupported. -/
def protocolStatus (protocol : EfiStatus × Bool) : EfiStatus :=
  if protocol.1.isError then protocol.1 else if protocol.2 then .success else .unsupported

def orStop (status : EfiStatus) : Except EfiStatus Unit := if status.isError then .error status else .ok ()

def planDisplays (sources : PlanSources) (core : NcvConfigCore) : Except EfiStatus PlanDisplays := do
  orStop (if bootKeysPresent core then .success else .notFound)
  let (status, compatibility16) :=
    (selectCompatibility16 sources.compatibilityMap sources.systemTable).run sources.memory
  orStop status
  orStop (protocolStatus sources.legacyBios)
  orStop (protocolStatus sources.legacyRegion2)
  let inventory ←
    pciInventoryBuild sources.located sources.handles sources.devicesGranted sources.buffersFreed
  let (target, active) ← findVideoEndpoints core inventory
  return { compatibility16, inventory, target, active }

def bridgeInventory (inventory : List PciRecord) : PciInventory := inventory.map PciRecord.toPciDeviceRecord

/-! ### The target -/

/-- The target's command and attributes are as the inventory has them. -/
def journalEndpoint (attributes : Option AttributesAnswer) (target : NativeEndpoint) : RouteQuery EfiStatus :=
  match attributes with
  | none => return .unsupported
  | some live => do
      if target.pciIo = 0 ∨ target.inventoryRecord.pciRead = false then return .unsupported
      let (status, liveCommand) ← readRegister fun state => state.command target.address
      if status.isError || liveCommand != target.originalCommand then return .notReady
      if live.status.isError || target.originalAttributesStatus.isError ||
          live.attributes != target.originalAttributes then
        return .notReady
      return .success

/-- The legacy image of the target's ROM. -/
structure SelectedRom where
  romValidation : OptionRomValidation
  selectedRomOffset : Nat
  selectedRom : List UInt8

def selectImage (romImage : Nat) (rom : List UInt8) (target : NativeEndpoint) : Except EfiStatus SelectedRom :=
  if target.pciIo = 0 ∨ romImage = 0 ∨ rom.length = 0 then .error .notFound
  else
    match optionRomParseAndValidate romImage rom rom.length target.vendor target.deviceId with
    | .error _ => .error .compromisedData
    | .ok romValidation =>
        let offset := romValidation.matchingLegacyImageOffset
        let size := romValidation.matchingLegacyImageSize
        if !romValidation.matchingLegacyImageFound ∨ romValidation.matchingLegacyCandidateCount ≠ 1 ∨
            size = 0 ∨ size > recoveryWindow ∨ offset > rom.length ∨ size > rom.length - offset then
          .error .compromisedData
        else .ok { romValidation, selectedRomOffset := offset, selectedRom := (rom.drop offset).take size }

/-- What the check of the legacy ROMs reads of the plan so far. -/
def PlanDisplays.romPlan (displays : PlanDisplays) (selected : SelectedRom) : RomPlan where
  selectedRom := selected.selectedRom
  activeVendor := displays.active.vendor
  activeDevice := displays.active.deviceId
  inventory := bridgeInventory displays.inventory
  romValidation := selected.romValidation

/-- The image, and the state that its check leaves. -/
def selectRom (sources : PlanSources) (displays : PlanDisplays) (state : RomState) :
    Except EfiStatus SelectedRom × RomState :=
  match selectImage sources.romImage sources.rom displays.target with
  | .error status => (.error status, state)
  | .ok selected =>
      let checked := state.legacyRomGuardCheck sources.survey (displays.romPlan selected)
      if checked.1.isError then (.error checked.1, checked.2) else (.ok selected, checked.2)

/-! ### The disk -/

/-- The boot target, as far as the dispatch table can carry it. -/
def findBootTarget (request : DiscoverRequest) : Boot EfiStatus := do
  let status ← legacyBootBootTargetDiscover request
  if status.isError then return status
  let context := (← get).context
  if context.bbsCount > 0xFF ∨ context.firmwareBbsTable > 0xFFFFFFFF then return .unsupported
  legacyBootBootTargetValidateOwnedCopies

/-- What is there when the disk has been found. -/
structure PlanDisk where
  config : ProbeConfig
  storageController : NativeEndpoint
  bootTarget : BootTargetContext

def planDisk (sources : PlanSources) (config : ProbeConfig) (inventory : List PciRecord) :
    Except EfiStatus PlanDisk := do
  let (storageController, config) ← findStorageController config inventory
  let (status, boot) :=
    (findBootTarget config.discoverRequest).run sources.bootAnswers { sources.boot with context := {} }
  orStop status
  return { config, storageController, bootTarget := boot.context }

/-! ### The plan -/

/-- The ranges that the boot reads and writes below the first megabyte. -/
def bootRangesAreReadable (map : MemoryMapSnapshot) : Bool :=
  (map.memoryMapRangeIsReadable 0 0x500 false).1 && (map.memoryMapRangeIsReadable 0xC0000 0x10000 false).1 &&
    (map.memoryMapRangeIsReadable 0xE0000 0x20000 false).1

/-- `MemoryMapValidateBootRanges`, with the memory map or the status its capture failed with. -/
def validateBootRanges (captured : Except EfiStatus MemoryMapSnapshot) : EfiStatus :=
  match captured with
  | .error status => status
  | .ok map => if bootRangesAreReadable map then .success else .securityViolation

/-- `NATIVE_CSM_VGA_RUNTIME_PLAN`, when it is complete. -/
structure NativePlan where
  config : ProbeConfig
  displays : PlanDisplays
  paths : ClassifiedPaths
  rom : SelectedRom
  disk : PlanDisk
  initialInt10Offset : UInt16
  initialInt10Segment : UInt16

/-- The retired mode is rejected, never weakened. -/
def finalizeValidation (config : ProbeConfig) : EfiStatus :=
  if config.core.requireReferenceSnapshotMatch then .unsupported else .success

def interrupt10 : Nat := 0x10 * 4

/-- The parts behind the registers. -/
def finishPlan (sources : PlanSources) (config : ProbeConfig) (displays : PlanDisplays) (paths : ClassifiedPaths)
    (rom : SelectedRom) : Except EfiStatus NativePlan := do
  let disk ← planDisk sources config displays.inventory
  orStop (validateBootRanges sources.bootRanges)
  orStop (finalizeValidation config)
  return {
    config := disk.config
    displays
    paths
    rom
    disk
    initialInt10Offset := le16 sources.memory interrupt10
    initialInt10Segment := le16 sources.memory (interrupt10 + 2) }

/-- From the displays on: the paths, the target's registers, its ROM, and the rest. -/
def planRoute (sources : PlanSources) (config : ProbeConfig) (displays : PlanDisplays) (state : RomState) :
    RouteQuery (Except EfiStatus NativePlan × RomState) := do
  match ← buildAndClassifyPaths (bridgeInventory displays.inventory)
      displays.active.inventoryRecord.toPciDeviceRecord displays.target.inventoryRecord.toPciDeviceRecord with
  | .error status => return (.error status, state)
  | .ok paths =>
      let status ← journalEndpoint sources.attributes displays.target
      if status.isError then return (.error status, state)
      match selectRom sources displays state with
      | (.error status, state) => return (.error status, state)
      | (.ok rom, state) => return (finishPlan sources config displays paths rom, state)

/-- The plan, and the state of the legacy ROMs. -/
def PlanSources.nativeCsmVgaRuntimePlanBuild (sources : PlanSources) (config : ProbeConfig) (state : RomState) :
    RouteQuery (Except EfiStatus NativePlan × RomState) :=
  match planDisplays sources config.core with
  | .error status => return (.error status, state)
  | .ok displays => planRoute sources config displays state

/-- The plan as the route writes it. -/
def NativePlan.route (plan : NativePlan) : RuntimePlan :=
  plan.paths.plan plan.config.core.ioDecoding plan.config.core.memoryDecoding plan.config.core.busMastering
    { address := plan.displays.target.address, originalCommand := plan.displays.target.originalCommand }

end CsmVgaSelector
