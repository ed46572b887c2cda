import CsmVgaSelector.Config.Rank
import CsmVgaSelector.Pci.PathStatus
import CsmVgaSelector.Rom.OptionRom
import CsmVgaSelector.Route.Endpoints

/-!
# The displays that setup offers

Setup makes a candidate of every display in the inventory: where it is, what it is, whether it owns legacy VGA,
whether its bridge path holds, and whether the ROM it exposes has a legacy image of it. The target of a
configuration, if there is one, is looked at on the way. The messages logged on the way decide nothing, and are
left out.
-/

namespace CsmVgaSelector

/-- What the PCI I/O of a device exposes; at address zero it exposes no ROM. -/
structure PciRom where
  romImage : Nat
  rom : List UInt8

/-- What the discovery is answered: the ROM of each PCI I/O, and the grant of each path's allocation. -/
structure DisplayAnswers where
  exposed : Nat → PciRom
  granted : Nat → Bool

/-- `NCV_DISPLAY_COLLECTION`, where `Count` is how many items there are. -/
structure NcvDisplayCollection where
  items : List NcvDisplayCandidate := []
  observedCount : Nat := 0
  overflow : Bool := false
  deriving DecidableEq

def NcvDisplayCollection.append (collection : NcvDisplayCollection) (candidate : NcvDisplayCandidate) :
    NcvDisplayCollection :=
  let collection := { collection with observedCount := collection.observedCount + 1 }
  if collection.items.length ≥ maxDisplayCandidates then { collection with overflow := true }
  else { collection with items := collection.items ++ [candidate] }

/-- `VIDEO_DISCOVERY`, without what other reports put into it. -/
structure VideoDiscovery where
  targetFound : Bool := false
  targetIsDisplay : Bool := false
  targetIdentityMatches : Bool := false
  targetRomLegacyValid : Bool := false
  targetRomStatus : EfiStatus := .notFound
  legacyCandidateCount : Nat := 0
  displays : NcvDisplayCollection := {}

/-! ### One record -/

def recordIdentityMatchesConfig (record : PciRecord) (core : NcvConfigCore) : Bool :=
  !record.configStatus.isError &&
    (!core.hasExpectedVendor || readLe16 record.config 0 == core.expectedVendor) &&
    (!core.hasExpectedDevice || readLe16 record.config 2 == core.expectedDevice) &&
    (!core.hasExpectedSubsystemVendor ||
      readLe16 record.config pciSubsystemVendorIdOffset == core.expectedSubsystemVendor) &&
    (!core.hasExpectedSubsystemDevice ||
      readLe16 record.config pciSubsystemIdOffset == core.expectedSubsystemDevice)

namespace PciRecord

variable (record : PciRecord)

def hasLegacyVgaAttributes : Bool :=
  record.currentAttributes &&&
    (efiPciIoAttributeVgaIo ||| efiPciIoAttributeVgaIo16 ||| efiPciIoAttributeVgaMemory) != 0

/-- What the path's probe says; of a record without a location nothing is asked. -/
def probePath (granted : Bool) (inventory : PciInventory) : PathProbe :=
  if recordLocationIsValid record.toPciDeviceRecord then
    pciProbeDevicePathBridgePathStatus granted inventory record.toPciDeviceRecord
  else { status := .notFound }

/-- What `OptionRomParseAndValidate` makes of the exposed ROM, if there is one. -/
def parseRom (exposed : Nat → PciRom) : Option (Except EfiStatus OptionRomValidation) :=
  let image := exposed record.pciIo
  if record.pciIo = 0 ∨ image.romImage = 0 ∨ image.rom.length = 0 then none
  else
    some (optionRomParseAndValidate image.romImage image.rom image.rom.length (readLe16 record.config 0)
      (readLe16 record.config 2))

def romAccepted (exposed : Nat → PciRom) : Bool :=
  match record.parseRom exposed with
  | some (.ok validation) => validation.matchingLegacyImageFound
  | _ => false

/-- The candidate that is made of a display's record. -/
def collected (exposed : Nat → PciRom) (granted : Bool) (inventory : PciInventory) :
    NcvDisplayCandidate where
  address := if recordLocationIsValid record.toPciDeviceRecord then record.address else zeroAddress
  rawSegment := record.segment.toUInt64
  rawBus := record.bus.toUInt64
  rawDevice := record.device.toUInt64
  rawFunction := record.function.toUInt64
  vendor := readLe16 record.config 0
  deviceId := readLe16 record.config 2
  subsystemVendor := readLe16 record.config pciSubsystemVendorIdOffset
  subsystemDevice := readLe16 record.config pciSubsystemIdOffset
  addressValid := recordLocationIsValid record.toPciDeviceRecord
  gopAssociated := false
  gopAssociationKnown := false
  activeLegacyVgaOwner := record.currentAttributesStatus.isError || record.hasLegacyVgaAttributes
  activeLegacyVgaOwnerKnown := !record.currentAttributesStatus.isError
  optionRomExposed := (record.parseRom exposed).isSome
  acceptedLegacyRom := record.romAccepted exposed
  pathDiscovered := (record.probePath granted inventory).pathDiscovered
  pathValidated := (record.probePath granted inventory).pathValidated
  eligible := false
  selected := false

/-- The record is where the configuration has its target. -/
def isConfiguredTarget (core : NcvConfigCore) : Bool :=
  recordLocationIsValid record.toPciDeviceRecord && core.hasTargetPci &&
    record.segment == core.targetPci.segment.toNat && record.bus == core.targetPci.bus.toNat &&
    record.device == core.targetPci.device.toNat && record.function == core.targetPci.function.toNat

end PciRecord

/-! ### All of them -/

namespace VideoDiscovery

variable (discovery : VideoDiscovery)

/-- What is found out about the target, where the record is it. -/
def seeTarget (exposed : Nat → PciRom) (core : NcvConfigCore) (record : PciRecord) : VideoDiscovery :=
  if !record.isConfiguredTarget core then discovery
  else
    let discovery :=
      { discovery with
        targetFound := true
        targetIsDisplay := true
        targetIdentityMatches := recordIdentityMatchesConfig record core }
    match record.parseRom exposed with
    | none => { discovery with targetRomStatus := .notFound }
    | some (.error status) => { discovery with targetRomStatus := status, targetRomLegacyValid := false }
    | some (.ok validation) =>
        { discovery with
          targetRomStatus := .success
          targetRomLegacyValid := validation.matchingLegacyImageFound }

/-- One turn of the loop, for the record at this place. -/
def seeRecord (answers : DisplayAnswers) (core : NcvConfigCore) (inventory : PciInventory)
    (record : PciRecord) (index : Nat) : VideoDiscovery :=
  if !recordIsDisplay record.toPciDeviceRecord then discovery
  else
    let discovery := discovery.seeTarget answers.exposed core record
    { discovery with
      legacyCandidateCount := discovery.legacyCandidateCount + (record.romAccepted answers.exposed).toNat
      displays := discovery.displays.append
        (record.collected answers.exposed (answers.granted index) inventory) }

end VideoDiscovery

def reportRomCandidates (answers : DisplayAnswers) (core : NcvConfigCore) (records : List PciRecord) :
    VideoDiscovery :=
  records.zipIdx.foldl (fun discovery (record, index) =>
    discovery.seeRecord answers core (records.map PciRecord.toPciDeviceRecord) record index) {}

/-! ### The target's path -/

def devicePathPrefix (prefixPath : Option DevicePath) (prefixSize : Nat) (path : Option DevicePath)
    (pathSize : Nat) : Bool :=
  match prefixPath, path with
  | some prefixPath, some path =>
      if prefixSize ≤ endDevicePathLength ∨ pathSize < prefixSize then false
      else
        let compareSize := prefixSize - endDevicePathLength
        prefixPath.bytes.take compareSize == path.bytes.take compareSize
  | _, _ => false

def strictRecordPathPrefix (ancestor descendant : PciDeviceRecord) : Bool :=
  if ancestor.devicePathSize ≥ descendant.devicePathSize then false
  else devicePathPrefix ancestor.devicePath ancestor.devicePathSize descendant.devicePath
    descendant.devicePathSize

/-- The test for a bridge above the target. -/
def isDynamicAncestor (selected candidate : PciDeviceRecord) : Bool :=
  recordLocationIsValid candidate && recordIsP2pBridge candidate && candidate.segment == selected.segment &&
    strictRecordPathPrefix candidate selected

/-- The last loop, with the bridge and the bus below it at each place of the path. -/
def dynamicPathAgrees (inventory : PciInventory) (selected : PciDeviceRecord) (path : List Nat) : Bool :=
  (List.range path.length).all fun index =>
    let bridge := inventory[path[index]!]!
    let childBus := if index + 1 < path.length then inventory[path[index + 1]!]!.bus else selected.bus
    !(bridge.primaryBus != bridge.bus || bridge.secondaryBus != childBus ||
      decide (childBus > bridge.subordinateBus))

def buildDynamicBridgePath (inventory : PciInventory) (selected : PciDeviceRecord) :
    Except EfiStatus (List Nat) :=
  match selected.devicePath with
  | none => .error .invalidParameter
  | some selectedPath =>
      let path := sortPathByDevicePathSize inventory
        ((List.range inventory.length).filter fun index => isDynamicAncestor selected inventory[index]!)
      match pciNodeCount selectedPath.bytes with
      | .error status => .error status
      | .ok count =>
          if count = 0 ∨ path.length + 1 ≠ count then .error .noMapping
          else if !dynamicPathAgrees inventory selected path then .error .noMapping
          else .ok path

end CsmVgaSelector
