import CsmVgaSelector.MemoryMap
import CsmVgaSelector.Rom.FirmwareDisk
import CsmVgaSelector.Rom.Guard
import CsmVgaSelector.Rom.OptionRom
import CsmVgaSelector.Rom.Placement

/-!
# The check of the legacy ROMs

Before a plan is complete, and again when the firmware has been asked for its boot table, the legacy ROMs are
snapshot and searched for conflicts with the planned copy. A check that comes out clear retains the plan and
the snapshots that corroborate disk entries; one that finds another ROM or the disk handler in the way leaves
a recovery to offer, with the facts of the planned ROM.

A grant is an allocation's answer. The messages logged on the way decide nothing, and are left out.
-/

namespace CsmVgaSelector

/-- The vector of the disk interrupt. -/
def diskVector : Nat := 0x13 * 4

def recoveryWindow : Nat := 0x10000

/-- What a check reads of a run plan. -/
structure RomPlan where
  selectedRom : List UInt8
  activeVendor : UInt16
  activeDevice : UInt16
  inventory : PciInventory
  romValidation : OptionRomValidation
  routeDirty : Bool := false
  endpointWriteAttempted : Bool := false
  endpointWriteApplied : Bool := false

def RomPlan.selectedRomSize (plan : RomPlan) : Nat := plan.selectedRom.length

/-- What a check finds. -/
structure RomSurvey where
  memory : Nat → UInt8
  shadowGranted : Bool
  mapStatus : EfiStatus
  map : MemoryMapSnapshot
  stateGranted : Bool
  devicesGranted : Bool
  firmwareGranted : Bool
  firmwareDevicesGranted : Bool
  firmwareMapStatus : EfiStatus
  firmwareMap : MemoryMapSnapshot

/-- `FIRMWARE_DISK_STATE`. -/
structure FirmwareDiskState where
  snapshot : Nat → UInt8
  valid : Nat → UInt8
  devices : List LegacyPciIdentity

/-- `Recovery`, while it is pending. -/
structure RomRecovery where
  conflictAddress : Nat
  conflictBytes : Nat
  runtimeLimit : Nat
  facts : NcvRomPlacementFacts
  deriving DecidableEq, Repr

/-- The static variables of the check, its two snapshots and the recovery. -/
structure RomState where
  preflightPlan : Option RomPlan := none
  storageRom : Option StorageRomState := none
  firmwareDisk : Option FirmwareDiskState := none
  recovery : Option RomRecovery := none

/-! ### Snapshots -/

/-- Whether the block of the area may be read, as the snapshot's map says it. -/
def blockMayBeRead (map : MemoryMapSnapshot) (base block : Nat) : UInt8 :=
  if (map.memoryMapRangeIsReadable (base + block * blockBytes) blockBytes false).1 then 1 else 0

/-- A snapshot of the area, zero where it may not be read. -/
def copyReadable (map : MemoryMapSnapshot) (memory : Nat → UInt8) (base offset : Nat) : UInt8 :=
  if blockMayBeRead map base (offset / blockBytes) == 1 then memory (base + offset) else 0

/-- Without it a disk of the resident firmware stays ineligible, and nothing else changes. -/
def legacyFirmwareDiskCapture (survey : RomSurvey) (inventory : PciInventory) :
    Except EfiStatus FirmwareDiskState :=
  if !survey.firmwareGranted then .error .outOfResources
  else if inventory ≠ [] ∧ survey.firmwareDevicesGranted = false then .error .outOfResources
  else if survey.firmwareMapStatus.isError then .error survey.firmwareMapStatus
  else
    .ok
      { snapshot := copyReadable survey.firmwareMap survey.memory diskFirmwareBase
        valid := blockMayBeRead survey.firmwareMap diskFirmwareBase
        devices := copyLegacyPciIdentities inventory }

namespace RomSurvey

variable (survey : RomSurvey)

def shadow : Nat → UInt8 := copyReadable survey.map survey.memory shadowBase

def validBlocks : Nat → UInt8 := blockMayBeRead survey.map shadowBase

/-- Where the vector of the disk interrupt points to. -/
def diskHandler : Nat :=
  (le16 survey.memory (diskVector + 2)).toNat * 16 + (le16 survey.memory diskVector).toNat

/-- The guard's verdict on a copy of so many bytes. -/
def inspect (copyBytes : Nat) (activeVendor activeDevice : UInt16) : LegacyRomGuardResult :=
  legacyRomGuardInspect survey.shadow survey.validBlocks copyBytes activeVendor activeDevice survey.diskHandler

end RomSurvey

/-! ### Recovery -/

namespace RomState

variable (state : RomState)

def romRecoveryReset : RomState := { state with recovery := none }

/-- The plan retained, and the two snapshots. -/
def legacyRomGuardReset : RomState :=
  { state with preflightPlan := none, storageRom := none, firmwareDisk := none }

/-- The planned ROM is the one image that was validated. -/
def selectedRomIsValidated (plan : RomPlan) : Bool :=
  plan.romValidation.matchingLegacyImageFound && plan.romValidation.matchingLegacyCandidateCount == 1 &&
    plan.selectedRomSize == plan.romValidation.matchingLegacyImageSize

/-- A conflict found before any write to the hardware, where a copy of the largest ROM could meet it. -/
def mayRecover (plan : RomPlan) (conflict : LegacyRomGuardResult) : Bool :=
  !plan.routeDirty && !plan.endpointWriteAttempted && !plan.endpointWriteApplied &&
    (conflict.reason == .overlap || conflict.reason == .diskHandlerOverlap) &&
    decide (shadowBase ≤ conflict.address) && decide (conflict.address < shadowBase + recoveryWindow) &&
    conflict.activeBytes != 0 && decide (conflict.activeBytes ≤ shadowBytes)

def romRecoveryRecord (plan : RomPlan) (conflict : LegacyRomGuardResult) : RomState :=
  let state := state.romRecoveryReset
  if !mayRecover plan conflict then state
  else
    { state with
      recovery := some
        { conflictAddress := conflict.address
          conflictBytes := conflict.bytes
          runtimeLimit := min conflict.activeBytes (conflict.address - shadowBase)
          facts := if selectedRomIsValidated plan then ncvRomPlacementReadFacts plan.selectedRom else {} } }

def romRecoveryAvailable (bootStatus cleanupStatus : EfiStatus) : Bool :=
  state.recovery.isSome && bootStatus == .unsupported && !cleanupStatus.isError

/-! ### The check -/

def legacyRomGuardCheck (survey : RomSurvey) (plan : RomPlan) : EfiStatus × RomState :=
  let state := state.romRecoveryReset.legacyRomGuardReset
  if !survey.shadowGranted then (.outOfResources, state)
  else if survey.mapStatus.isError then (survey.mapStatus, state)
  else if !(survey.map.memoryMapRangeIsReadable diskVector 4 false).1 then (.unsupported, state)
  else
    let result := survey.inspect plan.selectedRomSize plan.activeVendor plan.activeDevice
    match result.reason with
    | .clear =>
        match legacyStorageRomPrepare survey.stateGranted survey.devicesGranted survey.shadow
            survey.validBlocks plan.inventory with
        | .error status => (status, state)
        | .ok storageRom =>
            (.success,
              { state with
                preflightPlan := some plan
                storageRom := some storageRom
                firmwareDisk := (legacyFirmwareDiskCapture survey plan.inventory).toOption })
    | .overlap | .diskHandlerOverlap => (.unsupported, state.romRecoveryRecord plan result)
    | .unreadable | .unknownLayout => (.compromisedData, state)

/-- Clients that read the boot table without a plan have nothing to check again. -/
def legacyRomGuardRecheckAfterBbs (survey : RomSurvey) : EfiStatus × RomState :=
  match state.preflightPlan with
  | none => (.success, state)
  | some plan => state.legacyRomGuardCheck survey plan

end RomState

/-! ### The assessment -/

inductive NcvRomPlacementResult where
  | invalidRom
  | inPlaceRom
  | unknownRuntime
  | runtimeOverlap
  | needsFirmwareAndBackend
  deriving DecidableEq, Repr

def ncvRomPlacementAssess (facts : NcvRomPlacementFacts) (runtimeLimit : Nat) : NcvRomPlacementResult :=
  if facts.valid ≠ 1 ∨ facts.imageBytes = 0 ∨ facts.imageBytes > 65536 ∨ runtimeLimit = 0 ∨
      runtimeLimit > 65536 then
    .invalidRom
  else if facts.revision < 3 then .inPlaceRom
  else if facts.maxRuntimeBytes = 0 then .unknownRuntime
  else if facts.maxRuntimeBytes > facts.imageBytes then .invalidRom
  else if facts.maxRuntimeBytes > runtimeLimit then .runtimeOverlap
  else .needsFirmwareAndBackend

end CsmVgaSelector
