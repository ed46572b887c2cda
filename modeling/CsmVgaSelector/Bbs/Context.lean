import CsmVgaSelector.Lib.Prog
import CsmVgaSelector.Status
import CsmVgaSelector.Bbs.FarString

/-!
# The boot-target context

The context of one BBS transaction, the firmware's live table beside it, and the calls the transaction
makes of its surroundings. A pool pointer is an `Option` that is `none` while it is `NULL`; an array's
element count is the length of its list, and `PriorityWriteCount` is the length of the history. Every
use of `VerificationScratch` fills it before it reads it, so the context keeps only whether it is there.
-/

namespace CsmVgaSelector

/-- `SIGNATURE_32 ('S', '4', 'B', 'T')`. -/
def bootTargetSignature : UInt32 := 0x54423453

structure PriorityWrite where
  index : Nat
  oldPriority : UInt16
  requestedPriority : UInt16
  deriving DecidableEq, Repr, Inhabited

/-- Two writes a row. -/
def maxPriorityWrites : Nat := maxBbsEntries * 2

structure BootTargetContext where
  signature : UInt32 := 0
  getBbsInfoCalled : Bool := false
  getBbsInfoStatus : EfiStatus := .success
  discoveryComplete : Bool := false
  hddCount : Nat := 0
  bbsCount : Nat := 0
  firmwareBbsTable : Nat := 0
  bbsDiscoverySnapshot : Option (List BbsTable) := none
  bbsDiscoveryStrings : Option (List StringSnapshot) := none
  bbsDiscoveryCrc32 : UInt32 := 0
  bbsDiscoveryIdentityCrc32 : UInt32 := 0
  bbsDiscoveryStringsCrc32 : UInt32 := 0
  legacyDevOrderPresent : Bool := false
  legacyDevOrderUsable : Bool := false
  legacyDevOrderAttributes : UInt32 := 0
  legacyDevOrderData : Option (List UInt8) := none
  legacyDevOrderCrc32 : UInt32 := 0
  legacyDevOrderRanks : Option (List UInt16) := none
  legacyDevOrderDisabled : Option (List Bool) := none
  bbsJournal : Option (List BbsTable) := none
  bbsJournalStrings : Option (List StringSnapshot) := none
  plannedPriorities : Option (List UInt16) := none
  expectedPriorities : Option (List UInt16) := none
  verificationScratch : Bool := false
  bbsTableBytes : Nat := 0
  bbsJournalCrc32 : UInt32 := 0
  bbsIdentityCrc32 : UInt32 := 0
  bbsPriorityCrc32 : UInt32 := 0
  bbsJournalStringsCrc32 : UInt32 := 0
  plannedPriorityCrc32 : UInt32 := 0
  journalAttempted : Bool := false
  journalComplete : Bool := false
  liveBbsIndex : Nat := 0
  liveBbsEntry : BbsTable := default
  liveManufacturer : List UInt8 := []
  liveDescription : List UInt8 := []
  bootOptionNumber : UInt16 := 0
  bootOptionAttributes : UInt32 := 0
  bootOptionDescription : Option (List UInt16) := none
  bootOptionDescriptionCrc32 : UInt32 := 0
  bbsDevicePath : Option (List UInt8) := none
  bbsDevicePathCrc32 : UInt32 := 0
  bbsDeviceType : UInt16 := 0
  bbsStatusFlag : UInt16 := 0
  bbsDescription : List UInt8 := []
  loadOptions : Option (List UInt8) := none
  originalLoadOptionsCrc32 : UInt32 := 0
  loadOptionsCrc32 : UInt32 := 0
  priorityTransactionAttempted : Bool := false
  priorityTransactionDirty : Bool := false
  prioritiesApplied : Bool := false
  priorityWrites : List PriorityWrite := []

/-- What the resident ROMs and the firmware's disk handlers say of a row: the answers of
`LegacyStorageRomMatch` (with its `NoManufacturer`) and `LegacyFirmwareDiskMatch`. -/
structure RomEvidence where
  storageRomMatch : BbsTable → Bool
  noManufacturer : BbsTable → Bool
  firmwareDiskMatch : BbsTable → Bool

/-- What `LegacyRomGuardReset` leaves: no snapshot, and so no match. -/
def RomEvidence.reset : RomEvidence where
  storageRomMatch _ := false
  noManufacturer _ := false
  firmwareDiskMatch _ := false

/-- `LEGACY_BOOT_BOOT_CANDIDATE`: one Boot#### option that the enumeration settled on. -/
structure BootCandidate where
  isLegacy : Bool
  isActive : Bool
  number : UInt16
  attributes : UInt32
  description : Option (List UInt16)
  devicePath : Option (List UInt8)
  devicePathCrc32 : UInt32
  bbsDeviceType : UInt16
  bbsStatusFlag : UInt16
  bbsDescription : List UInt8
  optionalData : Option (List UInt8)
  optionalDataCrc32 : UInt32
  deriving DecidableEq, Repr

/-- What `GetBbsInfo` reports. A pointer is zero while it is `NULL`; the table is the memory at
`bbsTable`, and its length the count reported with it. -/
structure BbsInfo where
  hddCount : Nat
  hddInfo : Nat
  bbsTable : Nat
  table : List BbsTable

/-- The context, the live table at `FirmwareBbsTable`, and the resident ROMs. `historyFull` is a ghost:
it records that a write found no room in the history. -/
structure BootState where
  context : BootTargetContext
  live : List BbsTable
  rom : RomEvidence
  historyFull : Bool := false

/-- The answer to one call of the firmware, with a part for each kind of call. -/
structure FirmwareAnswer where
  /-- The status the call returns. -/
  status : EfiStatus
  /-- Whether a memory range has the access asked for, or an allocation is granted. -/
  granted : Bool
  /-- Real-mode memory under a captured memory map. -/
  memory : FarMemory
  /-- The bounded read of a firmware variable: its attributes and its bytes. -/
  variableRead : Except EfiStatus (UInt32 × List UInt8)
  /-- What a two-byte store leaves in its field, when that is not the value stored. -/
  stored : Option UInt16
  /-- What `GetBbsInfo` reports. -/
  bbsInfo : BbsInfo
  /-- What a recheck of the resident ROMs finds. -/
  rom : RomEvidence
  /-- What the enumeration of the Boot#### options settles on. -/
  candidate : BootCandidate

abbrev BootQuery (α : Type) := Query FirmwareAnswer BootState α

abbrev Boot (α : Type) := Prog FirmwareAnswer BootState α

/-- `LogPrint`, for its status: the transaction never reads what it logs. -/
def logPrint : BootQuery EfiStatus := do return (← Query.call).status

def logFlush : BootQuery EfiStatus := do return (← Query.call).status

/-- `FlushResult ? LogFlush (Logger) : EFI_SUCCESS`. -/
def flushIf (flushResult : Bool) : BootQuery EfiStatus :=
  if flushResult then logFlush else return .success

/-- A failure that has been logged, flushed if asked, and is returned whatever the log says. -/
def logFailure (flushResult : Bool) (status : EfiStatus) : BootQuery EfiStatus := do
  let _ ← logPrint
  let _ ← flushIf flushResult
  return status

def allocatePool : BootQuery Bool := do return (← Query.call).granted

/-- `LegacyBootReadVariableBounded` for the pinned LegacyDevOrder variable. -/
def readLegacyDevOrder : BootQuery (Except EfiStatus (UInt32 × List UInt8)) := do
  return (← Query.call).variableRead

def updateContext (f : BootTargetContext → BootTargetContext) : Boot Unit :=
  modify fun state => { state with context := f state.context }

/-- The one store the transaction makes: the two bytes of a live row's `BootPriority`. -/
def storePriority (index : Nat) (priority : UInt16) : Boot Unit := do
  let answer ← Prog.call
  modify fun state =>
    { state with live := state.live.modify index (·.withPriority (answer.stored.getD priority)) }

end CsmVgaSelector
