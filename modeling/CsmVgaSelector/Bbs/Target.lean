import CsmVgaSelector.Bbs.Verify

/-!
# The boot target before it is written to

The owned copies of the boot arguments and their checks, the reservation of the journal, the preflight
that plans a transaction without starting it, and the durable journal itself.
-/

namespace CsmVgaSelector

/-! ### The owned copies -/

def endDevicePathType : UInt8 := 0x7F
def endEntireDevicePathSubtype : UInt8 := 0xFF
def endInstanceDevicePathSubtype : UInt8 := 0x01
def bbsDevicePathType : UInt8 := 0x05
def bbsBbsDp : UInt8 := 0x01

/-- The walk over the nodes; `sawEnd` once the node that ends the whole path is behind. -/
def validDevicePathNodes (path : List UInt8) (sawEnd : Bool) : Bool :=
  match path with
  | [] => sawEnd
  | nodeType :: rest =>
      let subType := rest[0]!
      let nodeLength := (readLe16 rest 1).toNat
      if rest.length < 3 ∨ nodeLength < 4 ∨ nodeLength > rest.length + 1 then false
      else if nodeType = endDevicePathType then
        if nodeLength ≠ 4 then false
        else if subType = endEntireDevicePathSubtype then
          if rest.length ≠ 3 then false
          else validDevicePathNodes (rest.drop (nodeLength - 1)) true
        else if subType = endInstanceDevicePathSubtype then
          validDevicePathNodes (rest.drop (nodeLength - 1)) sawEnd
        else false
      else validDevicePathNodes (rest.drop (nodeLength - 1)) sawEnd
  termination_by path.length
  decreasing_by
    all_goals
      simp only [List.length_cons, List.length_drop]
      omega

def legacyBootValidateDevicePathList (path : List UInt8) : EfiStatus :=
  if path.length < 4 then .compromisedData
  else if validDevicePathNodes path false then .success
  else .compromisedData

/-- What a path that is one BBS node and its end says: device type, status flag and description. -/
def legacyBootValidateExactBbsDevicePath (path : List UInt8) (descriptionBytes : Nat) :
    Except EfiStatus (UInt16 × UInt16 × List UInt8) :=
  let status := legacyBootValidateDevicePathList path
  let nodeLength := (readLe16 path 2).toNat
  let text := (path.take (nodeLength - 1)).drop 8
  if status.isError then .error status
  else if path[0]! ≠ bbsDevicePathType ∨ path[1]! ≠ bbsBbsDp then .error .unsupported
  else if path.length < 9 + 4 then .error .compromisedData
  else if nodeLength < 9 ∨ nodeLength + 4 ≠ path.length ∨
      path[nodeLength]! ≠ endDevicePathType ∨
      path[nodeLength + 1]! ≠ endEntireDevicePathSubtype ∨
      readLe16 path (nodeLength + 2) ≠ 4 then .error .compromisedData
  else if path[nodeLength - 1]! ≠ 0 ∨ 0 ∈ text then .error .compromisedData
  else if nodeLength - 8 > descriptionBytes then .error .badBufferSize
  else .ok (readLe16 path 4, readLe16 path 6, text)

/-- `LegacyStorageRomVerify`, for its status. -/
def legacyStorageRomVerify : BootQuery EfiStatus := do return (← Query.call).status

/-- `LegacyStorageRomReportVga`, for its status. -/
def legacyStorageRomReportVga : BootQuery EfiStatus := do return (← Query.call).status

def loadOptionActive : UInt32 := 1

namespace BootTargetContext

variable (context : BootTargetContext)

def loadOptionsSize : Nat := (context.loadOptions.getD []).length

/-- The pointers and sizes `LegacyBootBootTargetValidateOwnedCopies` insists on. -/
def hasOwnedCopies : Bool :=
  context.signature == bootTargetSignature && context.discoveryComplete &&
    context.bootOptionDescription.any (!·.isEmpty) && context.bbsDevicePath.any (!·.isEmpty) &&
    context.loadOptionsSize ≤ 0xFFFFFFFF && context.bbsDiscoverySnapshot.isSome &&
    context.bbsDiscoveryStrings.isSome && context.liveBbsIndex < context.bbsCount

/-- Every owned copy still has the checksum it was captured with. -/
def ownedCrcsMatch : Bool :=
  let snapshot := context.bbsDiscoverySnapshot.getD []
  legacyBootCrc32 ((context.bootOptionDescription.getD []).flatMap writeLe16) ==
      context.bootOptionDescriptionCrc32 &&
    legacyBootCrc32 (context.bbsDevicePath.getD []) == context.bbsDevicePathCrc32 &&
    legacyBootCrc32 (context.loadOptions.getD []) == context.loadOptionsCrc32 &&
    context.loadOptionsCrc32 == context.originalLoadOptionsCrc32 &&
    legacyBootCrc32 (tableBytes snapshot) == context.bbsDiscoveryCrc32 &&
    legacyBootBbsIdentityCrc32 snapshot == context.bbsDiscoveryIdentityCrc32 &&
    stringsCrc32 (context.bbsDiscoveryStrings.getD []) == context.bbsDiscoveryStringsCrc32

/-- The path, the active option and the selected row agree with what discovery recorded. -/
def ownedStructureMatches : Bool :=
  let live := (context.bbsDiscoveryStrings.getD [])[context.liveBbsIndex]!
  (match legacyBootValidateExactBbsDevicePath (context.bbsDevicePath.getD [])
      (maxStringBytes + 1) with
    | .error _ => false
    | .ok (deviceType, statusFlag, description) =>
        deviceType == context.bbsDeviceType && statusFlag == context.bbsStatusFlag &&
          description == context.bbsDescription) &&
    context.bootOptionAttributes &&& loadOptionActive != 0 &&
    context.liveBbsEntry == (context.bbsDiscoverySnapshot.getD [])[context.liveBbsIndex]! &&
    context.liveManufacturer == live.manufacturer && context.liveDescription == live.description

/-- The status of the path itself where it is bad, and of compromised data otherwise. -/
def ownedStructureStatus : EfiStatus :=
  match legacyBootValidateExactBbsDevicePath (context.bbsDevicePath.getD []) (maxStringBytes + 1) with
  | .error status => if status.isError then status else .compromisedData
  | .ok _ => .compromisedData

end BootTargetContext

def legacyBootBootTargetValidateOwnedCopies : BootQuery EfiStatus := do
  let context := (← read).context
  if !context.hasOwnedCopies then return .invalidParameter
  let status ← legacyStorageRomVerify
  if status.isError then return status
  if (context.bootOptionDescription.getD []).getLast? ≠ some 0 then return .compromisedData
  if !context.ownedCrcsMatch then return ← logFailure true .crcError
  if !context.ownedStructureMatches then return ← logFailure true context.ownedStructureStatus
  let status ← logPrint
  if status.isError then return status
  logFlush

/-! ### The journal -/

def legacyBootReserveJournal : Boot EfiStatus := do
  let context := (← get).context
  let owned := [context.bbsJournal.isSome, context.bbsJournalStrings.isSome,
    context.plannedPriorities.isSome, context.expectedPriorities.isSome,
    context.verificationScratch]
  if owned.all id then return .success
  -- A partial allocation belongs to release, never retry over owned pointers.
  if owned.any id then return .outOfResources
  let journalGranted ← allocatePool
  let stringsGranted ← allocatePool
  let plannedGranted ← allocatePool
  let expectedGranted ← allocatePool
  let scratchGranted ← allocatePool
  let zeroed {α : Type} (granted : Bool) (zero : α) : Option (List α) :=
    if granted then some (List.replicate context.bbsCount zero) else none
  updateContext fun context =>
    { context with
      bbsJournal := zeroed journalGranted default
      bbsJournalStrings := zeroed stringsGranted default
      plannedPriorities := zeroed plannedGranted 0
      expectedPriorities := zeroed expectedGranted 0
      verificationScratch := scratchGranted }
  if journalGranted && stringsGranted && plannedGranted && expectedGranted && scratchGranted then
    return .success
  return .outOfResources

def legacyBootBootTargetPrepare : Boot EfiStatus := do
  let context := (← get).context
  if !context.discoveryComplete || context.journalAttempted then return .invalidParameter
  let status ← legacyBootValidateFirmwareBbsRange true
  if status.isError then return status
  let status ← legacyBootReserveJournal
  if status.isError then return status
  updateContext fun context => { context with bbsJournal := context.bbsDiscoverySnapshot }
  let status ← legacyBootCaptureLegacyDevOrder
  if status.isError then return status
  let status ← legacyBootBuildPriorityPlan
  if status.isError then return status
  logPrint

/-- The two strings of a row, read for the log, and the status of logging them. -/
def legacyBootLogBbsEntry (memory : FarMemory) (entry : BbsTable) :
    BootQuery (EfiStatus × StringSnapshot) := do
  let rom := (← read).rom
  let strings := currentStrings rom memory entry
  let mut status ← logPrint
  if !status.isError && entry.statusFlags == 0 && rom.storageRomMatch entry then
    status ← logPrint
  if !status.isError && entry.statusFlags == 0 && rom.firmwareDiskMatch entry then
    status ← logPrint
  if !status.isError then status ← logPrint
  return (status, strings)

/-- The journal's rows as they are logged: the status, and the strings of the rows reached. -/
def journalStrings (memory : FarMemory) :
    List BbsTable → BootQuery (EfiStatus × List StringSnapshot)
  | [] => return (.success, [])
  | entry :: rest => do
      let (status, strings) ← legacyBootLogBbsEntry memory entry
      if status.isError then return (status, [])
      let status ← logPrint
      if status.isError then return (status, [strings])
      let (status, restStrings) ← journalStrings memory rest
      return (status, strings :: restStrings)

/-- The journal's strings, logged under one memory map and compared with discovery's. -/
def journalLiveStrings : Boot EfiStatus := do
  let (status, memory) ← memoryMapCapture
  if status.isError then return status
  if !(← memoryMapRangeIsReadable) then return .securityViolation
  let _ ← logPrint
  let _ ← logPrint
  let status ← logPrint
  if status.isError then return status
  let (status, strings) ← journalStrings memory ((← get).context.bbsJournal.getD [])
  updateContext fun context =>
    { context with
      bbsJournalStrings :=
        context.bbsJournalStrings.map fun old => strings ++ old.drop strings.length }
  if status.isError then return status
  updateContext fun context =>
    { context with
      bbsJournalStringsCrc32 := stringsCrc32 (context.bbsJournalStrings.getD []) }
  let status ← logPrint
  if status.isError then return status
  let context := (← get).context
  if context.bbsJournalStrings ≠ context.bbsDiscoveryStrings then
    return ← logFailure true .aborted
  logFlush

/-- A usable LegacyDevOrder is read again; otherwise it is captured now. -/
def revalidateLegacyDevOrder : Boot EfiStatus := do
  if (← get).context.legacyDevOrderUsable then legacyBootVerifyLegacyDevOrderSnapshot true
  else legacyBootCaptureLegacyDevOrder

/-- The journal copied from the live table, with its checksums, its ordering and its plan. -/
def takeJournal : Boot EfiStatus := do
  let status ← legacyBootReserveJournal
  if status.isError then return status
  modify fun state =>
    { state with
      context :=
        { state.context with
          bbsJournal := some state.live
          bbsJournalCrc32 := legacyBootCrc32 (tableBytes state.live)
          bbsIdentityCrc32 := legacyBootBbsIdentityCrc32 state.live
          bbsPriorityCrc32 := legacyBootBbsPriorityCrc32FromTable state.live } }
  let status ← revalidateLegacyDevOrder
  if status.isError then return status
  legacyBootBuildPriorityPlan

/-- The flushed journal read against the live table once more, and marked complete. -/
def confirmJournal : Boot EfiStatus := do
  let status ← legacyBootVerifyLegacyDevOrderSnapshot true
  if status.isError then return status
  -- File activity above is intentionally followed by a complete live reread.
  let { context, live, .. } ← get
  if some live ≠ context.bbsJournal then return ← logFailure true .aborted
  let status ← legacyBootVerifyLiveBbsStrings true
  if status.isError then return status
  updateContext fun context => { context with journalComplete := true }
  let status ← legacyBootVerifyLiveAgainstPriorities context.expectedPriorities true true
  if status.isError then
    updateContext fun context => { context with journalComplete := false }
    return status
  return .success

def legacyBootBootTargetJournalAndValidate : Boot EfiStatus := do
  let context := (← get).context
  if context.signature ≠ bootTargetSignature ∨ !context.discoveryComplete then
    return .invalidParameter
  if context.journalAttempted || context.journalComplete || context.priorityTransactionAttempted then
    return .alreadyStarted
  updateContext fun context => { context with journalAttempted := true }
  let status ← legacyBootBootTargetValidateOwnedCopies
  if status.isError then return status
  let status ← legacyStorageRomReportVga
  if status.isError then return status
  let status ← legacyBootValidateFirmwareBbsRange true
  if status.isError then return ← logFailure true status
  if context.bbsDiscoverySnapshot ≠ some (← get).live then return ← logFailure true .aborted
  let status ← takeJournal
  if status.isError then return status
  let status ← journalLiveStrings
  if status.isError then return status
  confirmJournal

/-! ### Validation and the boot arguments -/

def legacyBootBootTargetValidateOriginal : BootQuery EfiStatus := do
  let context := (← read).context
  if !context.journalComplete || context.prioritiesApplied || context.priorityTransactionDirty then
    return .notReady
  let status ← legacyBootBootTargetValidateOwnedCopies
  if status.isError then return status
  let status ← legacyBootVerifyLegacyDevOrderSnapshot true
  if status.isError then return status
  legacyBootVerifyLiveAgainstPriorities context.expectedPriorities true true

def legacyBootBootTargetValidateApplied : BootQuery EfiStatus := do
  let context := (← read).context
  if !context.journalComplete || !context.prioritiesApplied ||
      !context.priorityTransactionDirty then
    return .notReady
  let status ← legacyBootBootTargetValidateOwnedCopies
  if status.isError then return status
  let status ← legacyBootVerifyLegacyDevOrderSnapshot true
  if status.isError then return status
  let status ← legacyBootVerifyLiveAgainstPriorities context.plannedPriorities true true
  if status.isError then return status
  let planned := context.plannedPriorities.getD []
  let zeros := (List.range context.bbsCount).filter fun index => planned[index]! == 0
  if zeros.any (· != context.liveBbsIndex) then return ← logFailure true .compromisedData
  if zeros.length ≠ 1 ∨ planned[context.liveBbsIndex]! ≠ 0 then
    return ← logFailure true .compromisedData
  let status ← logPrint
  if status.isError then return status
  logFlush

/-- The BBS path and the load options a caller passes on to `LegacyBoot`. -/
def legacyBootBootTargetGetLegacyBootArguments :
    BootQuery (Except EfiStatus (List UInt8 × List UInt8)) := do
  let context := (← read).context
  match context.bbsDevicePath with
  | none => return .error .invalidParameter
  | some path =>
      if context.signature ≠ bootTargetSignature ∨ !context.discoveryComplete ∨
          !context.journalComplete ∨ !context.prioritiesApplied ∨
          !context.priorityTransactionDirty ∨ context.loadOptionsSize > 0xFFFFFFFF then
        return .error .invalidParameter
      return .ok (path, context.loadOptions.getD [])

/-- The owned copies and their checksums. -/
def legacyBootBootTargetGetOwnedCopyInfo :
    BootQuery (Except EfiStatus (Option (List UInt8) × UInt32 × Option (List UInt8) × UInt32)) := do
  let context := (← read).context
  if context.signature ≠ bootTargetSignature ∨ !context.discoveryComplete then
    return .error .invalidParameter
  return .ok (context.bbsDevicePath, context.bbsDevicePathCrc32, context.loadOptions,
    context.loadOptionsCrc32)

end CsmVgaSelector
