import CsmVgaSelector.Bbs.Transaction

/-!
# Discovery of the boot target

Discovery asks firmware for its table once, snapshots it with its strings, and correlates the
configured disk with its rows. The generic Boot#### option it pairs with the row comes from an
enumeration of firmware variables that is finished before the table is asked for; here its outcome is
an answer like the others.
-/

namespace CsmVgaSelector

def maxIdeController : Nat := 8

def legacyBootAsciiUpper (character : UInt8) : UInt8 :=
  if 'a'.toNat.toUInt8 ≤ character ∧ character ≤ 'z'.toNat.toUInt8 then character - 32
  else character

def legacyBootUnicodeUpperAscii (character : UInt16) : UInt16 :=
  if 'a'.toNat.toUInt16 ≤ character ∧ character ≤ 'z'.toNat.toUInt16 then character - 32
  else character

/-- The comparison of a row's text with a configured one, both without their terminators. -/
def legacyBootAsciiEqualsUnicodeInsensitive : List UInt8 → List UInt16 → Bool
  | [], [] => true
  | character :: text, wanted :: needle =>
      wanted ≤ 0x7F &&
        legacyBootAsciiUpper character == (legacyBootUnicodeUpperAscii wanted).toUInt8 &&
        legacyBootAsciiEqualsUnicodeInsensitive text needle
  | _, _ => false

/-- The configured disk: its controller's address and, unless it is empty, its description. -/
structure DiskTarget where
  targetBus : UInt32
  targetDevice : UInt32
  targetFunction : UInt32
  targetDescription : List UInt16
  deriving DecidableEq, Repr

/-- The row is the configured disk: the address, the kind and the text. -/
def DiskTarget.identifies (target : DiskTarget) (entry : BbsTable) (description : List UInt8) :
    Bool :=
  entry.bus == target.targetBus && entry.device == target.targetDevice &&
    entry.function == target.targetFunction && entry.deviceType == bbsHardDisk &&
    (target.targetDescription.isEmpty ||
      legacyBootAsciiEqualsUnicodeInsensitive description target.targetDescription)

/-- How many rows are the configured disk, and how many of those can be attempted. -/
structure MatchCounts where
  matchCount : Nat
  identityMatches : Nat
  deriving DecidableEq, Repr

/-- A message of one case only, whose status nobody reads. -/
def logPrintIf (condition : Bool) : BootQuery Unit := do
  if condition then
    let _ ← logPrint

def correlateRow (memory : FarMemory) (target : DiskTarget) (index : Nat) (counts : MatchCounts) :
    Boot (Except EfiStatus MatchCounts) := do
  let { live, rom, .. } ← get
  let entry := live[index]!
  let (status, strings) ← legacyBootLogBbsEntry memory entry
  if status.isError then return .error status
  updateContext fun context =>
    { context with bbsDiscoveryStrings := context.bbsDiscoveryStrings.map (·.set index strings) }
  let identified := target.identifies entry strings.description
  let validEntry := legacyBootSelectedDiskCanAttempt rom entry
  logPrintIf (identified && !validEntry)
  updateContext fun context =>
    if identified && validEntry then
      { context with
        liveBbsIndex := index
        liveBbsEntry := entry
        liveManufacturer := strings.manufacturer
        liveDescription := strings.description }
    else context
  let status ← logPrint
  if status.isError then return .error status
  return .ok
    { matchCount := counts.matchCount + (identified && validEntry).toNat
      identityMatches := counts.identityMatches + identified.toNat }

def correlateRows (memory : FarMemory) (target : DiskTarget) :
    List Nat → MatchCounts → Boot (Except EfiStatus MatchCounts)
  | [], counts => return .ok counts
  | index :: rest, counts => do
      match ← correlateRow memory target index counts with
      | .error status => return .error status
      | .ok counts => correlateRows memory target rest counts

def legacyBootLogAndCorrelateLiveBbs (memory : FarMemory) (target : DiskTarget) :
    Boot EfiStatus := do
  let context := (← get).context
  if context.bbsDiscoverySnapshot.isNone || context.bbsDiscoveryStrings.isNone then
    return .invalidParameter
  match ← correlateRows memory target (List.range context.bbsCount) ⟨0, 0⟩ with
  | .error status => return status
  | .ok counts =>
      let _ ← logPrint
      if counts.identityMatches > 1 then
        let _ ← logPrint
        return .aborted
      if counts.matchCount = 0 then
        if counts.identityMatches = 1 then
          let _ ← logPrint
          return .accessDenied
        return .notFound
      if counts.matchCount ≠ 1 then return .aborted
      let { context, rom, .. } ← get
      if !legacyBootBbsEntryIsTransactionEligible rom context.liveBbsEntry then
        let status ← logPrint
        if status.isError then return status
      return .success

def bbsTypeHarddrive : UInt16 := 0x02
def bbsTypeUsb : UInt16 := 0x05

/-- The generic option and the individual disk may pair: a hard-drive group with any disk, and a USB
group with a disk of the USB class. -/
def pairsWithLiveDisk (rom : RomEvidence) (candidate : BootCandidate) (entry : BbsTable) : Bool :=
  entry.deviceType == bbsHardDisk &&
    (candidate.bbsDeviceType == bbsTypeHarddrive ||
      candidate.bbsDeviceType == bbsTypeUsb && entry.class_ == 0x0C && entry.subClass == 0x03) &&
    legacyBootSelectedDiskCanAttempt rom entry

/-- The context with the option's copies moved into it. -/
def takeCandidate (candidate : BootCandidate) (context : BootTargetContext) : BootTargetContext :=
  { context with
    bootOptionNumber := candidate.number
    bootOptionAttributes := candidate.attributes
    bootOptionDescription := candidate.description
    bootOptionDescriptionCrc32 :=
      legacyBootCrc32 ((candidate.description.getD []).flatMap writeLe16)
    bbsDevicePath := candidate.devicePath
    bbsDevicePathCrc32 := candidate.devicePathCrc32
    bbsDeviceType := candidate.bbsDeviceType
    bbsStatusFlag := candidate.bbsStatusFlag
    bbsDescription := candidate.bbsDescription
    loadOptions := candidate.optionalData
    originalLoadOptionsCrc32 := candidate.optionalDataCrc32
    loadOptionsCrc32 := candidate.optionalDataCrc32 }

def legacyBootMoveCandidateToContext (candidate : BootCandidate) : Boot EfiStatus := do
  let { context, rom, .. } ← get
  if !candidate.isLegacy || !candidate.isActive then return .invalidParameter
  if !pairsWithLiveDisk rom candidate context.liveBbsEntry then
    let _ ← logPrint
    return .compromisedData
  updateContext (takeCandidate candidate)
  logPrintIf (candidate.bbsStatusFlag != context.liveBbsEntry.statusFlags)
  let status ← logPrint
  if status.isError then return status
  logPrint

/-- `LegacyBootDiscoverBootCandidate`, for its status and the candidate it returns. -/
def legacyBootDiscoverBootCandidate : BootQuery (EfiStatus × BootCandidate) := do
  let answer ← Query.call
  return (answer.status, answer.candidate)

/-- Whether a writable file log is open. -/
def fileLogOpen : BootQuery Bool := do return (← Query.call).granted

/-- Firmware may leave the entry point out of its protocol. -/
def getBbsInfoPresent : BootQuery Bool := do return (← Query.call).granted

/-- The one `GetBbsInfo` call. What it reports is the live table from then on. -/
def getBbsInfo : Boot (EfiStatus × BbsInfo) := do
  let answer ← Prog.call
  modify fun state => { state with live := answer.bbsInfo.table }
  return (answer.status, answer.bbsInfo)

/-- The recheck of the resident ROMs, and what they say of a row from then on. -/
def legacyRomGuardRecheckAfterBbs : Boot EfiStatus := do
  let answer ← Prog.call
  modify fun state => { state with rom := answer.rom }
  return answer.status

/-- The bounds on what `GetBbsInfo` reports. -/
def BbsInfo.wellFormed (info : BbsInfo) : Bool :=
  info.hddCount ≤ maxIdeController && (info.hddCount == 0 || info.hddInfo != 0) &&
    info.table.length != 0 && info.table.length ≤ maxBbsEntries && info.bbsTable != 0

/-- The ranges `GetBbsInfo` reports are readable; the second is not asked about when the first is not. -/
def bbsInfoIsReadable (info : BbsInfo) : BootQuery Bool := do
  if info.hddCount ≠ 0 then
    if !(← memoryMapRangeIsReadable) then return false
  memoryMapRangeIsReadable

/-- The owned snapshot of the table and room for its strings. -/
def takeSnapshot (info : BbsInfo) : Boot EfiStatus := do
  let snapshotGranted ← allocatePool
  let stringsGranted ← allocatePool
  updateContext fun context =>
    { context with
      bbsDiscoverySnapshot := if snapshotGranted then some info.table else none
      bbsDiscoveryStrings :=
        if stringsGranted then some (List.replicate info.table.length default) else none }
  if !snapshotGranted || !stringsGranted then return .outOfResources
  updateContext fun context =>
    { context with
      bbsDiscoveryCrc32 := legacyBootCrc32 (tableBytes info.table)
      bbsDiscoveryIdentityCrc32 := legacyBootBbsIdentityCrc32 info.table }
  let _ ← logPrint
  return .success

/-- The correlation, the checksum of the strings it read, and the table compared with its snapshot. -/
def correlateSnapshot (memory : FarMemory) (target : DiskTarget) : Boot EfiStatus := do
  let status ← legacyBootLogAndCorrelateLiveBbs memory target
  if status.isError then return status
  updateContext fun context =>
    { context with bbsDiscoveryStringsCrc32 := stringsCrc32 (context.bbsDiscoveryStrings.getD []) }
  let _ ← logPrint
  let { context, live, .. } ← get
  if context.bbsDiscoverySnapshot ≠ some live then
    let _ ← logPrint
    return .aborted
  return status

/-- The snapshot of the table and its strings, and the row they single out. -/
def snapshotAndCorrelate (target : DiskTarget) (info : BbsInfo) (candidate : BootCandidate) :
    Boot EfiStatus := do
  let (status, memory) ← memoryMapCapture
  if status.isError then return status
  if !(← bbsInfoIsReadable info) then return ← logFailure true .securityViolation
  let status ← takeSnapshot info
  if status.isError then return status
  let status ← correlateSnapshot memory target
  if status.isError then
    let _ ← logFlush
    return status
  let status ← legacyBootMoveCandidateToContext candidate
  if status.isError then
    let _ ← logFlush
    return status
  return .success

/-- The owned copies checked, and the log flushed. -/
def validateDiscovery : BootQuery EfiStatus := do
  let status ← legacyBootBootTargetValidateOwnedCopies
  if status.isError then return status
  let _ ← logPrint
  logFlush

/-- The discovery is complete unless a check or the log fails. -/
def completeDiscovery : Boot EfiStatus := do
  updateContext fun context => { context with discoveryComplete := true }
  let status ← validateDiscovery
  updateContext fun context => { context with discoveryComplete := !status.isError }
  return status

/-- The arguments of `LegacyBootBootTargetDiscover`. -/
structure DiscoverRequest where
  target : DiskTarget
  legacyOptionDescription : List UInt16
  excludeDescription : List UInt16
  deriving DecidableEq, Repr

def legacyBootBootTargetDiscover (request : DiscoverRequest) : Boot EfiStatus := do
  if request.legacyOptionDescription.isEmpty || request.excludeDescription.isEmpty then
    return .invalidParameter
  if (← get).context.signature = bootTargetSignature then return .alreadyStarted
  updateContext fun _ => { signature := bootTargetSignature, getBbsInfoStatus := .notReady }
  let (status, candidate) ← legacyBootDiscoverBootCandidate
  if status.isError then return status
  if !(← fileLogOpen) then
    let _ ← logPrint
    return .notReady
  if !(← getBbsInfoPresent) then
    let _ ← logPrint
    return .unsupported
  let _ ← logPrint
  let status ← logFlush
  if status.isError then return status
  updateContext fun context => { context with getBbsInfoCalled := true }
  let (status, info) ← getBbsInfo
  updateContext fun context => { context with getBbsInfoStatus := status }
  let _ ← logPrint
  let flushStatus ← logFlush
  if flushStatus.isError then return flushStatus
  if status.isError then return status
  if !info.wellFormed then return ← logFailure true .compromisedData
  let status ← legacyRomGuardRecheckAfterBbs
  if status.isError then return status
  updateContext fun context =>
    { context with
      hddCount := info.hddCount
      bbsCount := info.table.length
      firmwareBbsTable := info.bbsTable
      bbsTableBytes := info.table.length * 69 }
  let status ← snapshotAndCorrelate request.target info candidate
  if status.isError then return status
  completeDiscovery

end CsmVgaSelector
