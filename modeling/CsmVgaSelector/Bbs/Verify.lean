import CsmVgaSelector.Bbs.Plan

/-!
# Looking at the live table

The checks that stand around every write: that the table lies in memory of the right kind, that every
row still has the identity the journal recorded and the priority the transaction expects, and that the
strings its rows point at still read the same. All of them only read.
-/

namespace CsmVgaSelector

def memoryMapCapture : BootQuery (EfiStatus × FarMemory) := do
  let answer ← Query.call
  return (answer.status, answer.memory)

def memoryMapRangeIsReadable : BootQuery Bool := do return (← Query.call).granted

def memoryMapRangeIsWritable : BootQuery Bool := do return (← Query.call).granted

def legacyBootValidateFirmwareBbsRange (requireWritable : Bool) : BootQuery EfiStatus := do
  let context := (← read).context
  if context.firmwareBbsTable = 0 ∨ context.bbsTableBytes = 0 then return .invalidParameter
  let (status, _) ← memoryMapCapture
  if status.isError then return status
  let valid ← if requireWritable then memoryMapRangeIsWritable else memoryMapRangeIsReadable
  return if valid then .success else .securityViolation

def legacyBootCopyManufacturer (rom : RomEvidence) (memory : FarMemory) (entry : BbsTable)
    (outputBytes : Nat) : FarStringResult × List UInt8 :=
  if rom.storageRomMatch entry && rom.noManufacturer entry then (.absent, [])
  else legacyBootCopyFarAsciiString memory entry.mfgStringSegment entry.mfgStringOffset outputBytes

/-- One row's two strings, as they read now. -/
def currentStrings (rom : RomEvidence) (memory : FarMemory) (entry : BbsTable) : StringSnapshot :=
  let manufacturer := legacyBootCopyManufacturer rom memory entry (maxStringBytes + 1)
  let description := legacyBootCopyFarAsciiString memory entry.descStringSegment
    entry.descStringOffset (maxStringBytes + 1)
  { manufacturerReadResult := manufacturer.1
    descriptionReadResult := description.1
    manufacturer := manufacturer.2
    description := description.2 }

def legacyBootVerifyLiveBbsStrings (flushResult : Bool) : BootQuery EfiStatus := do
  let state ← read
  match state.context.bbsJournalStrings with
  | none => return .invalidParameter
  | some journalStrings =>
      if stringsCrc32 journalStrings ≠ state.context.bbsJournalStringsCrc32 then
        logFailure flushResult .crcError
      else
        let (status, memory) ← memoryMapCapture
        if status.isError then return status
        if !(← memoryMapRangeIsReadable) then return .securityViolation
        let current := state.live.map (currentStrings state.rom memory)
        if current ≠ journalStrings then logFailure flushResult .compromisedData
        else
          let status ← logPrint
          if status.isError then return status
          if stringsCrc32 current ≠ state.context.bbsJournalStringsCrc32 then
            let _ ← flushIf flushResult
            return .crcError
          flushIf flushResult

/-- The row has the identity the journal recorded and the priority expected. -/
def rowAsExpected (row original : BbsTable) (expected : UInt16) : Bool :=
  row.sameIdentity original && row.bootPriority == expected

def legacyBootVerifyLiveAgainstPriorities (expectedPriorities : Option (List UInt16))
    (requireWritableRange flushResult : Bool) : BootQuery EfiStatus := do
  let state ← read
  match expectedPriorities, state.context.bbsJournal, state.context.verificationScratch with
  | some expected, some journal, true =>
      let status ← legacyBootValidateFirmwareBbsRange requireWritableRange
      if status.isError then return ← logFailure flushResult status
      let scratch := state.live
      if !(List.range state.context.bbsCount).all fun index =>
          rowAsExpected scratch[index]! journal[index]! expected[index]! then
        return ← logFailure flushResult .compromisedData
      let status ← legacyBootVerifyLiveBbsStrings false
      if status.isError then
        let _ ← flushIf flushResult
        return status
      if (← read).live ≠ scratch then return ← logFailure flushResult .aborted
      let status ← logPrint
      if status.isError then return status
      flushIf flushResult
  | _, _, _ => return .invalidParameter

end CsmVgaSelector
