import CsmVgaSelector.Bbs.Target

/-!
# The priority transaction

The transaction writes one field of the live table, two bytes at a time. Each write is recorded before
it is made, and the whole table is verified after it; a failure replays the record backwards. A write
or a restoration that does not take effect is found by reading it back.
-/

namespace CsmVgaSelector

def legacyBootWritePriority (index : Nat) (requestedPriority : UInt16) : Boot EfiStatus := do
  let { context, live, .. } ← get
  match context.expectedPriorities, context.bbsJournal with
  | some expected, some journal =>
      if !context.journalComplete || index ≥ context.bbsCount then return .invalidParameter
      let before := live[index]!
      if !rowAsExpected before journal[index]! expected[index]! then
        return ← logFailure true .compromisedData
      if before.bootPriority = requestedPriority then return .success
      if context.priorityWrites.length ≥ maxPriorityWrites then
        modify fun state => { state with historyFull := true }
        return .outOfResources
      let status ← logPrint
      if status.isError then return status
      let status ← logFlush
      if status.isError then return status
      if (← get).live[index]! ≠ before then return ← logFailure true .aborted
      updateContext fun context =>
        { context with
          priorityWrites := context.priorityWrites ++
            [{ index, oldPriority := before.bootPriority, requestedPriority }]
          priorityTransactionDirty := true }
      storePriority index requestedPriority
      if !rowAsExpected (← get).live[index]! before requestedPriority then
        return ← logFailure true .deviceError
      updateContext fun context =>
        { context with
          expectedPriorities := context.expectedPriorities.map (·.set index requestedPriority) }
      let status ← legacyBootVerifyLiveAgainstPriorities (← get).context.expectedPriorities true false
      if status.isError then
        let _ ← logFlush
        return status
      let status ← logPrint
      if status.isError then return status
      logFlush
  | _, _ => return .invalidParameter

/-- The first failure is the one that counts. -/
def firstError (overall status : EfiStatus) : EfiStatus :=
  if status.isError && !overall.isError then status else overall

/-- The restoration of one recorded write, with the overall status before and after it. -/
def rollbackRecord (record : PriorityWrite) (overallStatus : EfiStatus) : Boot EfiStatus := do
  let { context, live, .. } ← get
  let original := (context.bbsJournal.getD [])[record.index]!
  let before := live[record.index]!
  if !before.sameIdentity original then return ← logFailure true .compromisedData
  let overallStatus := firstError overallStatus (← logPrint)
  let overallStatus := firstError overallStatus (← logFlush)
  if !(← get).live[record.index]!.sameIdentity original then
    return ← logFailure true .compromisedData
  -- The log's failures are remembered, and do not stop the restoration.
  storePriority record.index record.oldPriority
  if !rowAsExpected (← get).live[record.index]! before record.oldPriority then
    return ← logFailure true .deviceError
  updateContext fun context =>
    { context with
      expectedPriorities := context.expectedPriorities.map (·.set record.index record.oldPriority) }
  let status ← legacyBootVerifyLiveAgainstPriorities (← get).context.expectedPriorities true false
  let overallStatus := firstError overallStatus status
  let overallStatus := firstError overallStatus (← logPrint)
  let overallStatus := firstError overallStatus (← logFlush)
  return overallStatus

/-- The records, the last one first. -/
def rollbackRecords : List PriorityWrite → EfiStatus → Boot EfiStatus
  | [], overallStatus => return overallStatus
  | record :: rest, overallStatus => do
      let overallStatus ← rollbackRecord record overallStatus
      rollbackRecords rest overallStatus

/-- The history replayed and the table compared with the journal, byte for byte. -/
def replayHistory (status : EfiStatus) : Boot EfiStatus := do
  let overallStatus := firstError status (← logPrint)
  let overallStatus := firstError overallStatus (← logFlush)
  let overallStatus ← rollbackRecords (← get).context.priorityWrites.reverse overallStatus
  let status ← legacyBootVerifyLiveAgainstPriorities (← get).context.expectedPriorities true true
  let overallStatus := firstError overallStatus status
  let { context, live, .. } ← get
  if context.bbsJournal == some live && legacyBootCrc32 (tableBytes live) == context.bbsJournalCrc32
  then return overallStatus
  else logFailure true .deviceError

/-- The rollback of a table whose range is writable: replayed, and the marks cleared unless something
failed on the way. -/
def restoreJournal (status : EfiStatus) : Boot EfiStatus := do
  let overallStatus ← replayHistory status
  if overallStatus.isError then return overallStatus
  updateContext fun context =>
    { context with
      priorityTransactionDirty := false
      prioritiesApplied := false
      priorityWrites := [] }
  let _ ← logPrint
  logFlush

def legacyBootRollbackInternal : Boot EfiStatus := do
  if !(← get).context.journalComplete then return .invalidParameter
  let status ← legacyBootValidateFirmwareBbsRange true
  if status.isError then return ← logFailure true status
  restoreJournal status

/-- Run the steps until one fails. -/
def untilError (steps : List (Boot EfiStatus)) : Boot EfiStatus :=
  match steps with
  | [] => return .success
  | step :: rest => do
      let status ← step
      if status.isError then return status
      untilError rest

/-- The rows the transaction may touch, in the table's order. -/
def eligibleRows (state : BootState) : List Nat :=
  (List.range state.context.bbsCount).filter
    (legacyBootBbsIndexIsTransactionEligible state.rom state.context)

/-- The first eligible row planned to have this priority is given it. -/
def assignPriority (priority : Nat) : Boot EfiStatus := do
  let state ← get
  let planned := state.context.plannedPriorities.getD []
  match (eligibleRows state).find? fun index => planned[index]!.toNat == priority with
  | none => return .compromisedData
  | some index => legacyBootWritePriority index (UInt16.ofNat priority)

/-- The two phases: every eligible row unprioritized, then the dense plan assigned. -/
def writePlan : Boot EfiStatus := do
  let status ← untilError ((eligibleRows (← get)).map (legacyBootWritePriority · bbsUnprioritizedEntry))
  if status.isError then return status
  let validCount := (eligibleRows (← get)).length
  untilError ((List.range validCount).map assignPriority)

/-- How the body of an apply ends: it returns, or it jumps to the label `Failed`. -/
inductive ApplyExit where
  | returned (status : EfiStatus)
  | failed (status : EfiStatus)
  deriving DecidableEq, Repr

def applyBody : Boot ApplyExit := do
  let context := (← get).context
  if context.signature ≠ bootTargetSignature ∨ !context.discoveryComplete ∨
      !context.journalComplete then
    return .returned .invalidParameter
  if context.priorityTransactionAttempted then return .returned .alreadyStarted
  updateContext fun context => { context with priorityTransactionAttempted := true }
  let status ← legacyBootBootTargetValidateOriginal
  if status.isError then return .returned status
  let _ ← logPrint
  let status ← logFlush
  if status.isError then return .returned status
  let status ← legacyBootVerifyLegacyDevOrderSnapshot false
  if status.isError then return .returned status
  let status ← writePlan
  if status.isError then return .failed status
  updateContext fun context => { context with prioritiesApplied := true }
  let status ← legacyBootBootTargetValidateApplied
  if status.isError then return .failed status
  let _ ← logPrint
  let status ← logFlush
  if status.isError then return .failed status
  return .returned .success

/-- The label `Failed`: an immediate rollback of whatever has been written. -/
def applyFailed (status : EfiStatus) : Boot EfiStatus := do
  let _ ← logPrint
  let _ ← logFlush
  let context := (← get).context
  if context.priorityTransactionDirty || context.priorityWrites.length ≠ 0 then
    let rollbackStatus ← legacyBootRollbackInternal
    if rollbackStatus.isError then return ← logFailure true rollbackStatus
  return status

def legacyBootBootPriorityApply : Boot EfiStatus := do
  match ← applyBody with
  | .returned status => return status
  | .failed status => applyFailed status

def legacyBootBootPriorityRollback : Boot EfiStatus := do
  let context := (← get).context
  if context.signature ≠ bootTargetSignature ∨ !context.journalComplete then
    return .invalidParameter
  if !context.priorityTransactionDirty && context.priorityWrites.length = 0 then
    legacyBootBootTargetValidateOriginal
  else legacyBootRollbackInternal

def legacyBootBootTargetRelease : Boot EfiStatus := do
  let context := (← get).context
  if context.signature = bootTargetSignature ∧
      (context.priorityTransactionDirty ∨ context.priorityWrites.length ≠ 0) then
    return .accessDenied
  modify fun state => { state with context := {}, rom := .reset }
  return .success

end CsmVgaSelector
