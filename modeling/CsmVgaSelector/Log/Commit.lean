import CsmVgaSelector.Log.Logger

/-!
# The log file's barriers

`LogFileBarrier` answers with `FirstFileError`, so one failure of the file fails every barrier after it. The
file is closed and opened again at the boot's phases, and closed for good before the disk is booted.
-/

namespace CsmVgaSelector

namespace AppLogger

/-- An operation of which both error fields are told. -/
def recordedOperation (event : EfiStatus → LogEvent) : LogProg EfiStatus := do
  let status ← fileOperation event
  recordFileError status
  recordWriteError status
  return status

def logFlush : LogProg EfiStatus := returning .flush do
  let status := (← get).logger.firstWriteError
  if !(← get).logger.file then return status
  let flushStatus ← recordedOperation .flush
  return recordFirstError status flushStatus

def logFileBarrier : LogProg EfiStatus := returning .fileBarrier do
  if !(← get).logger.file then
    recordFault .notReady
    return (← get).logger.firstFileError
  let _ ← recordedOperation .flush
  return (← get).logger.firstFileError

def logBeginDurableFileFirst : LogProg EfiStatus := returning .beginDurableFileFirst do
  let fileOpenStatus := (← get).logger.fileOpenStatus
  if fileOpenStatus.isError then return fileOpenStatus
  let status ← logFileBarrier
  if status.isError then return status
  updateLogger fun logger => { logger with durableFileFirst := true }
  return .success

/-- There is no file to commit, or none that could be opened again. -/
def notCommittable (logger : AppLogger) : Bool := !logger.file || !logger.files || logger.fileName.isEmpty

def closeFile : LogProg EfiStatus := do
  updateLogger fun logger => { logger with file := false }
  let closeStatus ← recordedOperation .close
  updateLogger fun logger => { logger with fileCloseStatus := closeStatus }
  return closeStatus

def openFile : LogProg EfiStatus := do
  let openStatus ← recordedOperation .open_
  updateLogger fun logger =>
    { logger with fileOpenStatus := openStatus, file := !openStatus.isError }
  return openStatus

/-- The file opened and positioned at its end. -/
def openAppend (status : EfiStatus) : LogProg EfiStatus := do
  let openStatus ← openFile
  let status := recordFirstError status openStatus
  if openStatus.isError then return status
  let positionStatus ← recordedOperation .seek
  let status := recordFirstError status positionStatus
  if positionStatus.isError then
    let closeStatus ← closeFile
    return recordFirstError status closeStatus
  return status

def logCommitAndReopen : LogProg EfiStatus := returning .commitAndReopen do
  if notCommittable (← get).logger then
    recordFault .notReady
    return (← get).logger.firstFileError
  let status ← logFileBarrier
  let closeStatus ← closeFile
  openAppend (recordFirstError status closeStatus)

def logCommitAndClose : LogProg EfiStatus := returning .commitAndClose do
  if notCommittable (← get).logger then
    recordFault .notReady
    return (← get).logger.firstFileError
  let status ← logFileBarrier
  let closeStatus ← closeFile
  return recordFirstError status closeStatus

def logReopenAppend : LogProg EfiStatus := returning .reopenAppend do
  let logger := (← get).logger
  if logger.file || !logger.files || logger.fileName.isEmpty then return .invalidParameter
  openAppend .success

/-- The logger is zeroed at the end. -/
def logClose : LogProg EfiStatus := do
  let status ← logFlush
  if !(← get).logger.file then
    updateLogger fun _ => {}
    return status
  let closeStatus ← fileOperation .close
  updateLogger fun _ => {}
  return recordFirstError status closeStatus

/-! ### Opening the log -/

/-- The file could not be used, and is closed. -/
def logAbandon (status : EfiStatus) : LogProg EfiStatus := do
  let closed ← Prog.call
  updateLogger fun logger =>
    { logger with file := false, fileCloseStatus := closed.status, fileOpenStatus := status }
  return status

/-- A log of one megabyte is deleted and started anew: the status, and the end of the file. -/
def logRotateOversized (endPosition : Nat) : LogProg (EfiStatus × Nat) := do
  if endPosition < logRotateBytes then return (.success, endPosition)
  updateLogger fun logger => { logger with file := false }
  let deleted ← Prog.call
  if deleted.status ≠ .success then return (.deviceError, endPosition)
  let opened ← Prog.call
  if opened.status.isError then return (opened.status, endPosition)
  updateLogger fun logger => { logger with file := true }
  return (.success, 0)

/-- What `LogInitialize` does with an open file. -/
def logAppend : LogProg EfiStatus := do
  let seek ← Prog.call
  if seek.status.isError then return ← logAbandon seek.status
  let position ← Prog.call
  if position.status.isError then return ← logAbandon position.status
  let (status, endPosition) ← logRotateOversized position.position
  if status.isError then
    updateLogger fun logger => { logger with fileOpenStatus := status }
    return status
  if endPosition = 0 then
    let (bomStatus, _) ← writeAll .write utf8Bom
    if bomStatus.isError then return ← logAbandon bomStatus
  return .success

def failOpen (status : EfiStatus) : LogProg EfiStatus := do
  updateLogger fun logger => { logger with fileOpenStatus := status }
  return status

def logOpen (files : Bool) (logFileName : Text) : LogProg EfiStatus := do
  let logger := (← get).logger
  if logFileName.isEmpty then
    return if logger.console.isNone && !logger.serial then .unsupported else .success
  if !files then return ← failOpen .invalidParameter
  if logFileName.length ≥ logFileNameChars then return ← failOpen .badBufferSize
  updateLogger fun logger => { logger with files := true, fileName := logFileName }
  let opened ← Prog.call
  if opened.status.isError then return ← failOpen opened.status
  updateLogger fun logger => { logger with file := true, fileOpenStatus := opened.status }
  logAppend

/-- The trace starts when it returns. -/
def logInitialize (files verbose : Bool) (logFileName : Text) : LogProg EfiStatus := do
  let system ← Prog.call
  let serial ← Prog.call
  updateLogger fun _ =>
    { console := system.conOut, serial := !serial.status.isError, verbose,
      serialLocateStatus := serial.status }
  let status ← logOpen files logFileName
  modify fun state => { state with trace := [] }
  return status

end AppLogger

/-- `LogSetVerbose` returns nothing. -/
def LogCall.exec : LogCall → LogProg EfiStatus
  | setVerbose on => do
      AppLogger.updateLogger fun logger => { logger with verbose := on }
      return .success
  | print text => AppLogger.logPrint text
  | verbose text => AppLogger.logVerbose text
  | printBestEffort text => AppLogger.logPrintBestEffort text
  | flush => AppLogger.logFlush
  | fileBarrier => AppLogger.logFileBarrier
  | beginDurableFileFirst => AppLogger.logBeginDurableFileFirst
  | commitAndReopen => AppLogger.logCommitAndReopen
  | commitAndClose => AppLogger.logCommitAndClose
  | reopenAppend => AppLogger.logReopenAppend

/-- What can be done with a logger. -/
inductive LogAction where
  | call (logCall : LogCall)
  | start (files verbose : Bool) (logFileName : Text)
  | close
  /-- `Logger->Console = NULL`. -/
  | dropConsole
  deriving DecidableEq

def LogAction.exec : LogAction → LogProg EfiStatus
  | call logCall => logCall.exec
  | start files verbose logFileName => AppLogger.logInitialize files verbose logFileName
  | close => AppLogger.logClose
  | dropConsole => do
      AppLogger.updateLogger fun logger => { logger with console := none }
      return .success

end CsmVgaSelector
