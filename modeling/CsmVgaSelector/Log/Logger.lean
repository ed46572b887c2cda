import CsmVgaSelector.Config.Text
import CsmVgaSelector.Report.Observe

/-!
# The logger

A record goes to the log file, the serial port and the console. From `LogBeginDurableFileFirst` on it is
written to the file and flushed before it is shown; `FirstFileError` keeps the first failure of the file.

Beside the logger the state has a trace of what has happened: every operation on the log file with its
status, every failure that is recorded although no operation reported it, everything that was shown, and
what the calls returned. It starts when `LogInitialize` returns. The boot report's own texts are left out.
-/

namespace CsmVgaSelector

/-- The calls on an open log. -/
inductive LogCall where
  | setVerbose (verbose : Bool)
  | print (text : Text)
  | verbose (text : Text)
  | printBestEffort (text : Text)
  | flush
  | fileBarrier
  | beginDurableFileFirst
  | commitAndReopen
  | commitAndClose
  | reopenAppend
  deriving DecidableEq

/-- Where a boot has come to. -/
inductive Milestone where
  | disconnectController
  | legacyBoot
  deriving DecidableEq

inductive LogEvent where
  /-- A write with the part of the data that it took. -/
  | write (status : EfiStatus) (data : Bytes)
  | flush (status : EfiStatus)
  | close (status : EfiStatus)
  | open_ (status : EfiStatus)
  | seek (status : EfiStatus)
  | fault (status : EfiStatus)
  | console (text : Text)
  | serial (data : Bytes)
  /-- A call has returned, and `FirstFileError` is this. -/
  | returned (call : LogCall) (status firstFileError : EfiStatus)
  | reached (milestone : Milestone)
  deriving DecidableEq

/-- `APP_LOGGER`. A console is known by its handle; of the file only matters whether it is open. -/
structure AppLogger where
  console : Option Nat := none
  serial : Bool := false
  file : Bool := false
  verbose : Bool := false
  serialLocateStatus : EfiStatus := .success
  fileOpenStatus : EfiStatus := .success
  fileCloseStatus : EfiStatus := .success
  firstWriteError : EfiStatus := .success
  firstFileError : EfiStatus := .success
  durableFileFirst : Bool := false
  files : Bool := false
  fileName : Text := []
  deriving DecidableEq

structure LogState where
  logger : AppLogger := {}
  trace : List LogEvent := []
  deriving DecidableEq

/-- A keystroke. -/
structure InputKey where
  scanCode : UInt16
  unicodeChar : UInt16
  deriving DecidableEq

def scanEsc : UInt16 := 0x17

/-- The answer to one call of a service, with a part for each kind of call. -/
structure ServiceAnswer where
  status : EfiStatus := .success
  /-- Whether an allocation is granted, or what is asked about is there. -/
  granted : Bool := true
  /-- The bytes a write took. -/
  written : Nat := 0
  position : Nat := 0
  /-- The consoles of the system table. -/
  conOut : Option Nat := none
  stdErr : Option Nat := none
  key : InputKey := ⟨0, 0⟩
  /-- What a part of the boot logs on its way. -/
  logCalls : List LogCall := []
  /-- What was read, or how many there are. -/
  data : Bytes := []
  count : Nat := 0

abbrev LogProg (α : Type) := Prog ServiceAnswer LogState α

/-- `\xEF\xBB\xBF`. -/
def utf8Bom : Bytes := [0xEF, 0xBB, 0xBF]

def logRotateBytes : Nat := 1024 * 1024
def logFileNameChars : Nat := 256

def recordFirstError (current candidate : EfiStatus) : EfiStatus :=
  if !current.isError && candidate.isError then candidate else current

/-! ### UTF-8 -/

def utf8OfCodePoint (codePoint : Nat) : Bytes :=
  if codePoint < 0x80 then [codePoint.toUInt8]
  else if codePoint < 0x800 then
    [(0xC0 ||| codePoint >>> 6).toUInt8, (0x80 ||| codePoint &&& 0x3F).toUInt8]
  else if codePoint < 0x10000 then
    [(0xE0 ||| codePoint >>> 12).toUInt8, (0x80 ||| codePoint >>> 6 &&& 0x3F).toUInt8,
      (0x80 ||| codePoint &&& 0x3F).toUInt8]
  else
    [(0xF0 ||| codePoint >>> 18).toUInt8, (0x80 ||| codePoint >>> 12 &&& 0x3F).toUInt8,
      (0x80 ||| codePoint >>> 6 &&& 0x3F).toUInt8, (0x80 ||| codePoint &&& 0x3F).toUInt8]

def isHighSurrogate (character : UInt16) : Bool := 0xD800 ≤ character && character ≤ 0xDBFF
def isLowSurrogate (character : UInt16) : Bool := 0xDC00 ≤ character && character ≤ 0xDFFF

def unicodeToUtf8 : Text → Bytes
  | [] => []
  | [character] =>
      utf8OfCodePoint
        (if isHighSurrogate character || isLowSurrogate character then 0xFFFD else character.toNat)
  | character :: lowSurrogate :: rest =>
      if isHighSurrogate character then
        if isLowSurrogate lowSurrogate then
          utf8OfCodePoint (0x10000 + (character.toNat - 0xD800) <<< 10 + (lowSurrogate.toNat - 0xDC00)) ++
            unicodeToUtf8 rest
        else utf8OfCodePoint 0xFFFD ++ unicodeToUtf8 (lowSurrogate :: rest)
      else
        utf8OfCodePoint (if isLowSurrogate character then 0xFFFD else character.toNat) ++
          unicodeToUtf8 (lowSurrogate :: rest)

namespace AppLogger

/-! ### Sinks -/

def emit (event : LogEvent) : LogProg Unit :=
  modify fun state => { state with trace := state.trace ++ [event] }

def updateLogger (f : AppLogger → AppLogger) : LogProg Unit :=
  modify fun state => { state with logger := f state.logger }

def recordFileError (status : EfiStatus) : LogProg Unit :=
  updateLogger fun logger => { logger with firstFileError := recordFirstError logger.firstFileError status }

def recordWriteError (status : EfiStatus) : LogProg Unit :=
  updateLogger fun logger =>
    { logger with firstWriteError := recordFirstError logger.firstWriteError status }

/-- A failure of the file that no operation reported. -/
def recordFault (status : EfiStatus) : LogProg Unit := do
  emit (.fault status)
  recordFileError status

/-- An operation on the file, for its status. -/
def fileOperation (event : EfiStatus → LogEvent) : LogProg EfiStatus := do
  let answer ← Prog.call
  emit (event answer.status)
  return answer.status

def allocatePool : LogProg Bool := do return (← Prog.call).granted

/-- The loop of `WriteSerialAll` and of `WriteFileAll`: the status, and whether an operation reported it. -/
def writeAll (event : EfiStatus → Bytes → LogEvent) (data : Bytes) : LogProg (EfiStatus × Bool) := do
  if data = [] then return (.success, true)
  let answer ← Prog.call
  if answer.status.isError then
    emit (event answer.status [])
    return (answer.status, true)
  emit (event answer.status (data.take answer.written))
  if _h : answer.written = 0 then return (.deviceError, false)
  else writeAll event (data.drop answer.written)
  termination_by data.length
  decreasing_by
    rw [List.length_drop]
    have := List.length_pos_iff.mpr ‹¬data = []›
    omega

def writeSerialAll (data : Bytes) : LogProg EfiStatus := do
  return (← writeAll (fun _ piece => .serial piece) data).1

/-- `WriteFileAll`, and the record of its status; a file that is not open is refused. -/
def writeFileAll (data : Bytes) : LogProg EfiStatus := do
  if !(← get).logger.file then
    recordFault .invalidParameter
    return .invalidParameter
  let (status, reported) ← writeAll .write data
  if reported then recordFileError status
  else recordFault status
  return status

/-- One console. -/
def outputString (text : Text) : LogProg EfiStatus := do
  emit (.console text)
  return (← Prog.call).status

/-- The console, unless there is none or it has been written to. -/
def outputStringTo (console : Option Nat) (already : List (Option Nat)) (text : Text) :
    LogProg EfiStatus := do
  if console.isNone || already.contains console then return .success
  outputString text

def writeConsoleTargets (text : Text) (includeCurrentSystemConsoles : Bool) : LogProg EfiStatus := do
  let system ← Prog.call
  let console := (← get).logger.console
  let status ← outputStringTo console [] text
  if !includeCurrentSystemConsoles then return recordFirstError .success status
  let outStatus ← outputStringTo system.conOut [console] text
  let errStatus ← outputStringTo system.stdErr [console, system.conOut] text
  return recordFirstError (recordFirstError (recordFirstError .success status) outStatus) errStatus

/-! ### Records -/

/-- The consoles and the serial port. -/
def showRecord (text : Text) (mirrorDespiteFileFailure : Bool) : LogProg EfiStatus := do
  let status ← writeConsoleTargets text mirrorDespiteFileFailure
  if !(← get).logger.serial then return status
  let serialStatus ← writeSerialAll (unicodeToUtf8 text)
  return recordFirstError status serialStatus

/-- The file written and flushed. -/
def writeDurably (data : Bytes) : LogProg EfiStatus := do
  let status ← writeFileAll data
  if status.isError then return status
  let flushStatus ← fileOperation .flush
  recordFileError flushStatus
  return recordFirstError status flushStatus

/-- Before the irreversible boundary a record that is not durable is not displayed. -/
def printDurableFileFirst (text : Text) (mirrorDespiteFileFailure : Bool) : LogProg EfiStatus := do
  let status ← writeDurably (unicodeToUtf8 text)
  if !mirrorDespiteFileFailure && (← get).logger.firstFileError.isError then return status
  let shownStatus ← showRecord text mirrorDespiteFileFailure
  return recordFirstError status shownStatus

def printFileLast (text : Text) (mirrorDespiteFileFailure : Bool) : LogProg EfiStatus := do
  let status ← showRecord text mirrorDespiteFileFailure
  if !(← get).logger.file then return status
  let fileStatus ← writeFileAll (unicodeToUtf8 text)
  return recordFirstError status fileStatus

/-- The system table has a console. -/
def systemConsolePresent : LogProg Bool := do
  let system ← Prog.call
  return system.conOut.isSome || system.stdErr.isSome

/-- The record could not be converted, and only the consoles can show it. -/
def printUnconverted (text : Text) (mirrorDespiteFileFailure : Bool) : LogProg EfiStatus := do
  if (← get).logger.file then recordFault .outOfResources
  let systemConsole ← systemConsolePresent
  if mirrorDespiteFileFailure && ((← get).logger.console.isSome || systemConsole) then
    let _ ← writeConsoleTargets text true
  return .outOfResources

/-- The sinks that are there, for the first error. -/
def printToSinks (text : Text) (mirrorDespiteFileFailure : Bool) : LogProg EfiStatus := do
  let logger := (← get).logger
  if logger.serial || logger.file then
    if !(← allocatePool) then printUnconverted text mirrorDespiteFileFailure
    else if logger.durableFileFirst then printDurableFileFirst text mirrorDespiteFileFailure
    else printFileLast text mirrorDespiteFileFailure
  else
    let systemConsole ← systemConsolePresent
    if logger.console.isSome || mirrorDespiteFileFailure && systemConsole then
      let status ← writeConsoleTargets text mirrorDespiteFileFailure
      return recordFirstError .success status
    return .success

/-- There is nothing to print on. -/
def noSink (mirrorDespiteFileFailure : Bool) : LogProg Bool := do
  let logger := (← get).logger
  let systemConsole ← systemConsolePresent
  return logger.console.isNone && !logger.serial && !logger.file &&
    !(mirrorDespiteFileFailure && systemConsole)

/-- The record could not be formatted. -/
def printUnformatted : LogProg EfiStatus := do
  recordWriteError .outOfResources
  let logger := (← get).logger
  if logger.durableFileFirst || logger.file then recordFault .outOfResources
  return .outOfResources

/-- The text is the record once it has been formatted, if it can be. -/
def logVPrintInternal (text : Text) (mirrorDespiteFileFailure : Bool) : LogProg EfiStatus := do
  if !(← allocatePool) then printUnformatted
  else
    let sinkStatus ← printToSinks text mirrorDespiteFileFailure
    let status := if ← noSink mirrorDespiteFileFailure then .unsupported else sinkStatus
    recordWriteError status
    return status

/-- The call notes in the trace what it returns. -/
def returning (call : LogCall) (body : LogProg EfiStatus) : LogProg EfiStatus := do
  let status ← body
  emit (.returned call status (← get).logger.firstFileError)
  return status

def logPrint (text : Text) : LogProg EfiStatus :=
  returning (.print text) (logVPrintInternal text false)

def logVerbose (text : Text) : LogProg EfiStatus := returning (.verbose text) do
  if !(← get).logger.verbose then return .success
  logVPrintInternal text false

def logPrintBestEffort (text : Text) : LogProg EfiStatus :=
  returning (.printBestEffort text) (logVPrintInternal text true)

end AppLogger

end CsmVgaSelector
