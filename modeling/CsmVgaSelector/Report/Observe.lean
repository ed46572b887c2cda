import CsmVgaSelector.Lib.Prog
import CsmVgaSelector.Status

/-!
# The boot report

Every text the program logs is also shown to the boot report, which looks for record names at the
beginnings of its lines: a name is the last checkpoint, some names are stages, and the first one that
says `FAIL` or `BLOCKED` is kept as the failure code. Two names raise the disk warnings.
-/

namespace CsmVgaSelector

/-- UTF-16 text without its terminator. -/
abbrev Text := List UInt16

def ofString (string : String) : Text := string.toList.map fun character => character.toNat.toUInt16

def newline : UInt16 := 0x0A

structure BootReport where
  active : Bool
  stage : Text
  checkpoint : Text
  failureCode : Text
  diskBbsWarning : Bool
  diskOrderWarning : Bool
  deriving DecidableEq, Repr

/-- `ARRAY_SIZE` of `Stage`, `Checkpoint` and `FailureCode`. -/
def reportTextSize : Nat := 96

def stages : List (String × String) :=
  [("NCV_BOOT_START", "Validating boot configuration"),
   ("NCV_CONFIG_PARSED", "Checking native CSM capabilities"),
   ("NCV_BLOCKED_CONFIG", "Validating boot configuration"),
   ("NCV_BLOCKED_CSM_CAPABILITY", "Checking native CSM capabilities"),
   ("NCV_BLOCKED_TARGET_IDENTITY", "Matching the selected GPU"),
   ("NCV_BLOCKED_ACTIVE_VGA", "Matching active and selected GPUs"),
   ("NCV_BLOCKED_TARGET_PATH", "Validating GPU bridge routes"),
   ("NCV_BLOCKED_TARGET_VGA", "Reading target GPU state"),
   ("NCV_BLOCKED_TARGET_ROM", "Validating GPU option ROM"),
   ("NCV_BLOCKED_ROM_OVERLAP", "Protecting existing legacy option ROMs"),
   ("NCV_BOOT_FAIL_STORAGE_ROM_CHANGED", "Verifying preserved storage option ROMs"),
   ("NCV_BLOCKED_ROM_LAYOUT", "Checking legacy ROM memory layout"),
   ("NCV_BLOCKED_BOOT_CONTROLLER", "Matching boot disk controller"),
   ("NCV_BLOCKED_BBS_TARGET", "Matching the live legacy disk"),
   ("NCV_BLOCKED_BBS_ELIGIBILITY", "Validating the matched legacy disk"),
   ("NCV_BLOCKED_LEGACY_OPTION", "Matching firmware boot option"),
   ("NCV_BOOT_PREFLIGHT_COMPLETE", "Committing pre-switch diagnostics"),
   ("NCV_BOOT_ACTIVE_GOP_DISCONNECT_BEGIN", "Disconnecting primary firmware display"),
   ("NCV_BOOT_VGA_ROUTE_TRANSFER_BEGIN", "Routing the selected GPU"),
   ("NCV_BOOT_LEGACY_REGION_UNLOCK_BEGIN", "Unlocking legacy video memory"),
   ("NCV_BOOT_FAIL_ROM_BACKUP_ALLOCATION", "Allocating GPU ROM backup"),
   ("NCV_BOOT_TARGET_LEGACY_VGA_ROM_COPY_BEGIN", "Copying and verifying GPU option ROM"),
   ("NCV_BOOT_FAIL_DISPATCH_ALLOCATION", "Allocating low-memory dispatch table"),
   ("NCV_BOOT_COMPATIBILITY16_FARCALL_BEGIN", "Executing GPU option ROM through firmware"),
   ("NCV_BOOT_COMPATIBILITY16_FARCALL_RETURNED", "Verifying GPU ROM initialization and INT10"),
   ("NCV_BOOT_TARGET_BBS_TRANSACTION_BEGIN", "Applying legacy disk boot priorities"),
   ("NCV_BOOT_LEGACY_BOOT_OPTION_READY", "Preparing native legacy handoff"),
   ("NCV_BOOT_NATIVE_LEGACY_BOOT_BEGIN", "Calling native legacy boot")]

def copyBounded (capacity : Nat) (text : Text) : Text := text.take (capacity - 1)

def isTokenCharacter (character : UInt16) : Bool :=
  0x41 ≤ character && character ≤ 0x5A || 0x30 ≤ character && character ≤ 0x39 || character == 0x5F

/-- The record name that a line begins with, if it begins with one. -/
def recordName (line : Text) : Option Text :=
  let name := line.takeWhile isTokenCharacter
  if (ofString "NCV_").isPrefixOf line ∧ 4 < name.length ∧ name.length < reportTextSize then
    some name
  else none

/-- `StrStr (Text, Part) != NULL`. -/
def containsText (part text : Text) : Bool := text.tails.any part.isPrefixOf

namespace BootReport

/-- A record name: the checkpoint, perhaps a stage, and perhaps the failure code. -/
def observeName (report : BootReport) (name : Text) : BootReport :=
  if report.failureCode = [] then
    { report with
      checkpoint := name
      stage :=
        match stages.find? fun stage => ofString stage.1 == name with
        | some stage => copyBounded reportTextSize (ofString stage.2)
        | none => report.stage
      failureCode :=
        if containsText (ofString "_FAIL_") name || containsText (ofString "_BLOCKED_") name then
          copyBounded reportTextSize name
        else report.failureCode }
  else report

/-- One line, from its beginning. -/
def observeLine (report : BootReport) (line : Text) : BootReport :=
  let report :=
    { report with
      diskBbsWarning := report.diskBbsWarning ||
        (ofString "NCV_DISK_FIRMWARE_WARNING_BBS\r").isPrefixOf line
      diskOrderWarning := report.diskOrderWarning ||
        (ofString "NCV_DISK_FIRMWARE_WARNING_ORDER\r").isPrefixOf line }
  match recordName line with
  | some name => report.observeName name
  | none => report

/-- The text, character by character; `atBeginning` says that a line begins here. -/
def observeFrom : Bool → Text → BootReport → BootReport
  | _, [], report => report
  | atBeginning, character :: rest, report =>
      observeFrom (character == newline) rest
        (if atBeginning then report.observeLine (character :: rest) else report)

end BootReport

def bootReportObserve (text : Text) (report : BootReport) : BootReport :=
  if report.active then BootReport.observeFrom true text report else report

/-! ### Logging with the report looking on -/

/-- The outcome of one `LogPrint`: whether the text could be formatted, and the status. -/
structure LogAnswer where
  formatted : Bool
  status : EfiStatus
  deriving DecidableEq, Repr

abbrev ReportLog (α : Type) := Prog LogAnswer BootReport α

/-- `LogPrint`: the report sees the text once it has been formatted, whatever the sinks say. -/
def logText (text : Text) : ReportLog EfiStatus := do
  let answer ← Prog.call
  if !answer.formatted then return .outOfResources
  modify (bootReportObserve text)
  return answer.status

end CsmVgaSelector
