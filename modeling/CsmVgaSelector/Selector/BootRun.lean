import CsmVgaSelector.Config.Import
import CsmVgaSelector.Selector.Countdown

/-!
# One boot

The preflight, the hand-off of the display and the call of the disk's legacy boot. The plan, the routes, the
ROM and the boot table are parts of their own, known here by their statuses and by what they log. Up to the
disconnect of the active display the boot can return; from there on it halts.
-/

namespace CsmVgaSelector

open Halting SelectorProg

/-- Where a boot that returns leaves its main line. -/
inductive BootExit where
  | preflightFailure (status : EfiStatus)
  | normalReturn (status : EfiStatus)

def bootLogName : Text := ofString "NativeCsmVgaBoot.log"

def phase (code : String) : SelectorProg Unit := do
  let _ ← logLine (code ++ "\r\n")
  let _ ← log .commitAndReopen

/-- Diagnostics first, then the machine stops. -/
def bootReportHalt {α : Type} (code : String) : SelectorProg α := do
  let _ ← log (.printBestEffort (ofString code))
  let _ ← log .commitAndClose
  halt

/-- A step behind which the machine is not returned. -/
def orHalt (code : String) (step : SelectorProg EfiStatus) : SelectorProg Unit := do
  let status ← step
  if status.isError then bootReportHalt code

/-- A part of the boot that logs on its way, for its status. -/
def part : SelectorProg EfiStatus := do return (← stage).status

/-- It may leave a ROM conflict to report. -/
def nativeCsmVgaRuntimePlanBuild : SelectorProg EfiStatus := do
  let answer ← stage
  update fun state => { state with recoveryPending := !answer.granted }
  return answer.status

def validateBootReadiness : SelectorProg EfiStatus := part

/-- `Capture`. -/
def captureRange : SelectorProg EfiStatus := part

def legacyDispatchReserve : SelectorProg EfiStatus := service

/-- The checks that change nothing. -/
def preflight (autoBoot : Bool) : SelectorProg (Option BootExit) := do
  let planStatus ← nativeCsmVgaRuntimePlanBuild
  if planStatus.isError then return some (.preflightFailure planStatus)
  let readiness ← validateBootReadiness
  if readiness.isError then return some (.preflightFailure readiness)
  let _ ← captureRange
  let _ ← captureRange
  let _ ← captureRange
  let _ ← captureRange
  let vector ← call
  if !vector.granted then
    let _ ← logLine "Initial INT10 vector is outside legacy video/firmware memory\r\n"
    return some (.preflightFailure .compromisedData)
  phase "NCV_BOOT_PREFLIGHT_COMPLETE"
  if !autoBoot then
    let _ ← logLine
      "AutoBoot=false; validated runtime plan returned read-only without hardware mutation\r\n"
    return some (.normalReturn .success)
  let reserved ← legacyDispatchReserve
  if reserved.isError then return some (.preflightFailure reserved)
  return none

/-- From the end of the preflight to the disconnect of the active display. -/
def disconnectActive : SelectorProg (Option BootExit) := do
  let _ ← logLine "NCV_BOOT_PREFLIGHT_PASSED_AUTOMATICALLY_PROCEEDING\r\n"
  phase "NCV_BOOT_AUTOMATIC_EXECUTION_BEGIN"
  let barrier ← log .fileBarrier
  if barrier.isError then return some (.preflightFailure barrier)
  let countdown ← bootCountdownWait
  if countdown.isError then return some (.normalReturn countdown)
  let marker ← markerApply
  if marker.isError then
    let _ ← logLine "Menu marker handoff failed\r\n"
    return some (.preflightFailure marker)
  phase "NCV_BOOT_ACTIVE_GOP_DISCONNECT_BEGIN"
  let barrier ← log .fileBarrier
  if barrier.isError then return some (.preflightFailure barrier)
  reach .disconnectController
  let disconnected ← service
  if disconnected.isError then
    let _ ← logLine "NCV_BOOT_FAIL_ACTIVE_GOP_DISCONNECT\r\n"
    return some (.normalReturn disconnected)
  return none

/-- Whether a comparison of memory came out as it should. -/
def verified : SelectorProg EfiStatus := do
  let answer ← call
  return if answer.granted then .success else .compromisedData

/-- A step whose failure is undone before the machine stops. -/
def undoneAndHalted (code : String) (step undo : SelectorProg EfiStatus) : SelectorProg Unit := do
  let status ← step
  if status.isError then
    let _ ← undo
    bootReportHalt code

def routeApplyPart : SelectorProg EfiStatus := part

def routeRestorePart : SelectorProg EfiStatus := part

/-- The region's own call. -/
def unlockLegacyRegion : SelectorProg EfiStatus := service

def memoryMapValidateBootRanges : SelectorProg EfiStatus := service

/-- The routes, the ROM and its dispatch. -/
def handOff : SelectorProg Unit := do
  phase "NCV_BOOT_ACTIVE_GOP_DISCONNECT_COMPLETE"
  phase "NCV_BOOT_VGA_ROUTE_TRANSFER_BEGIN"
  undoneAndHalted "NCV_BOOT_FAIL_ROUTE_TRANSFER" routeApplyPart routeRestorePart
  phase "NCV_BOOT_VGA_ROUTE_TRANSFER_COMPLETE"
  phase "NCV_BOOT_LEGACY_REGION_UNLOCK_BEGIN"
  undoneAndHalted "NCV_BOOT_FAIL_LEGACY_REGION_UNLOCK" unlockLegacyRegion routeRestorePart
  phase "NCV_BOOT_LEGACY_REGION_UNLOCK_COMPLETE"
  orHalt "NCV_BOOT_FAIL_LOW_MEMORY_RANGE" memoryMapValidateBootRanges
  phase "NCV_BOOT_TARGET_LEGACY_VGA_ROM_COPY_BEGIN"
  phase "NCV_BOOT_TARGET_LEGACY_VGA_ROM_COPY_COMPLETE"
  orHalt "NCV_BOOT_FAIL_TARGET_LEGACY_VGA_ROM_READBACK" verified
  phase "NCV_BOOT_TARGET_LEGACY_VGA_ROM_READBACK_VERIFIED"
  phase "NCV_BOOT_COMPATIBILITY16_DISPATCH_TABLE_READY"
  phase "NCV_BOOT_COMPATIBILITY16_FARCALL_BEGIN"
  phase "NCV_BOOT_COMPATIBILITY16_FARCALL_RETURNED"
  orHalt "NCV_BOOT_FAIL_LOW_MEMORY_RANGE" memoryMapValidateBootRanges
  orHalt "NCV_BOOT_FAIL_TARGET_LEGACY_VGA_INT10_OWNERSHIP" verified
  phase "NCV_BOOT_TARGET_LEGACY_VGA_INT10_VERIFIED"

/-- `LegacyBootBootTargetJournalAndValidate`, `LegacyBootBootPriorityApply` and
`LegacyBootBootTargetValidateApplied`, up to the first that fails. -/
def bbsTransaction : SelectorProg EfiStatus := do
  let journaled ← part
  if journaled.isError then return journaled
  let applied ← part
  if applied.isError then return applied
  part

/-- `LegacyBootBootPriorityRollback`. -/
def bbsRollback : SelectorProg EfiStatus := part

def legacyBootArguments : SelectorProg EfiStatus := service

/-- The boot table, the final commit and the boot itself. -/
def legacyBoot {α : Type} : SelectorProg α := do
  phase "NCV_BOOT_TARGET_BBS_TRANSACTION_BEGIN"
  undoneAndHalted "NCV_BOOT_FAIL_BBS_TRANSACTION" bbsTransaction bbsRollback
  phase "NCV_BOOT_TARGET_BBS_TRANSACTION_COMPLETE"
  orHalt "NCV_BOOT_FAIL_LEGACY_BOOT_OPTION" legacyBootArguments
  phase "NCV_BOOT_LEGACY_BOOT_OPTION_READY"
  phase "NCV_BOOT_FINAL_PREBOOT_VALIDATION_COMPLETE"
  phase "NCV_BOOT_NATIVE_LEGACY_BOOT_BEGIN"
  let _ ← logLine <|
    "Selected disk native boot attempt: user choice overrides any firmware boot warnings recorded above.\r\n" ++
      "NCV_BOOT_PENDING_IF_NO_RETURN=NATIVE_LEGACY_BOOT_DID_NOT_RETURN\r\n" ++
      "NCV_BOOT_IRREVERSIBLE_NATIVE_CSM_LEGACY_BOOT_BOUNDARY\r\n"
  orHalt "NCV_BOOT_FAIL_FINAL_LOG_COMMIT" (log .commitAndClose)
  reach .legacyBoot
  let _ ← service
  let _ ← log .reopenAppend
  let _ ← log (.printBestEffort
    (ofString "NCV_BOOT_NATIVE_LEGACY_BOOT_RETURNED\r\nNCV_BOOT_FAIL_LEGACY_BOOT_RETURNED\r\n"))
  bootReportHalt "NCV_BOOT_FAIL_LEGACY_BOOT_RETURNED"

/-- The main line, for where it is left. -/
def bootMainLine (autoBoot : Bool) : SelectorProg BootExit := do
  phase "NCV_BOOT_START"
  let _ ← logLine "NCV_BUILD=1.2.3\r\n"
  let _ ← logLine "NCV_BOOT_AUTORUN_ENABLED\r\n"
  let _ ← logLine "NCV_MODE=BOOT\r\n"
  if let some exit ← preflight autoBoot then return exit
  if let some exit ← disconnectActive then return exit
  handOff
  legacyBoot

/-- A plan that has not reached the hand-off is not dirty. -/
def nativeCsmVgaRuntimePlanReleasePart : SelectorProg EfiStatus := do
  let status ← service
  note (.planReleased status)
  return status

def normalReturn (status : EfiStatus) : SelectorProg EfiStatus := do
  let cleanupStatus ← nativeCsmVgaRuntimePlanReleasePart
  bootCountdownFinish status cleanupStatus

def bootReturn : BootExit → SelectorProg EfiStatus
  | .preflightFailure status => do
      let _ ← logLine "NCV_BOOT_FAIL_PREFLIGHT\r\n"
      normalReturn status
  | .normalReturn status => normalReturn status

def appFileInitialize : SelectorProg EfiStatus := service

/-- `BootRun` behind an open log. -/
def bootWithLog (autoBoot : Bool) : SelectorProg EfiStatus := do
  let durable ← log .beginDurableFileFirst
  if durable.isError then
    let _ ← onLog AppLogger.logClose
    let _ ← appFileClose
    return durable
  bootReturn (← bootMainLine autoBoot)

def nativeCsmVgaBootRun (config : ProbeConfig) : SelectorProg EfiStatus := do
  note .boot
  update fun state => { state with log := {} }
  let files ← appFileInitialize
  if files.isError then return files
  let initialized ← onLog (AppLogger.logInitialize true true bootLogName)
  if initialized.isError then
    let _ ← appFileClose
    return initialized
  bootWithLog config.core.autoBoot

end CsmVgaSelector
