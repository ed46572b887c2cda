import CsmVgaSelector.Selector.Marker

/-!
# The countdowns and the end of a boot

Before the preflight and again before the display is switched the user has five seconds to edit the
settings or to cancel. A boot that returns releases its plan and closes its log and its volumes, and the
static variables remember whether it did all of that.
-/

namespace CsmVgaSelector

open Halting SelectorProg

def scanF2 : UInt16 := 0x0C

/-- Twenty looks at the keyboard in each of five seconds. -/
def countdownTicks : Nat := 5 * 20

/-- The first tick that ends the countdown. -/
def tickUntil {α : Type} (tick : SelectorProg (Option α)) : Nat → SelectorProg (Option α)
  | 0 => return none
  | ticks + 1 => do
      match ← tick with
      | some result => return some result
      | none => tickUntil tick ticks

/-- A keyboard that fails for another reason than that no key is there. -/
def ServiceAnswer.keyboardFailed (keyboard : ServiceAnswer) : Bool :=
  keyboard.status.isError && keyboard.status != .notReady

/-- The keystroke has this scan code. -/
def ServiceAnswer.scanned (keyboard : ServiceAnswer) (scanCode : UInt16) : Bool :=
  keyboard.status == .success && keyboard.key.scanCode == scanCode

/-- The keystroke is this character. -/
def ServiceAnswer.typed (keyboard : ServiceAnswer) (character : Char) : Bool :=
  keyboard.status == .success && keyboard.key.unicodeChar == character.toNat.toUInt16

/-- `Stall`, and what a countdown does where it fails. -/
def stallTick {α : Type} (failed : EfiStatus → SelectorProg α) : SelectorProg (Option α) := do
  let status ← service
  if status.isError then return some (← failed status)
  return none

/-- The status, and whether editing is requested. -/
def setupTick : SelectorProg (Option (EfiStatus × Bool)) := do
  let keyboard ← call
  if keyboard.granted && keyboard.scanned scanF2 then return some (.success, true)
  if keyboard.granted && keyboard.scanned scanEsc then
    note .cancelled
    return some (.aborted, false)
  if keyboard.granted && keyboard.keyboardFailed then return some (keyboard.status, false)
  stallTick fun status => return (status, false)

def bootSetupWindow : SelectorProg (EfiStatus × Bool) := do
  match ← tickUntil setupTick countdownTicks with
  | some result => return result
  | none => return (.success, false)

/-- The name shown for the target is left out. -/
def bootCountdownPrepare (target : Bool) : SelectorProg Unit :=
  updateCountdown fun _ => { prepared := target }

def waitTick : SelectorProg (Option EfiStatus) := do
  let keyboard ← call
  if keyboard.granted && keyboard.scanned scanF2 then
    updateCountdown fun countdown => { countdown with action := .editAction }
    let _ ← logLine "NCV_BOOT_INPUT_EDIT_REQUESTED\r\n"
    return some .aborted
  if keyboard.granted && keyboard.scanned scanEsc then
    updateCountdown fun countdown => { countdown with action := .cancelAction }
    note .cancelled
    let _ ← logLine "NCV_BOOT_INPUT_CANCELLED\r\n"
    return some .aborted
  if keyboard.granted && keyboard.keyboardFailed then
    let _ ← logLine "NCV_BOOT_FAIL_COUNTDOWN_INPUT\r\n"
    return some keyboard.status
  stallTick fun status => do
    let _ ← logLine "NCV_BOOT_FAIL_COUNTDOWN_TIMER\r\n"
    return status

/-- The record, and the barrier behind it. -/
def logBehindBarrier (text : String) : SelectorProg EfiStatus := do
  let status ← logLine text
  if status.isError then return status
  log .fileBarrier

def bootCountdownWait : SelectorProg EfiStatus := do
  let countdown := (← getState).countdown
  if !countdown.prepared || countdown.continueSelected || countdown.action != .noAction then
    return .notReady
  let status ← logBehindBarrier "NCV_BOOT_INPUT_COUNTDOWN_BEGIN\r\n"
  if status.isError then return status
  let _ ← onLog LogAction.dropConsole.exec
  match ← tickUntil waitTick countdownTicks with
  | some status => return status
  | none =>
      updateCountdown fun countdown => { countdown with continueSelected := true }
      note .countdownCompleted
      logBehindBarrier "NCV_BOOT_INPUT_COUNTDOWN_COMPLETE\r\n"

/-- `AppFileClose`. -/
def appFileClose : SelectorProg EfiStatus := service

/-- The status, and `Closed`. -/
def bootReportFinishDetailed (status : EfiStatus) : SelectorProg (EfiStatus × Bool) := do
  let flushStatus ← log .flush
  note (.logFlushed flushStatus)
  let closeStatus ← onLog AppLogger.logClose
  note (.logClosed closeStatus)
  let volumesStatus ← appFileClose
  note (.volumesClosed volumesStatus)
  return (recordFirstError (recordFirstError (recordFirstError status flushStatus) closeStatus)
      volumesStatus,
    !flushStatus.isError && !closeStatus.isError && !volumesStatus.isError)

def bootCountdownFinish (status planCleanupStatus : EfiStatus) : SelectorProg EfiStatus := do
  let countdown := (← getState).countdown
  let userAction := !countdown.continueSelected && countdown.action != .noAction && status == .aborted
  let result :=
    if planCleanupStatus.isError then planCleanupStatus else if userAction then .success else status
  let (result, closed) ← bootReportFinishDetailed result
  let cleanReturn :=
    countdown.prepared && !countdown.continueSelected && !planCleanupStatus.isError && closed
  updateCountdown fun countdown => { countdown with cleanReturn }
  if userAction && !result.isError && cleanReturn then return .aborted
  updateCountdown fun countdown => { countdown with action := .noAction }
  return result

def bootCountdownRequestEdit : SelectorProg Bool := do
  if !(← getState).countdown.cleanReturn then return false
  updateCountdown fun countdown => { countdown with action := .editAction }
  return true

def bootCountdownTakeEdit (status markerStatus : EfiStatus) : SelectorProg Bool := do
  let countdown := (← getState).countdown
  updateCountdown fun countdown => { countdown with action := .noAction }
  return countdown.cleanReturn && countdown.action == .editAction && status.isError &&
    !markerStatus.isError

def bootCountdownTakeCancel (status markerStatus : EfiStatus) : SelectorProg Bool := do
  if markerStatus.isError then
    updateCountdown fun countdown => { countdown with cleanReturn := false }
  let countdown := (← getState).countdown
  if countdown.action = .cancelAction then
    updateCountdown fun countdown => { countdown with action := .noAction }
  return countdown.cleanReturn && countdown.action == .cancelAction && status == .aborted &&
    !markerStatus.isError

/-! ### Waiting for the user -/

/-- Type-ahead is dropped. -/
def drainKeys : Nat → SelectorProg Unit
  | 0 => return ()
  | keys + 1 => do
      let keyboard ← call
      if !keyboard.granted || keyboard.status.isError then return ()
      drainKeys keys

def drainedKeys : Nat := 32

/-- The loop of `BootReportHold`. The run is cut after `patience` looks at the keyboard; where there is
none, or it fails, the machine stops. -/
def holdLoop : Nat → SelectorProg Unit
  | 0 => halt
  | patience + 1 => do
      let keyboard ← call
      if !keyboard.granted then halt
      else if keyboard.typed '\r' then return ()
      else if keyboard.scanned scanF2 then
        if ← bootCountdownRequestEdit then return ()
        else holdLoop patience
      else if keyboard.keyboardFailed then halt
      else holdLoop patience

def bootReportHold (patience : Nat) (status : EfiStatus) : SelectorProg Unit := do
  if !status.isError then return ()
  drainKeys drainedKeys
  holdLoop patience

/-- The loop of `RomRecoveryOffer`. What the assessment writes to its own log is left out. -/
def offerLoop : Nat → Bool → SelectorProg Unit
  | 0, _ => halt
  | patience + 1, assessed => do
      let keyboard ← call
      if !keyboard.granted then halt
      else if keyboard.status = .success then
        if !assessed && keyboard.scanned scanF2 then
          if ← bootCountdownRequestEdit then return ()
          else if keyboard.typed '\r' || keyboard.scanned scanEsc then return ()
          else offerLoop patience (assessed || keyboard.typed 'a' || keyboard.typed 'A')
        else if keyboard.typed '\r' || keyboard.scanned scanEsc then return ()
        else offerLoop patience (assessed || keyboard.typed 'a' || keyboard.typed 'A')
      else if keyboard.status ≠ .notReady then halt
      else offerLoop patience assessed

def romRecoveryReset : SelectorProg Unit := update fun state => { state with recoveryPending := false }

/-- `FALSE` where there is no conflict to report. -/
def romRecoveryOffer (patience : Nat) (bootStatus cleanupStatus : EfiStatus) : SelectorProg Bool := do
  if (← getState).recoveryPending && bootStatus == .unsupported && !cleanupStatus.isError then
    drainKeys drainedKeys
    offerLoop patience false
    romRecoveryReset
    return true
  else
    romRecoveryReset
    return false

end CsmVgaSelector
