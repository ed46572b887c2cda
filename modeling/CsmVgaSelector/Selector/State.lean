import CsmVgaSelector.Config.Marker
import CsmVgaSelector.Lib.Halting
import CsmVgaSelector.Log.Commit

/-!
# The state of a run

The log of the current boot, the countdown's and the marker's static variables, and a history of what
decides whether the settings may be edited again.
-/

namespace CsmVgaSelector

inductive CountdownAction where
  | noAction
  | editAction
  | cancelAction
  deriving DecidableEq

structure Countdown where
  prepared : Bool := false
  continueSelected : Bool := false
  cleanReturn : Bool := false
  action : CountdownAction := .noAction
  deriving DecidableEq

/-- `Configuration`, `Original`, `Written` and `Attempted`. -/
structure Marker where
  configuration : MarkerConfig := .zero
  original : Bytes := []
  written : Bytes := []
  attempted : Bool := false
  deriving DecidableEq

inductive SelectorEvent where
  /-- The settings are edited. -/
  | setup
  /-- A boot is attempted. -/
  | boot
  | planReleased (status : EfiStatus)
  | logFlushed (status : EfiStatus)
  | logClosed (status : EfiStatus)
  | volumesClosed (status : EfiStatus)
  | countdownCompleted
  /-- The user has cancelled at one of the countdowns. -/
  | cancelled
  /-- `MarkerConfigure` has been called. -/
  | markerConfigured
  /-- `MarkerApply` has overwritten `Original`. -/
  | originalSaved
  /-- The marker file is about to be written. -/
  | markerWritten
  /-- `Original` is back in the marker file. -/
  | markerPutBack
  /-- `MarkerRestore` has returned. -/
  | markerRestored (status : EfiStatus)
  deriving DecidableEq

structure SelectorState where
  log : LogState := {}
  countdown : Countdown := {}
  marker : Marker := {}
  /-- `Recovery.Pending`. -/
  recoveryPending : Bool := false
  history : List SelectorEvent := []
  deriving DecidableEq

abbrev SelectorProg (α : Type) := Halting ServiceAnswer SelectorState α

namespace SelectorProg

open Halting

def note (event : SelectorEvent) : SelectorProg Unit :=
  update fun state => { state with history := state.history ++ [event] }

def updateCountdown (f : Countdown → Countdown) : SelectorProg Unit :=
  update fun state => { state with countdown := f state.countdown }

def updateMarker (f : Marker → Marker) : SelectorProg Unit :=
  update fun state => { state with marker := f state.marker }

/-- A program on the log. -/
def onLog {α : Type} (m : LogProg α) : SelectorProg α :=
  lift (m.zoom SelectorState.log fun log state => { state with log })

def log (logCall : LogCall) : SelectorProg EfiStatus := onLog logCall.exec

/-- `LogPrint` of a fixed text. A status that is printed with it is left out. -/
def logLine (text : String) : SelectorProg EfiStatus := log (.print (ofString text))

/-- The boot has come to a milestone. -/
def reach (milestone : Milestone) : SelectorProg Unit := onLog (AppLogger.emit (.reached milestone))

def logAll : List LogCall → SelectorProg Unit
  | [] => return ()
  | logCall :: rest => do
      let _ ← log logCall
      logAll rest

/-- A part of the boot that logs on its way. -/
def stage : SelectorProg ServiceAnswer := do
  let answer ← call
  logAll answer.logCalls
  return answer

/-- One call of a service, for its status. -/
def service : SelectorProg EfiStatus := do return (← call).status

end SelectorProg

end CsmVgaSelector
