import CsmVgaSelector.Config.Candidate
import CsmVgaSelector.Log.Logger
import Mathlib.Algebra.Ring.Nat

/-!
# The choice of the targets

Setup shows a display and a disk, and takes keys until the pair is confirmed on the review screen or setup is
left. A review shows the settings that are retained, and asks for an acknowledgement where they are at odds with
the pair. Nothing is written before the pair is confirmed.

A screen is drawn anew after every key; waiting without a key draws nothing. What is printed beside the pair and
the conflict decides nothing, and is left out.
-/

namespace CsmVgaSelector

/-- `NCV_NO_SELECTION`. -/
def ncvNoSelection : Nat := 2 ^ 64 - 1

def scanUp : UInt16 := 0x01
def scanDown : UInt16 := 0x02
def scanRight : UInt16 := 0x03
def scanLeft : UInt16 := 0x04

/-- What waiting for a key and reading it answered. -/
structure KeyAnswer where
  waited : EfiStatus
  read : EfiStatus
  key : InputKey

inductive SelectionFocus where
  | display
  | storage
  deriving DecidableEq, Repr

def SelectionFocus.other : SelectionFocus → SelectionFocus
  | .display => .storage
  | .storage => .display

/-- The variables of the key loop. -/
structure SelectionState where
  focus : SelectionFocus
  gpu : Nat
  disk : Nat
  review : Bool
  confirmed : Bool
  deriving DecidableEq

def SelectionState.start (selectedDisplay selectedStorage : Nat) : SelectionState where
  focus := .display
  gpu := selectedDisplay
  disk := selectedStorage
  review := false
  confirmed := false

/-- What a screen shows. -/
structure SelectionScreen where
  review : Bool
  gpu : Nat
  disk : Nat
  conflict : Bool
  deriving DecidableEq

structure SelectionResult where
  status : EfiStatus
  displays : List NcvDisplayCandidate
  selectedDisplay : Nat
  storage : List NcvStorageCandidate
  selectedStorage : Nat

/-! ### The next candidate -/

/-- The steps from this index on, of which so many are left. -/
def nextFrom (eligible : List Bool) (backward : Bool) : Nat → Nat → Nat
  | 0, _ => ncvNoSelection
  | steps + 1, index =>
      let index :=
        if backward then (index + eligible.length - 1) % eligible.length else (index + 1) % eligible.length
      if eligible.getD index false then index else nextFrom eligible backward steps index

def nextCandidate (eligible : List Bool) (current : Nat) (backward : Bool) : Nat :=
  if eligible.length = 0 then ncvNoSelection
  else
    nextFrom eligible backward eligible.length
      (if current < eligible.length then current else if backward then 0 else eligible.length - 1)

def nextDisplay (items : List NcvDisplayCandidate) (current : Nat) (backward : Bool) : Nat :=
  nextCandidate (items.map (·.eligible)) current backward

def nextStorage (items : List NcvStorageCandidate) (current : Nat) (backward : Bool) : Nat :=
  nextCandidate (items.map (·.eligible)) current backward

/-! ### The retained settings -/

def diskMoved (settings : NcvConfigCore) (disk : NcvStorageCandidate) : Bool :=
  disk.address.segment != settings.targetControllerPci.segment ||
    disk.address.bus != settings.targetControllerPci.bus ||
    disk.address.device != settings.targetControllerPci.device ||
    disk.address.function != settings.targetControllerPci.function ||
    cString disk.description.array != settings.targetBbsDescription

/-- `ShowRetainedSettings`: whether they are at odds with the pair. -/
def showRetainedSettings (retained : Option NcvConfigCore) (gpu : Option NcvDisplayCandidate)
    (disk : Option NcvStorageCandidate) : Bool :=
  match retained with
  | none => false
  | some settings =>
      settings.hasExpectedVendor && gpu.any (·.vendor != settings.expectedVendor) ||
        settings.hasExpectedDevice && gpu.any (·.deviceId != settings.expectedDevice) ||
        settings.hasExpectedSubsystemVendor && gpu.any (·.subsystemVendor != settings.expectedSubsystemVendor) ||
        settings.hasExpectedSubsystemDevice && gpu.any (·.subsystemDevice != settings.expectedSubsystemDevice) ||
        settings.marker.enabled != 0 && disk.any (diskMoved settings)

/-! ### The keys -/

inductive KeyOutcome where
  | again (state : SelectionState)
  | cancelled
  | accepted

section

variable (displays : List NcvDisplayCandidate) (storage : List NcvStorageCandidate)
  (retained : Option NcvConfigCore)

def SelectionState.conflict (state : SelectionState) : Bool :=
  state.review && showRetainedSettings retained displays[state.gpu]? storage[state.disk]?

def SelectionState.ready (state : SelectionState) : Bool :=
  displays[state.gpu]?.any (·.eligible) && storage[state.disk]?.any (·.eligible)

def SelectionState.screen (state : SelectionState) : SelectionScreen where
  review := state.review
  gpu := state.gpu
  disk := state.disk
  conflict := state.conflict displays storage retained

def SelectionState.refocus (state : SelectionState) (key : InputKey) : SelectionState :=
  if key.scanCode = scanUp ∨ key.scanCode = scanDown ∨ key.unicodeChar = 0x09 then
    { state with focus := state.focus.other }
  else state

def SelectionState.change (state : SelectionState) (key : InputKey) : SelectionState :=
  if key.scanCode = scanLeft ∨ key.scanCode = scanRight then
    match state.focus with
    | .display => { state with gpu := nextDisplay displays state.gpu (key.scanCode == scanLeft) }
    | .storage => { state with disk := nextStorage storage state.disk (key.scanCode == scanLeft) }
  else state

def handleKey (state : SelectionState) (key : InputKey) : KeyOutcome :=
  if key.scanCode = scanEsc ∨ key.unicodeChar = 0x1B then
    if state.review then .again { state with review := false, confirmed := false } else .cancelled
  else if state.review ∧ (key.unicodeChar = 0x61 ∨ key.unicodeChar = 0x41) then
    .again { state with confirmed := true }
  else if key.unicodeChar = 0x0D then
    if !state.ready displays storage then .again state
    else if !state.review then .again { state with review := true }
    else if state.conflict displays storage retained && !state.confirmed then .again state
    else .accepted
  else if state.review then .again state
  else .again ((state.refocus key).change displays storage key)

/-- The candidates with the pair selected. -/
def acceptedResult (state : SelectionState) : SelectionResult where
  status := .success
  displays := displays.mapIdx fun index item => { item with selected := index == state.gpu }
  selectedDisplay := state.gpu
  storage := storage.mapIdx fun index item => { item with selected := index == state.disk }
  selectedStorage := state.disk

/-- The loop over these answers: every key with the screen it was pressed on, and the result once there is
one. -/
def takeKeys (unchanged : EfiStatus → SelectionResult) :
    SelectionState → List KeyAnswer → List (SelectionScreen × InputKey) × Option SelectionResult
  | _, [] => ([], none)
  | state, answer :: answers =>
      if answer.waited.isError then ([], some (unchanged answer.waited))
      else if answer.read = .notReady then takeKeys unchanged state answers
      else if answer.read.isError then ([], some (unchanged answer.read))
      else
        let shown := (state.screen displays storage retained, answer.key)
        match handleKey displays storage retained state answer.key with
        | .again state' =>
            let rest := takeKeys unchanged state' answers
            (shown :: rest.1, rest.2)
        | .cancelled => ([shown], some (unchanged .aborted))
        | .accepted => ([shown], some (acceptedResult displays storage state))

/-- `SelectBootTargets`, with or without a console that takes keys. -/
def selectBootTargets (selectedDisplay selectedStorage : Nat) (console : Bool) (answers : List KeyAnswer) :
    List (SelectionScreen × InputKey) × Option SelectionResult :=
  let unchanged (status : EfiStatus) : SelectionResult :=
    { status, displays, selectedDisplay, storage, selectedStorage }
  if displays.length > maxDisplayCandidates ∨ storage.length > maxStorageCandidates then
    ([], some (unchanged .invalidParameter))
  else if !console then ([], some (unchanged .unsupported))
  else takeKeys displays storage retained unchanged (.start selectedDisplay selectedStorage) answers

end

end CsmVgaSelector
