import CsmVgaSelector.Config.Candidate

/-!
# Rewriting the targets

The editor takes a configuration line by line. It has a scanner of its own: it looks for the headers
of two sections and for the three keys in them, whatever their case, and copies every line that it does
not recognise. A description that the text does not have is put at the end of its section.
-/

namespace CsmVgaSelector

/-- The value of `Section`. -/
inductive EditSection where
  | other
  | video
  | boot
  deriving DecidableEq, Repr

/-- The keys the editor replaces, each with its bit of `Seen`. -/
inductive TargetKey where
  | targetPci
  | targetControllerPci
  | targetBbsDescription
  deriving DecidableEq, Repr

namespace TargetKey

def text : TargetKey → Bytes
  | targetPci => ascii "TargetPci"
  | targetControllerPci => ascii "TargetControllerPci"
  | targetBbsDescription => ascii "TargetBbsDescription"

def editSection : TargetKey → EditSection
  | targetPci => .video
  | targetControllerPci => .boot
  | targetBbsDescription => .boot

def all : List TargetKey := [targetPci, targetControllerPci, targetBbsDescription]

end TargetKey

def equalIgnoringCase (text expected : Bytes) : Bool := text.map lowerCase == expected.map lowerCase

/-- The new values, the description already encoded. -/
structure EditTargets where
  gpu : Bytes
  controller : Bytes
  encodedDisk : Bytes
  deriving DecidableEq

def EditTargets.value (targets : EditTargets) : TargetKey → Bytes
  | .targetPci => targets.gpu
  | .targetControllerPci => targets.controller
  | .targetBbsDescription => targets.encodedDisk

structure EditState where
  output : Bytes
  editSection : EditSection
  seen : List TargetKey
  deriving DecidableEq

def isBlankEnd (character : UInt8) : Bool := character == carriageReturn || isSpace character

/-- What the editor looks at: from `Start` to `TrimmedEnd`. -/
def editView (line : Bytes) : Bytes :=
  ((line.takeWhile (· != lineFeed)).dropWhile isSpace).rdropWhile isBlankEnd

def isEditHeader (view : Bytes) : Bool :=
  view.head? == some (byte '[') && view.getLast? == some (byte ']')

/-- The section that a header names, without its brackets. -/
def editSectionOf (view : Bytes) : EditSection :=
  let name := (view.drop 1).dropLast
  if equalIgnoringCase name (ascii "Video") then .video
  else if equalIgnoringCase name (ascii "Boot") then .boot
  else .other

/-- The key of a line that is no comment and has an equals sign. -/
def editKey (view : Bytes) : Option Bytes :=
  if view = [] ∨ view.head? = some (byte '#') ∨ view.head? = some (byte ';') ∨
      byte '=' ∉ view then none
  else some ((view.takeWhile (· != byte '=')).rdropWhile isSpace)

/-- The target key that a line sets in its section. -/
def editTarget (current : EditSection) (view : Bytes) : Option TargetKey :=
  match editKey view with
  | none => none
  | some name =>
      TargetKey.all.find? fun key => key.editSection == current && equalIgnoringCase name key.text

/-- `AppendDescription`: on a line of its own. -/
def appendDescription (capacity : Nat) (encodedDisk output : Bytes) : Except NcvFailure Bytes :=
  let start :=
    if output ≠ [] ∧ output.getLast? ≠ some lineFeed then [carriageReturn, lineFeed] else []
  let key := ascii "TargetBbsDescription="
  if start.length + key.length + encodedDisk.length + 2 ≥ capacity - output.length then
    .error .capacity
  else .ok (output ++ start ++ key ++ encodedDisk ++ [carriageReturn, lineFeed])

/-- The description at the end of its section, if the section has none. -/
def endSection (capacity : Nat) (targets : EditTargets) (state : EditState) :
    Except NcvFailure EditState :=
  if state.editSection = .boot ∧ TargetKey.targetBbsDescription ∉ state.seen then do
    let output ← appendDescription capacity targets.encodedDisk state.output
    .ok { state with output := output, seen := .targetBbsDescription :: state.seen }
  else .ok state

def copyLine (capacity : Nat) (line : Bytes) (state : EditState) : Except NcvFailure EditState :=
  if line.length ≥ capacity - state.output.length then .error .capacity
  else .ok { state with output := state.output ++ line }

def replaceLine (capacity : Nat) (targets : EditTargets) (key : TargetKey) (state : EditState) :
    Except NcvFailure EditState :=
  if key ∈ state.seen then .error .invalid
  else if key.text.length + (targets.value key).length + 3 ≥ capacity - state.output.length then
    .error .capacity
  else
    .ok
      { state with
        output := state.output ++ key.text ++ [byte '='] ++ targets.value key ++
          [carriageReturn, lineFeed]
        seen := key :: state.seen }

/-- One line, with the line feed that ends it. -/
def editLine (capacity : Nat) (targets : EditTargets) (state : EditState) (line : Bytes) :
    Except NcvFailure EditState :=
  let view := editView line
  if isEditHeader view then do
    let state ← endSection capacity targets state
    copyLine capacity line { state with editSection := editSectionOf view }
  else
    match editTarget state.editSection view with
    | some key => replaceLine capacity targets key state
    | none => copyLine capacity line state

def editStart : EditState where
  output := []
  editSection := .other
  seen := []

/-- The new text. `Used` is zero in every failure. -/
def ncvEditTargets (input gpu controller disk : Bytes) (capacity : Nat) :
    Except NcvFailure Bytes :=
  if capacity = 0 then .error .capacity
  else
    match ncvEncodeDiskDescription disk encodedDescriptionBytes with
    | .error _ => .error .invalid
    | .ok encodedDisk => do
        let targets : EditTargets :=
          { gpu := gpu, controller := controller, encodedDisk := encodedDisk }
        let state ← (linesOf input).foldlM (editLine capacity targets) editStart
        let state ← endSection capacity targets state
        if TargetKey.all.all (· ∈ state.seen) then .ok state.output else .error .invalid

end CsmVgaSelector
