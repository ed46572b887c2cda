import CsmVgaSelector.Config.Edit

/-!
# The editor and its output buffer

The editor writes into the caller's buffer as it goes, so a run that fails has written something too. Here
every store into `Output` is kept with its index, beside `Written` and `*Used`; a failure ends the run where
it happens and leaves all of it as it is.
-/

namespace CsmVgaSelector

structure EditBuffer where
  /-- The stores into `Output`, in order. -/
  stores : List (Nat × UInt8)
  written : Nat
  used : Nat
  editSection : EditSection
  seen : List TargetKey

abbrev Editing := ExceptT NcvFailure (StateM EditBuffer)

/-- The byte that `Output` holds at an index. -/
def EditBuffer.outputAt (buffer : EditBuffer) (index : Nat) : Option UInt8 :=
  (buffer.stores.findRev? (·.1 == index)).map (·.2)

/-- One store at `Written`. -/
def storeByte (character : UInt8) : Editing Unit :=
  modify fun buffer =>
    { buffer with
      stores := buffer.stores ++ [(buffer.written, character)]
      written := buffer.written + 1 }

def copyBytes : Bytes → Editing Unit
  | [] => return ()
  | character :: rest => do
      storeByte character
      copyBytes rest

/-- `AppendDescription`. -/
def appendDescriptionInto (capacity : Nat) (description : Bytes) : Editing Unit := do
  let buffer ← get
  let start :=
    if buffer.written ≠ 0 ∧ buffer.outputAt (buffer.written - 1) ≠ some lineFeed then
      [carriageReturn, lineFeed]
    else []
  let key := ascii "TargetBbsDescription="
  if start.length + key.length + description.length + 2 ≥ capacity - buffer.written then
    throw .capacity
  else
    copyBytes start
    copyBytes key
    copyBytes description
    copyBytes [carriageReturn, lineFeed]

def endSectionInto (capacity : Nat) (targets : EditTargets) : Editing Unit := do
  let buffer ← get
  if buffer.editSection = .boot ∧ TargetKey.targetBbsDescription ∉ buffer.seen then
    appendDescriptionInto capacity targets.encodedDisk
    modify fun buffer => { buffer with seen := .targetBbsDescription :: buffer.seen }
  else return ()

def copyLineInto (capacity : Nat) (line : Bytes) : Editing Unit := do
  let buffer ← get
  if line.length ≥ capacity - buffer.written then throw .capacity
  else copyBytes line

def replaceLineInto (capacity : Nat) (targets : EditTargets) (key : TargetKey) : Editing Unit := do
  let buffer ← get
  if key ∈ buffer.seen then throw .invalid
  else
    set { buffer with seen := key :: buffer.seen }
    if key.text.length + (targets.value key).length + 3 ≥ capacity - buffer.written then throw .capacity
    else
      copyBytes key.text
      storeByte (byte '=')
      copyBytes (targets.value key)
      copyBytes [carriageReturn, lineFeed]

def editLineInto (capacity : Nat) (targets : EditTargets) (line : Bytes) : Editing Unit := do
  let view := editView line
  if isEditHeader view then
    endSectionInto capacity targets
    modify fun buffer => { buffer with editSection := editSectionOf view }
    copyLineInto capacity line
  else
    match editTarget (← get).editSection view with
    | some key => replaceLineInto capacity targets key
    | none => copyLineInto capacity line

def editLinesInto (capacity : Nat) (targets : EditTargets) : List Bytes → Editing Unit
  | [] => return ()
  | line :: lines => do
      editLineInto capacity targets line
      editLinesInto capacity targets lines

/-- `NcvEditTargets`, store by store. -/
def ncvEditTargetsInto (input gpu controller disk : Bytes) (capacity : Nat) : Editing Unit := do
  modify fun buffer => { buffer with used := 0 }
  if capacity = 0 then throw .capacity
  else
    match ncvEncodeDiskDescription disk encodedDescriptionBytes with
    | .error _ => throw .invalid
    | .ok encodedDisk =>
        let targets : EditTargets :=
          { gpu := gpu, controller := controller, encodedDisk := encodedDisk }
        editLinesInto capacity targets (linesOf input)
        endSectionInto capacity targets
        let buffer ← get
        if TargetKey.all.all (· ∈ buffer.seen) then
          set { buffer with stores := buffer.stores ++ [(buffer.written, 0)], used := buffer.written }
        else throw .invalid

/-- The buffer as the caller gives it, with what `*Used` holds. -/
def callerBuffer (used : Nat) : EditBuffer where
  stores := []
  written := 0
  used := used
  editSection := .other
  seen := []

/-- The status of the call, and what it leaves. -/
def runEdit (input gpu controller disk : Bytes) (capacity used : Nat) :
    Except NcvFailure Unit × EditBuffer :=
  (ncvEditTargetsInto input gpu controller disk capacity).run.run (callerBuffer used)

end CsmVgaSelector
