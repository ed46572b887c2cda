import CsmVgaSelector.Config.Text
import CsmVgaSelector.Lib.Halting
import CsmVgaSelector.Log.Logger

/-!
# The directory of the application

A directory maps names to bytes. A call on it may fail, and the machine may stop in it; what the call was to do
has then been done or not, and of a write any part from the beginning. No failure says of a file that is there
that it is not found. An open file is known by its name, since every transfer is the first on its handle or
follows `SetPosition` to 0.
-/

namespace CsmVgaSelector

inductive ConfigName where
  | config
  | previous
  | temp
  | probe
  | probePrevious
  | probeTemp
  /-- `.invalid-NN` behind the name. -/
  | invalid (name : ConfigName) (number : Nat)
  deriving DecidableEq

def configNames : List ConfigName := [.config, .previous, .temp]

abbrev Directory := ConfigName → Option Bytes

structure FileFault where
  status : EfiStatus
  isError : status.isError = true
  present : status ≠ .notFound

structure FileAnswer where
  stop : Bool := false
  fault : Option FileFault := none
  /-- The call is carried out although it fails or the machine stops. -/
  reached : Bool := false
  /-- A deletion deletes nothing and ends with a warning. -/
  warns : Bool := false
  /-- Where a transfer ends early. -/
  transfer : Option Nat := none
  key : InputKey := ⟨0, 0⟩

namespace FileAnswer

def status (answer : FileAnswer) : EfiStatus :=
  match answer.fault with
  | some fault => fault.status
  | none => .success

def carried (answer : FileAnswer) : Bool := answer.reached || (!answer.stop && answer.fault.isNone)

def deleted (answer : FileAnswer) : Bool :=
  answer.reached || (!answer.stop && answer.fault.isNone && !answer.warns)

/-- `EFI_WARN_DELETE_FAILURE` where the deletion warns. -/
def deletionStatus (answer : FileAnswer) : EfiStatus :=
  if answer.fault.isNone && answer.warns then .warning 2 else answer.status

def moved (answer : FileAnswer) (size : Nat) : Nat := min (answer.transfer.getD size) size

end FileAnswer

inductive FileEvent where
  /-- A configuration has been formatted or edited in full. -/
  | formed (text : Bytes)
  /-- This much of the data has been written. -/
  | wrote (name : ConfigName) (data : Bytes) (taken : Nat)
  /-- A validated copy has been offered for recovery. -/
  | offered (text : Bytes)
  | loaded (text : Bytes)
  /-- What has been published under this name has been verified. -/
  | published (name : ConfigName) (text : Bytes)
  deriving DecidableEq

structure FileState where
  directory : Directory
  trace : List FileEvent := []

abbrev FileProg (α : Type) := Halting FileAnswer FileState α

namespace FileProg

def emit (event : FileEvent) : FileProg Unit :=
  Halting.update fun state => { state with trace := state.trace ++ [event] }

/-- A call with its effect where it is carried out. -/
def perform (carried : FileAnswer → Bool) (effect : FileAnswer → FileState → FileState) :
    FileProg FileAnswer := do
  let answer ← Halting.call
  Halting.update fun state => if carried answer then effect answer state else state
  if answer.stop then Halting.halt else return answer

/-- A call that leaves the directory alone. -/
def attempt : FileProg FileAnswer := perform (fun _ => false) fun _ => id

def attemptStatus : FileProg EfiStatus := do return (← attempt).status

def contents (name : ConfigName) : FileProg (Option Bytes) := do
  return (← Halting.getState).directory name

/-! ### Calls on files -/

/-- `Open` for an existing file. -/
def openFile (name : ConfigName) : FileProg EfiStatus := do
  let answer ← attempt
  let present ← contents name
  return if answer.status.isError then answer.status else if present.isSome then .success else .notFound

/-- `Open` with `EFI_FILE_MODE_CREATE`. -/
def createFile (name : ConfigName) : FileProg EfiStatus := do
  let answer ← perform FileAnswer.carried fun _ state =>
    { state with
      directory := Function.update state.directory name (some ((state.directory name).getD [])) }
  return answer.status

def deleteFile (name : ConfigName) : FileProg EfiStatus := do
  let answer ← perform FileAnswer.deleted fun _ state =>
    { state with directory := Function.update state.directory name none }
  return answer.deletionStatus

/-- The status, and how much was written over the beginning of the file. -/
def writeFile (name : ConfigName) (data : Bytes) : FileProg (EfiStatus × Nat) := do
  let answer ← perform (fun _ => true) fun answer state =>
    { directory := Function.update state.directory name
        (some (data.take (answer.moved data.length) ++
          ((state.directory name).getD []).drop (answer.moved data.length)))
      trace := state.trace ++ [.wrote name data (answer.moved data.length)] }
  return (answer.status, answer.moved data.length)

def readFile (name : ConfigName) (size : Nat) : FileProg (EfiStatus × Bytes) := do
  let answer ← attempt
  let present ← contents name
  return (answer.status, (present.getD []).take (answer.moved size))

/-- `GetInfo`, for the size of the file. -/
def fileSize (name : ConfigName) : FileProg (EfiStatus × Nat) := do
  let answer ← attempt
  let present ← contents name
  return (answer.status, (present.getD []).length)

/-- `SetInfo` with a new name, which no file may have: the status, and the name of the file now. -/
def renameFile (name newName : ConfigName) : FileProg (EfiStatus × ConfigName) := do
  let present ← contents newName
  if present.isSome then
    let answer ← attempt
    return (if answer.status.isError then answer.status else .accessDenied, name)
  else
    let answer ← perform FileAnswer.carried fun _ state =>
      { state with
        directory := Function.update (Function.update state.directory newName (state.directory name))
          name none }
    return (answer.status, if answer.carried then newName else name)

end FileProg

end CsmVgaSelector
