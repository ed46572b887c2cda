import CsmVgaSelector.Config.Candidate
import CsmVgaSelector.Config.Directory

/-!
# Verified operations on adjacent files

The names are constants of the program, so the checks that two of them differ are left to the callers' values,
and `AppFileValidateBaseName` accepts them. A close whose status the source ignores is still a call in which
the machine may stop.
-/

namespace CsmVgaSelector

namespace FileProg

def allocatePool : FileProg Bool := do return !(← attemptStatus).isError

/-- An empty file is not read. -/
def readContents (name : ConfigName) (size : Nat) : FileProg (EfiStatus × Bytes) :=
  if size = 0 then return (.success, []) else readFile name size

def readConfigBytesNamed (name : ConfigName) : FileProg (Except EfiStatus Bytes) := do
  let status ← openFile name
  if status.isError then return .error status
  let sizeStatus ← attemptStatus
  if sizeStatus.isError then
    let _ ← attempt
    return .error .compromisedData
  if !(← allocatePool) then
    let _ ← attempt
    return .error .outOfResources
  let (infoStatus, size) ← fileSize name
  if infoStatus.isError then
    let _ ← attempt
    return .error infoStatus
  if size > candidateIniBytes then
    let _ ← attempt
    return .error .badBufferSize
  if !(← allocatePool) then
    let _ ← attempt
    return .error .outOfResources
  let (readStatus, bytes) ← readContents name size
  let closeStatus ← attemptStatus
  if readStatus.isError then return .error readStatus
  if closeStatus.isError then return .error closeStatus
  if bytes.length ≠ size then return .error .compromisedData
  return .ok bytes

def adjacentFileExists (name : ConfigName) : FileProg (Except EfiStatus Bool) := do
  let status ← openFile name
  if status = .notFound then return .ok false
  if status.isError then return .error status
  let closeStatus ← attemptStatus
  return if closeStatus.isError then .error closeStatus else .ok true

def deleteAdjacentIfPresent (name : ConfigName) : FileProg EfiStatus := do
  let status ← openFile name
  if status = .notFound then return .success
  if status.isError then return status
  let deleteStatus ← deleteFile name
  if deleteStatus ≠ .success then
    return if deleteStatus.isError then deleteStatus else .deviceError
  match ← adjacentFileExists name with
  | .error status => return status
  | .ok present => return if present then .deviceError else .success

def writeAll (name : ConfigName) (text : Bytes) : FileProg EfiStatus := do
  if text = [] then return .invalidParameter
  let (status, taken) ← writeFile name text
  if status.isError then return status
  if taken ≠ text.length then return .deviceError
  attemptStatus

def verifyOpenFileBytes (name : ConfigName) (expected : Bytes) : FileProg EfiStatus := do
  if expected = [] then return .invalidParameter
  if !(← allocatePool) then return .outOfResources
  let status ← attemptStatus
  if status.isError then return status
  let (readStatus, bytes) ← readFile name expected.length
  if readStatus.isError then return readStatus
  return if bytes = expected then .success else .compromisedData

/-- The status, and the name of the open file now. -/
def renameOpenAdjacent (name newName : ConfigName) : FileProg (EfiStatus × ConfigName) := do
  if (← attemptStatus).isError then return (.compromisedData, name)
  if !(← allocatePool) then return (.outOfResources, name)
  let status ← attemptStatus
  if status.isError then return (status, name)
  if !(← allocatePool) then return (.outOfResources, name)
  let (setStatus, newest) ← renameFile name newName
  if setStatus.isError then return (setStatus, newest)
  return (← attemptStatus, newest)

/-- What a failure becomes after its clean-up. -/
def afterCleanup (cleanup status : EfiStatus) : EfiStatus := if cleanup.isError then cleanup else status

/-- A new file is written, flushed and read back; an empty one is only flushed. -/
def writeVerified (name : ConfigName) (text : Bytes) : FileProg EfiStatus :=
  if text = [] then attemptStatus
  else do
    let status ← writeAll name text
    if status.isError then return status
    verifyOpenFileBytes name text

/-- The file is read again by its name. -/
def readBackEquals (name : ConfigName) (text : Bytes) : FileProg EfiStatus := do
  match ← readConfigBytesNamed name with
  | .error status => return status
  | .ok bytes => return if bytes = text then .success else .compromisedData

def createVerifiedRollbackCopy (target rollback : ConfigName) : FileProg EfiStatus := do
  match ← adjacentFileExists rollback with
  | .error status => return status
  | .ok true => return .accessDenied
  | .ok false =>
      match ← readConfigBytesNamed target with
      | .error status => return status
      | .ok original => do
          let created ← createFile rollback
          if created.isError then return created
          let status ← writeVerified rollback original
          if status.isError then return afterCleanup (← deleteFile rollback) status
          let closeStatus ← attemptStatus
          if closeStatus.isError then return closeStatus
          let readStatus ← readBackEquals rollback original
          if readStatus.isError then
            return afterCleanup (← deleteAdjacentIfPresent rollback) readStatus
          return .success

def restoreAdjacentRollback (target rollback : ConfigName) : FileProg EfiStatus := do
  match ← readConfigBytesNamed rollback with
  | .error status => return status
  | .ok original => do
      let deleted ← deleteAdjacentIfPresent target
      if deleted.isError then return deleted
      let created ← createFile target
      if created.isError then return created
      let status ← writeVerified target original
      if status.isError then
        let _ ← attempt
        return status
      let closeStatus ← attemptStatus
      if closeStatus.isError then return closeStatus
      readBackEquals target original

end FileProg

end CsmVgaSelector
