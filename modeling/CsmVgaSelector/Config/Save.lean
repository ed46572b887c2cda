import CsmVgaSelector.Config.Edit
import CsmVgaSelector.Config.Recovery
import CsmVgaSelector.Selector.UefiMain

/-!
# Saving the configuration

A configuration is written to a temporary file first, which takes the name of the old one when the old one has
been copied. The messages are left out, as are the marker's static variables, which no file depends on.
-/

namespace CsmVgaSelector

/-- What setup has selected, where both are selected. -/
abbrev Selection := NcvDisplayCandidate × NcvStorageCandidate

/-- `VerifyGeneratedBytes`, complete where there is a selection. -/
def verifyGeneratedBytes (bytes : Bytes) (selection : Option Selection) : EfiStatus :=
  if bytes = [] then .invalidParameter
  else
    match ncvParseConfigStrict bytes ncvConfigDefaults with
    | .error result => coreStatusToEfi result
    | .ok core =>
        match selection with
        | some (display, item) =>
            if ncvBootRequirementsValidate (ncvConfigCoreGetBootRequirements core) ≠ 0 ∨
                !core.hasTargetBbsDescription ∨ core.targetPci ≠ display.address ∨
                core.targetControllerPci ≠ item.address ∨
                cString core.targetBbsDescription ≠ cString item.description.array then
              .compromisedData
            else .success
        | none =>
            if core.hasTargetPci || core.hasTargetControllerPci || core.hasTargetBbsDescription then
              .compromisedData
            else .success

def editSelection (source : Bytes) (selection : Selection) : Except NcvFailure Bytes :=
  ncvEditTargets source (bdfText selection.1.address) (bdfText selection.2.address)
    selection.2.description.array candidateIniBytes

namespace FileProg

/-! ### `WriteAdjacentViaTemp` -/

/-- No file has the name of the rollback copy. -/
def rollbackIsFree : Option ConfigName → FileProg EfiStatus
  | none => return .success
  | some rollback => do
      match ← adjacentFileExists rollback with
      | .error status => return status
      | .ok present => return if present then .accessDenied else .success

def writeTemp (tempName : ConfigName) (text : Bytes) : FileProg EfiStatus := do
  let deleted ← deleteAdjacentIfPresent tempName
  if deleted.isError then return deleted
  let created ← createFile tempName
  if created.isError then return created
  let status ← writeVerified tempName text
  if status.isError then return afterCleanup (← deleteFile tempName) status
  return .success

/-- The target is copied and deleted, or seen to be absent: the status, and whether there is a copy. -/
def makeRoom (target tempName : ConfigName) (rollback : Option ConfigName) (existed : Bool) :
    FileProg (EfiStatus × Bool) :=
  match rollback with
  | none => do
      match ← adjacentFileExists target with
      | .error status => do
          let _ ← deleteFile tempName
          return (status, false)
      | .ok true => do
          let cleanup ← deleteFile tempName
          return (if cleanup = .success then .accessDenied else afterCleanup cleanup .deviceError, false)
      | .ok false => return (.success, false)
  | some name =>
      if existed then do
        let status ← createVerifiedRollbackCopy target name
        if status.isError then return (afterCleanup (← deleteFile tempName) status, false)
        let deleted ← deleteAdjacentIfPresent target
        if deleted.isError then
          let _ ← deleteFile tempName
          return (deleted, true)
        return (.success, true)
      else return (.success, false)

/-- The temporary file takes the name of the target. -/
def renameTemp (target tempName : ConfigName) : FileProg EfiStatus := do
  let (status, name) ← renameOpenAdjacent tempName target
  if status.isError then return afterCleanup (← deleteFile name) status
  let closeStatus ← attemptStatus
  if closeStatus.isError then return closeStatus
  match ← adjacentFileExists target with
  | .error status => return status
  | .ok present => return if present then .success else .deviceError

/-- The status, and `*RollbackPreserved`. The target must not exist where there is no name for a rollback. -/
def writeAdjacentViaTemp (target tempName : ConfigName) (rollback : Option ConfigName) (text : Bytes) :
    FileProg (EfiStatus × Bool) := do
  if text = [] then return (.invalidParameter, false)
  match ← adjacentFileExists target with
  | .error status => return (status, false)
  | .ok existed => do
      if rollback = none ∧ existed then return (.accessDenied, false)
      let free ← rollbackIsFree rollback
      if free.isError then return (free, false)
      let written ← writeTemp tempName text
      if written.isError then return (written, false)
      let (status, preserved) ← makeRoom target tempName rollback existed
      if status.isError then return (status, preserved)
      return (← renameTemp target tempName, preserved)

/-! ### The two callers -/

def saveEditedTargets (selection : Selection) : FileProg EfiStatus := do
  match ← configReadUsable .config with
  | .error status => return status
  | .ok original => do
      if !(← allocatePool) then return .outOfResources
      match editSelection original selection with
      | .error .capacity => return .badBufferSize
      | .error .invalid => return .compromisedData
      | .ok text => do
          emit (.formed text)
          let verified := verifyGeneratedBytes text (some selection)
          if verified.isError then return verified
          let deleted ← deleteAdjacentIfPresent .previous
          if deleted.isError then return deleted
          let (status, _) ← writeAdjacentViaTemp .config .temp (some .previous) text
          if status.isError then return status
          match ← configReadUsable .config with
          | .error status => return status
          | .ok readback => return if readback = text then .success else .compromisedData

/-- `ProbeConfigLoad`, for what the boot requires. -/
def probeConfigLoad (patience : Nat) : FileProg (Except EfiStatus NcvConfigCore) := do
  match ← configLoadRecoverable patience with
  | .error status =>
      return if status = .notFound then (probeConfigImportCore ncvConfigDefaults).map (·.core)
        else .error status
  | .ok bytes => return (importParsed bytes).map (·.1.config.core)

/-- Whether what has been loaded can boot. -/
def bootable : Except EfiStatus NcvConfigCore → EfiStatus
  | .error status => status
  | .ok core =>
      if ncvBootRequirementsValidate (ncvConfigCoreGetBootRequirements core) ≠ 0 ∨
          !core.hasTargetBbsDescription then
        .compromisedData
      else .success

/-- The new configuration is loaded, and copied for recovery. -/
def reloadActive (patience : Nat) : FileProg EfiStatus := do
  let loaded ← probeConfigLoad patience
  if (bootable loaded).isError then
    return afterCleanup (← deleteAdjacentIfPresent .config) (bootable loaded)
  else createVerifiedRollbackCopy .config .previous

def restoreAndForget (target rollback : ConfigName) : FileProg EfiStatus := do
  let restored ← restoreAdjacentRollback target rollback
  if restored.isError then return restored
  deleteAdjacentIfPresent rollback

/-- The copy that was made of the target, if one was. -/
def keptCopy (rollback : Option ConfigName) (preserved : Bool) : Option ConfigName :=
  if preserved then rollback else none

/-- What has been published is read back. -/
def checkPublished (target : ConfigName) (text : Bytes) (selection : Option Selection) :
    FileProg EfiStatus := do
  match ← readConfigBytesNamed target with
  | .error status => return status
  | .ok readback =>
      return if readback = text then verifyGeneratedBytes readback selection else .compromisedData

def publish (patience : Nat) (target tempName : ConfigName) (rollback : Option ConfigName) (text : Bytes)
    (selection : Option Selection) : FileProg EfiStatus := do
  let (status, preserved) ← writeAdjacentViaTemp target tempName rollback text
  if status.isError then
    match keptCopy rollback preserved with
    | none => return status
    | some copy => return afterCleanup (← restoreAndForget target copy) status
  let checked ← checkPublished target text selection
  if checked.isError then
    match keptCopy rollback preserved with
    | none => return afterCleanup (← deleteAdjacentIfPresent target) checked
    | some copy => return afterCleanup (← restoreAndForget target copy) checked
  emit (.published target text)
  match keptCopy rollback preserved with
  | none => if rollback = none then reloadActive patience else return .success
  | some copy => do
      let deleted ← deleteAdjacentIfPresent copy
      if deleted.isError then return deleted
      if rollback = none then reloadActive patience else return .success

/-- What setup hands over: the candidates, and the selected ones by their places. -/
structure Candidates where
  displays : List NcvDisplayCandidate
  selectedDisplay : Option Nat
  storage : List NcvStorageCandidate
  selectedStorage : Option Nat

namespace Candidates

def selection (candidates : Candidates) : Option Selection := do
  let display ← candidates.displays[← candidates.selectedDisplay]?
  let item ← candidates.storage[← candidates.selectedStorage]?
  return (display, item)

def inRange (candidates : Candidates) : Bool :=
  decide (candidates.displays.length ≤ maxDisplayCandidates) &&
    decide (candidates.storage.length ≤ maxStorageCandidates) &&
    candidates.selectedDisplay.all (· < candidates.displays.length) &&
    candidates.selectedStorage.all (· < candidates.storage.length)

def format (candidates : Candidates) : Except NcvFailure Bytes :=
  ncvFormatCandidateIni candidates.displays candidates.selectedDisplay candidates.storage
    candidates.selectedStorage candidateIniBytes

end Candidates

/-- A first run with a selection writes `Config.ini`, every other run `Probe.ini`. -/
def publishCandidates (patience : Nat) (firstRun : Bool) (candidates : Candidates) : FileProg EfiStatus := do
  if !(← allocatePool) then return .outOfResources
  match candidates.format with
  | .error _ => return .badBufferSize
  | .ok text => do
      emit (.formed text)
      let verified := verifyGeneratedBytes text candidates.selection
      if verified.isError then return verified
      if firstRun && candidates.selection.isSome then
        publish patience .config .temp none text candidates.selection
      else publish patience .probe .probeTemp (some .probePrevious) text candidates.selection

def probeConfigWriteCandidateIni (patience : Nat) (editing firstRun : Bool) (candidates : Candidates) :
    FileProg EfiStatus :=
  if !candidates.inRange then return .invalidParameter
  else if editing then
    match candidates.selection with
    | none => return .notFound
    | some selection => saveEditedTargets selection
  else publishCandidates patience firstRun candidates

end FileProg

end CsmVgaSelector
