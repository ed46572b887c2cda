import CsmVgaSelector.Config.ConfigFile

/-!
# Recovery of the configuration

A file is usable when it parses and has what its mode needs. Where `Config.ini` is not, the first usable copy is
offered, and restored if the user agrees. The messages are left out. A loop that looks at the keyboard is cut
after `patience` looks.
-/

namespace CsmVgaSelector

def usable (bytes : Bytes) : Bool :=
  match ncvParseConfigStrict bytes ncvConfigDefaults with
  | .ok core => bytes ≠ [] && core.hasProbe && (ncvValidateConfigMode core).1 == .success
  | .error _ => false

namespace FileProg

def configReadUsable (name : ConfigName) : FileProg (Except EfiStatus Bytes) := do
  match ← readConfigBytesNamed name with
  | .error status => return .error status
  | .ok bytes => return if usable bytes then .ok bytes else .error .compromisedData

def readKey : Nat → FileProg (Except EfiStatus InputKey)
  | 0 => Halting.halt
  | patience + 1 => do
      let waited ← attemptStatus
      if waited.isError then return .error waited
      let answer ← attempt
      if answer.status = .notReady then readKey patience
      else if answer.status.isError then return .error answer.status
      else return .ok answer.key

/-- `SCAN_ESC`, or its character. -/
def isEscape (key : InputKey) : Bool := key.scanCode == 0x17 || key.unicodeChar == 0x1B

def isRecover (key : InputKey) : Bool := key.unicodeChar == 0x72 || key.unicodeChar == 0x52

/-- Nothing where the user agrees, otherwise the status to return. -/
def awaitRecovery : Nat → FileProg (Option EfiStatus)
  | 0 => Halting.halt
  | patience + 1 => do
      match ← readKey (patience + 1) with
      | .error status => return some status
      | .ok key =>
          if isEscape key then return some .aborted
          else if isRecover key then return none
          else awaitRecovery patience

def recover (patience : Nat) (name : ConfigName) : FileProg (Except EfiStatus Bytes) := do
  match ← awaitRecovery patience with
  | some status => return .error status
  | none => do
      let restored ← restoreAdjacentRollback .config name
      if restored.isError then return .error restored
      configReadUsable .config

/-- The loop over the copies. An invalid copy must not become a first run. -/
def recoverFrom (patience : Nat) : List ConfigName → EfiStatus → FileProg (Except EfiStatus Bytes)
  | [], status => return .error status
  | name :: names, status => do
      match ← configReadUsable name with
      | .ok bytes => do
          emit (.offered bytes)
          recover patience name
      | .error backupStatus =>
          recoverFrom patience names
            (if backupStatus ≠ .notFound ∧ status = .notFound then .compromisedData else status)

def findConfig (patience : Nat) : FileProg (Except EfiStatus Bytes) := do
  match ← configReadUsable .config with
  | .ok bytes => return .ok bytes
  | .error status => recoverFrom patience [.previous, .temp] status

/-- `ConfigLoadRecoverable`: what it returns is loaded. -/
def configLoadRecoverable (patience : Nat) : FileProg (Except EfiStatus Bytes) := do
  match ← findConfig patience with
  | .ok bytes => do
      emit (.loaded bytes)
      return .ok bytes
  | .error status => return .error status

end FileProg

end CsmVgaSelector
