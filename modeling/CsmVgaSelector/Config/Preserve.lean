import CsmVgaSelector.Config.ConfigFile

/-!
# Preserving failed configurations

Before setup starts afresh each file of the configuration is copied to the first free name with a number, and
when all have been copied they are deleted. The messages are left out.
-/

namespace CsmVgaSelector

namespace FileProg

/-- The first of so many numbers, from this one on, under which there is no file. -/
def freeNumber (name : ConfigName) : Nat → Nat → FileProg (Except EfiStatus Nat)
  | 0, _ => return .error .volumeFull
  | count + 1, number => do
      match ← adjacentFileExists (.invalid name number) with
      | .error status => return .error status
      | .ok true => freeNumber name count (number + 1)
      | .ok false => return .ok number

/-- The first loop's body: whether the file is present. -/
def preserveCopy (name : ConfigName) : FileProg (Except EfiStatus Bool) := do
  match ← adjacentFileExists name with
  | .error status => return .error status
  | .ok false => return .ok false
  | .ok true =>
      match ← freeNumber name 99 1 with
      | .error status => return .error status
      | .ok number => do
          let status ← createVerifiedRollbackCopy name (.invalid name number)
          return if status.isError then .error status else .ok true

/-- The files that are present, once all of them have been copied. -/
def preserveCopies : List ConfigName → FileProg (Except EfiStatus (List ConfigName))
  | [] => return .ok []
  | name :: names => do
      match ← preserveCopy name with
      | .error status => return .error status
      | .ok present =>
          match ← preserveCopies names with
          | .error status => return .error status
          | .ok others => return .ok (if present then name :: others else others)

def deletePreserved : List ConfigName → FileProg EfiStatus
  | [] => return .success
  | name :: names => do
      let status ← deleteAdjacentIfPresent name
      if status.isError then return status
      deletePreserved names

def preserveFailedConfigs : FileProg EfiStatus := do
  match ← preserveCopies configNames with
  | .error status => return status
  | .ok present => deletePreserved present

end FileProg

end CsmVgaSelector
