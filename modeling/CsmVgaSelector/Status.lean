import Mathlib.Tactic.Common

/-!
# EFI status codes

The codes this program returns or compares against by name, and every other code a firmware call may
answer with. `EFI_ERROR` is the top bit of the word, which only success and the warnings have clear.
-/

namespace CsmVgaSelector

inductive EfiStatus where
  | success
  | warning (code : Nat)
  | invalidParameter
  | unsupported
  | badBufferSize
  | bufferTooSmall
  | notReady
  | deviceError
  | outOfResources
  | volumeFull
  | notFound
  | noMapping
  | accessDenied
  | alreadyStarted
  | aborted
  | securityViolation
  | crcError
  | compromisedData
  | otherError (code : Nat)
  deriving DecidableEq, Repr

namespace EfiStatus

def isError : EfiStatus → Bool
  | success => false
  | warning _ => false
  | _ => true

@[simp] theorem isError_success : isError success = false := rfl

theorem ne_success_of_isError {status : EfiStatus} (h : status.isError = true) :
    status ≠ success := by
  rintro rfl
  simp at h

end EfiStatus

end CsmVgaSelector
