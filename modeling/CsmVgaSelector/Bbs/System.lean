import CsmVgaSelector.Bbs.Discover
import Mathlib.Logic.Relation

/-!
# Runs of the boot target

The exported calls, made in any order and answered in any way. Nobody but these calls writes the live
table, so a run is a chain of calls and their answers.
-/

namespace CsmVgaSelector

/-- The calls that move a discovered target through its transaction. -/
inductive TransactionCall where
  | prepare
  | journalAndValidate
  | apply
  | rollback
  | release
  deriving DecidableEq, Repr

def TransactionCall.exec : TransactionCall → Boot EfiStatus
  | prepare => legacyBootBootTargetPrepare
  | journalAndValidate => legacyBootBootTargetJournalAndValidate
  | apply => legacyBootBootPriorityApply
  | rollback => legacyBootBootPriorityRollback
  | release => legacyBootBootTargetRelease

/-- Every exported call. -/
inductive BootTargetCall where
  | discover (request : DiscoverRequest)
  | validateOwnedCopies
  | validateOriginal
  | validateApplied
  | getLegacyBootArguments
  | getOwnedCopyInfo
  | transaction (call : TransactionCall)
  deriving DecidableEq, Repr

/-- The status of a call that also returns a value. -/
def statusOf {α : Type} (q : BootQuery (Except EfiStatus α)) : BootQuery EfiStatus := do
  match ← q with
  | .error status => return status
  | .ok _ => return .success

def BootTargetCall.exec : BootTargetCall → Boot EfiStatus
  | discover request => legacyBootBootTargetDiscover request
  | validateOwnedCopies => legacyBootBootTargetValidateOwnedCopies
  | validateOriginal => legacyBootBootTargetValidateOriginal
  | validateApplied => legacyBootBootTargetValidateApplied
  | getLegacyBootArguments => statusOf legacyBootBootTargetGetLegacyBootArguments
  | getOwnedCopyInfo => statusOf legacyBootBootTargetGetOwnedCopyInfo
  | transaction call => call.exec

/-- One call of the transaction, with one stream of answers. -/
def TransactionStep (s s' : BootState) : Prop :=
  ∃ (call : TransactionCall) (answers : Nat → FirmwareAnswer), s' = (call.exec.run answers s).2

/-- One exported call, with one stream of answers. -/
def BootTargetStep (s s' : BootState) : Prop :=
  ∃ (call : BootTargetCall) (answers : Nat → FirmwareAnswer), s' = (call.exec.run answers s).2

/-- A chain of calls of the transaction. -/
abbrev TransactionRun : BootState → BootState → Prop := Relation.ReflTransGen TransactionStep

end CsmVgaSelector
