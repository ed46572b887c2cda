import CsmVgaSelector.Bbs.Context

/-!
# Which rows the transaction may touch

A row is eligible when firmware marks it bootable: a priority outside the three reserved values, and
status flags that say enabled, not failed, and media present or possible. Two rules stand beside that.
The selected disk needs only to be a hard disk whose handler is corroborated, because the user chose
it; and a row whose flags are all zero, or that the LegacyDevOrder variable disables, is preserved.
-/

namespace CsmVgaSelector

def legacyBootBbsPriorityIsValid (priority : UInt16) : Bool :=
  !(priority == bbsIgnoreEntry || priority == bbsDoNotBootFrom || priority == bbsLowestPriority)

variable (rom : RomEvidence)

def legacyBootBbsEntryIsTransactionEligible (entry : BbsTable) : Bool :=
  legacyBootBbsPriorityIsValid entry.bootPriority &&
    (entry.statusFlags == 0 && (rom.storageRomMatch entry || rom.firmwareDiskMatch entry) ||
      -- Enabled, not failed, and media present or possible.
      entry.statusFlags &&& 0x100 != 0 && entry.statusFlags &&& 0x200 == 0 &&
        ((entry.statusFlags >>> 10) &&& 3 == 1 || (entry.statusFlags >>> 10) &&& 3 == 2))

def legacyBootSelectedDiskCanAttempt (entry : BbsTable) : Bool :=
  entry.deviceType == bbsHardDisk &&
    (entry.statusFlags != 0 || rom.storageRomMatch entry || rom.firmwareDiskMatch entry)

def legacyBootBbsIndexIsTransactionEligible (context : BootTargetContext) (index : Nat) : Bool :=
  match context.bbsJournal with
  | none => false
  | some journal =>
      if index ≥ context.bbsCount then false
      else if index = context.liveBbsIndex then legacyBootSelectedDiskCanAttempt rom journal[index]!
      else if !legacyBootBbsEntryIsTransactionEligible rom journal[index]! then false
      else if journal[index]!.statusFlags == 0 then false
      else
        !context.legacyDevOrderUsable ||
          match context.legacyDevOrderDisabled with
          | none => false
          | some disabled => !disabled[index]!

end CsmVgaSelector
