import CsmVgaSelector.Bbs.BootOption
import CsmVgaSelector.Bbs.DevOrder

/-!
# The LegacyDevOrder variable as it is read

The capture goes over the variable with an offset, and reads each word of it where it stands. Every message
is taken to be logged here, so a value is either refused or scanned to its end.
-/

namespace CsmVgaSelector

open Peek

/-- One index word: the row it names gets the next rank, unless the word is refused. -/
def nameRow (journal : List BbsTable) (bbsType : UInt8) (encodedIndex : UInt16) (scan : DevOrderScan) :
    Option DevOrderScan :=
  let liveIndex := (encodedIndex &&& 0xFF).toNat
  let highByte := encodedIndex &&& 0xFF00
  if highByte ≠ 0 ∧ highByte ≠ 0xFF00 then none
  else if liveIndex ≥ journal.length ∨ scan.seenIndex[liveIndex]! then none
  else if journal[liveIndex]!.deviceType ≠ bbsType.toUInt16 ∨
      !legacyBootBbsPriorityIsValid journal[liveIndex]!.bootPriority then none
  else
    some
      { scan with
        seenIndex := scan.seenIndex.set liveIndex true
        ranks := scan.ranks.set liveIndex scan.globalRank
        disabled := scan.disabled.set liveIndex (highByte == 0xFF00)
        globalRank := scan.globalRank + 1 }

/-- So many index words from this offset on. -/
def peekDevOrderData (journal : List BbsTable) (bbsType : UInt8) (offset : Nat) :
    Nat → DevOrderScan → OptionRead (Option DevOrderScan)
  | 0, scan => return some scan
  | dataCount + 1, scan => do
      let encodedIndex ← peekWord offset
      match nameRow journal bbsType encodedIndex scan with
      | none => return none
      | some scan => peekDevOrderData journal bbsType (offset + 2) dataCount scan

/-- The entries from this offset on. -/
def peekDevOrder (journal : List BbsTable) (variableSize offset : Nat) (scan : DevOrderScan) :
    OptionRead (Option DevOrderScan) :=
  if offset < variableSize then
    if variableSize - offset < 3 then return none
    else do
      let bbsType ← peek offset
      let length ← peekWord (offset + 1)
      if length.toNat < 2 ∨ length.toNat % 2 ≠ 0 ∨ length.toNat > variableSize - offset - 1 then
        return none
      else if bbsType ∈ scan.seenType then return none
      else
        match ← peekDevOrderData journal bbsType (offset + 3) ((length.toNat - 2) / 2)
            { scan with seenType := bbsType :: scan.seenType } with
        | none => return none
        | some scan => peekDevOrder journal variableSize (offset + (1 + length.toNat)) scan
  else return some scan
  termination_by variableSize - offset

/-- No row is seen, ranked or disabled. -/
def startScan (journal : List BbsTable) : DevOrderScan where
  seenType := []
  seenIndex := List.replicate journal.length false
  ranks := List.replicate journal.length 0xFFFF
  disabled := List.replicate journal.length false
  globalRank := 0

/-- The whole variable, once for its checksum and once for its entries. -/
def peekLegacyDevOrder (journal : List BbsTable) (variableSize : Nat) :
    OptionRead (UInt32 × Option DevOrderScan) := do
  let bytes ← peekBytes 0 variableSize
  match ← peekDevOrder journal variableSize 0 (startScan journal) with
  | none => return (legacyBootCrc32 bytes, none)
  | some scan =>
      if !devOrderCovers journal scan then return (legacyBootCrc32 bytes, none)
      else return (legacyBootCrc32 bytes, some scan)

end CsmVgaSelector
