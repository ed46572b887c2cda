import CsmVgaSelector.Bbs.Policy
import CsmVgaSelector.Bytes

/-!
# The LegacyDevOrder variable

Firmware keeps its own boot order in a variable: for each device type a list of row numbers, with
`0xFF` in the high byte of a row it disables. The program reads it and never writes it. A value is used
only when it covers every row of valid priority exactly once; anything else is the fallback to the
order of the table.
-/

namespace CsmVgaSelector

def variableBootserviceAccess : UInt32 := 2

/-- The 16-bit words of an entry's data. -/
def dataWords : List UInt8 → List UInt16
  | low :: high :: rest => (low.toUInt16 ||| high.toUInt16 <<< 8) :: dataWords rest
  | _ => []

/-- What the scan has seen so far. -/
structure DevOrderScan where
  seenType : List UInt8
  seenIndex : List Bool
  ranks : List UInt16
  disabled : List Bool
  globalRank : UInt16

/-- A step that can end the scan with a status. -/
abbrev DevOrderStep (α : Type) := ExceptT EfiStatus (Query FirmwareAnswer BootState) α

/-- A log call whose failure ends the scan. -/
def devOrderLog : DevOrderStep Unit := do
  let status ← logPrint
  if status.isError then throw status

/-- A malformed variable, logged. -/
def devOrderMalformed {α : Type} : DevOrderStep α := do
  let _ ← logPrint
  throw .compromisedData

def scanDevOrderData (journal : List BbsTable) (bbsType : UInt8) :
    List UInt16 → DevOrderScan → DevOrderStep DevOrderScan
  | [], scan => return scan
  | encodedIndex :: rest, scan => do
      let liveIndex := (encodedIndex &&& 0xFF).toNat
      let highByte := encodedIndex &&& 0xFF00
      if highByte ≠ 0 ∧ highByte ≠ 0xFF00 then devOrderMalformed
      else if liveIndex ≥ journal.length ∨ scan.seenIndex[liveIndex]! then devOrderMalformed
      else if journal[liveIndex]!.deviceType ≠ bbsType.toUInt16 ∨
          !legacyBootBbsPriorityIsValid journal[liveIndex]!.bootPriority then devOrderMalformed
      else
        devOrderLog
        scanDevOrderData journal bbsType rest
          { scan with
            seenIndex := scan.seenIndex.set liveIndex true
            ranks := scan.ranks.set liveIndex scan.globalRank
            disabled := scan.disabled.set liveIndex (highByte == 0xFF00)
            globalRank := scan.globalRank + 1 }

/-- The scan of the entries: a type byte, a length that counts itself, and the data. -/
def scanDevOrder (journal : List BbsTable) (bytes : List UInt8) (scan : DevOrderScan) :
    DevOrderStep DevOrderScan :=
  match bytes with
  | [] => return scan
  | bbsType :: rest => do
      let length := (readLe16 rest 0).toNat
      if rest.length < 2 then devOrderMalformed
      else if length < 2 ∨ length % 2 ≠ 0 ∨ length > rest.length then devOrderMalformed
      else if bbsType ∈ scan.seenType then devOrderMalformed
      else
        devOrderLog
        let scan ← scanDevOrderData journal bbsType (dataWords ((rest.take length).drop 2))
          { scan with seenType := bbsType :: scan.seenType }
        scanDevOrder journal (rest.drop length) scan
  termination_by bytes.length
  decreasing_by
    simp only [List.length_cons, List.length_drop]
    omega

/-- Every row is covered exactly when its priority is valid. -/
def devOrderCovers (journal : List BbsTable) (scan : DevOrderScan) : Bool :=
  journal.map (legacyBootBbsPriorityIsValid ·.bootPriority) == scan.seenIndex

def parseLegacyDevOrder (journal : List BbsTable) (liveBbsIndex : Nat) (bytes : List UInt8) :
    BootQuery (Except EfiStatus DevOrderScan) := ExceptT.run do
  devOrderLog
  let scan ← scanDevOrder journal bytes
    { seenType := []
      seenIndex := List.replicate journal.length false
      ranks := List.replicate journal.length 0xFFFF
      disabled := List.replicate journal.length false
      globalRank := 0 }
  if !devOrderCovers journal scan then devOrderMalformed
  else
    if scan.disabled[liveBbsIndex]! then devOrderLog
    return scan

def legacyBootLogLegacyDevOrderFallback : BootQuery EfiStatus := do
  let status ← logPrint
  if status.isError then return status
  logFlush

/-- The variable is not usable, and the table's own order stands in. -/
def legacyDevOrderFallback : Boot EfiStatus := do
  updateContext fun context =>
    { context with legacyDevOrderPresent := false, legacyDevOrderUsable := false }
  legacyBootLogLegacyDevOrderFallback

def legacyBootCaptureLegacyDevOrder : Boot EfiStatus := do
  let context := (← get).context
  match context.bbsJournal with
  | none => return .invalidParameter
  | some journal =>
      if context.bbsCount = 0 ∨ context.bbsCount > maxBbsEntries ∨
          context.legacyDevOrderData.isSome ∨ context.legacyDevOrderRanks.isSome ∨
          context.legacyDevOrderDisabled.isSome then
        return .invalidParameter
      match ← readLegacyDevOrder with
      | .error _ => legacyDevOrderFallback
      | .ok (attributes, bytes) =>
          if attributes &&& variableBootserviceAccess = 0 then legacyDevOrderFallback
          else
            let ranksGranted ← allocatePool
            let disabledGranted ← allocatePool
            if !ranksGranted || !disabledGranted then return .outOfResources
            match ← parseLegacyDevOrder journal context.liveBbsIndex bytes with
            | .error _ => legacyDevOrderFallback
            | .ok scan =>
                updateContext fun context =>
                  { context with
                    legacyDevOrderPresent := true
                    legacyDevOrderUsable := true
                    legacyDevOrderAttributes := attributes
                    legacyDevOrderData := some bytes
                    legacyDevOrderCrc32 := legacyBootCrc32 bytes
                    legacyDevOrderRanks := some scan.ranks
                    legacyDevOrderDisabled := some scan.disabled }
                let status ← logPrint
                if status.isError then return status
                logFlush

/-- Whether the variable still reads as it was captured. -/
def legacyDevOrderMatches (context : BootTargetContext) :
    Except EfiStatus (UInt32 × List UInt8) → Bool
  | .error _ => false
  | .ok (attributes, bytes) =>
      attributes == context.legacyDevOrderAttributes &&
        legacyBootCrc32 bytes == context.legacyDevOrderCrc32 &&
        context.legacyDevOrderData == some bytes

def legacyBootVerifyLegacyDevOrderSnapshot (flushResult : Bool) : BootQuery EfiStatus := do
  let context := (← read).context
  let current ← readLegacyDevOrder
  if context.legacyDevOrderUsable && !legacyDevOrderMatches context current then
    logFailure flushResult .aborted
  else
    let status ← logPrint
    if status.isError then return status
    flushIf flushResult

end CsmVgaSelector
