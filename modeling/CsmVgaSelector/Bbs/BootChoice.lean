import CsmVgaSelector.Bbs.BootOption
import CsmVgaSelector.Bbs.Discover

/-!
# The choice of the Boot#### option

Discovery goes through BootOrder once. An option that firmware cannot give, or that does not decode, is
passed over when its status says so and ends the search otherwise; of the options that fit, the first is
kept and all are counted. The state of the program is that count and the candidate that the caller owns, and
its answers are the statuses of the log's calls.
-/

namespace CsmVgaSelector

/-- The variables as they are read, and what the copies of each option are granted. -/
structure BootVariables where
  bootOrder : Except EfiStatus (List UInt8)
  bootOption : UInt16 → Except EfiStatus (List UInt8)
  pools : UInt16 → OptionPools

/-- A candidate that owns nothing. -/
def zeroCandidate : BootCandidate where
  isLegacy := false
  isActive := false
  number := 0
  attributes := 0
  description := none
  devicePath := none
  devicePathCrc32 := 0
  bbsDeviceType := 0
  bbsStatusFlag := 0
  bbsDescription := []
  optionalData := none
  optionalDataCrc32 := 0

structure BootChoice where
  matchCount : Nat
  selected : BootCandidate

abbrev Choosing := Prog EfiStatus BootChoice

/-! ### Comparisons of text -/

/-- Both texts with their terminators. -/
def legacyBootUnicodeEqualsInsensitive : List UInt16 → List UInt16 → Bool
  | left :: lefts, right :: rights =>
      if legacyBootUnicodeUpperAscii left ≠ legacyBootUnicodeUpperAscii right then false
      else if left = 0 then true
      else legacyBootUnicodeEqualsInsensitive lefts rights
  | _, _ => false

/-- The needle stands at the head of the text. -/
def needleHere : List UInt16 → List UInt16 → Bool
  | character :: text, wanted :: needle =>
      if wanted = 0 then true
      else if character = 0 then false
      else if legacyBootUnicodeUpperAscii character ≠ legacyBootUnicodeUpperAscii wanted then false
      else needleHere text needle
  | _, _ => false

def needleSomewhere : List UInt16 → List UInt16 → Bool
  | [], _ => false
  | character :: text, needle =>
      if character = 0 then false
      else needleHere (character :: text) needle || needleSomewhere text needle

/-- Both texts with their terminators. -/
def legacyBootUnicodeContainsInsensitive (text needle : List UInt16) : Bool :=
  if needle.head? = some 0 then false else needleSomewhere text needle

/-- A configured text as it stands in memory. -/
def terminated (text : List UInt16) : List UInt16 := text ++ [0]

/-! ### One option -/

def choiceLogPrint : Choosing EfiStatus := Prog.call

def choiceLogFlush : Choosing EfiStatus := Prog.call

/-- So many messages, of which one that fails is the last. -/
def logMessages : Nat → Choosing EfiStatus
  | 0 => return .success
  | messages + 1 => do
      let status ← choiceLogPrint
      if status.isError then return status
      logMessages messages

/-- `LegacyBootLogBootCandidate`: the option's four messages, and its path with sixteen bytes in a message. -/
def logBootCandidate (candidate : BootCandidate) : Choosing EfiStatus :=
  if !candidate.isLegacy then return .invalidParameter
  else logMessages (4 + max 1 (((candidate.devicePath.getD []).length + 15) / 16))

def legacyBootBootOptionStatusIsSkippable : EfiStatus → Bool
  | .notFound => true
  | .unsupported => true
  | .compromisedData => true
  | .badBufferSize => true
  | .bufferTooSmall => true
  | _ => false

/-- An option that gave no candidate. -/
def skipOption (entryStatus : EfiStatus) : Choosing EfiStatus := do
  let status ← choiceLogPrint
  if status.isError then return status
  if legacyBootBootOptionStatusIsSkippable entryStatus then return .success
  return entryStatus

def BootCandidate.isGenericDisk (candidate : BootCandidate) : Bool :=
  candidate.isActive &&
    (candidate.bbsDeviceType == bbsTypeHarddrive || candidate.bbsDeviceType == bbsTypeUsb)

/-- The candidate has the configured description, and not the configured exclusion. -/
def BootCandidate.isSelected (candidate : BootCandidate) (request : DiscoverRequest) : Bool :=
  let description := candidate.description.getD []
  candidate.isGenericDisk &&
    legacyBootUnicodeEqualsInsensitive description (terminated request.legacyOptionDescription) &&
    !legacyBootUnicodeContainsInsensitive description (terminated request.excludeDescription)

/-- The first candidate is kept, and every one is counted. -/
def BootChoice.add (choice : BootChoice) (candidate : BootCandidate) : BootChoice where
  matchCount := choice.matchCount + 1
  selected := if choice.matchCount + 1 = 1 then candidate else choice.selected

def addSelected (request : DiscoverRequest) (candidate : BootCandidate) : Choosing Unit :=
  modify fun choice => if candidate.isSelected request then choice.add candidate else choice

/-- The message on a hard disk or a USB disk. -/
def logSelector (candidate : BootCandidate) : Choosing EfiStatus :=
  if candidate.isGenericDisk then choiceLogPrint else return .success

def considerCandidate (request : DiscoverRequest) (candidate : BootCandidate) : Choosing EfiStatus := do
  let status ← logBootCandidate candidate
  if status.isError then return status
  let status ← logSelector candidate
  if status.isError then return status
  addSelected request candidate
  return .success

/-- What the option gives: its candidate, or the status of the step that failed. Of a read that ended with a
warning there is no content, which decoding refuses. -/
def BootVariables.candidateOf (store : BootVariables) (number : UInt16) :
    Except EfiStatus BootCandidate :=
  match store.bootOption number with
  | .error entryStatus => if entryStatus.isError then .error entryStatus else .error .invalidParameter
  | .ok bytes => legacyBootParseLegacyBootOption (store.pools number) number bytes

def considerOption (store : BootVariables) (request : DiscoverRequest) (number : UInt16) :
    Choosing EfiStatus :=
  match store.candidateOf number with
  | .error entryStatus => skipOption entryStatus
  | .ok candidate => considerCandidate request candidate

/-! ### The search -/

/-- The options of BootOrder from here on; a number that has come `earlier` ends the search. -/
def considerOrder (store : BootVariables) (request : DiscoverRequest) (earlier : List UInt16) :
    List UInt16 → Choosing EfiStatus
  | [] => return .success
  | number :: rest => do
      if number ∈ earlier then
        let _ ← choiceLogPrint
        return .compromisedData
      let status ← considerOption store request number
      if status.isError then return status
      considerOrder store request (earlier ++ [number]) rest

/-- Exactly one candidate was counted. -/
def requireOneMatch : Choosing EfiStatus := do
  let choice ← get
  if choice.matchCount ≠ 1 then
    let _ ← choiceLogPrint
    return if choice.matchCount = 0 then .notFound else .aborted
  return .success

def releaseSelected : Choosing Unit := modify fun choice => { choice with selected := zeroCandidate }

/-- The end of the search: what was selected goes with a failure, of the search or of the log. -/
def closeChoice (status : EfiStatus) : Choosing EfiStatus := do
  if status.isError then releaseSelected
  let flushStatus ← choiceLogFlush
  if !status.isError && flushStatus.isError then
    releaseSelected
    return flushStatus
  return status

/-- The words of BootOrder. -/
def orderWords (bytes : List UInt8) : List UInt16 :=
  (List.range (bytes.length / 2)).map fun index => readLe16 bytes (index * 2)

def searchOrder (store : BootVariables) (request : DiscoverRequest) (bytes : List UInt8) :
    Choosing EfiStatus := do
  let status ← considerOrder store request [] (orderWords bytes)
  if status.isError then return status
  requireOneMatch

/-- `LegacyBootDiscoverBootCandidate`, with the variables it reads. -/
def discoverBootCandidate (store : BootVariables) (request : DiscoverRequest) : Choosing EfiStatus := do
  if request.legacyOptionDescription.isEmpty || request.excludeDescription.isEmpty then
    return .invalidParameter
  set (BootChoice.mk 0 zeroCandidate)
  let _ ← choiceLogPrint
  let _ ← choiceLogPrint
  match store.bootOrder with
  | .error status =>
      if status.isError then
        let _ ← choiceLogFlush
        return status
      let _ ← choiceLogPrint
      let _ ← choiceLogFlush
      return .compromisedData
  | .ok bytes =>
      if bytes.length % 2 ≠ 0 ∨ bytes.length = 0 then
        let _ ← choiceLogPrint
        let _ ← choiceLogFlush
        return .compromisedData
      let status ← searchOrder store request bytes
      closeChoice status

end CsmVgaSelector
