import CsmVgaSelector.Bbs.FarString
import CsmVgaSelector.Config.Candidate

/-!
# The disks that setup offers

Setup collects a candidate from every hard-disk row of the table, and gives up those whose controller and
description do not tell them apart. The messages, and the counts kept for them, are left out.
-/

namespace CsmVgaSelector

def pciClassSerial : UInt8 := 0x0C
def pciClassSerialUsb : UInt8 := 0x03

/-- Setup's own copy loop, the same as the boot's. -/
def bbsCopyFarAsciiString (memory : FarMemory) (segment offset : UInt16) (outputBytes : Nat) :
    FarStringResult × Bytes :=
  legacyBootCopyFarAsciiString memory segment offset outputBytes

/-- The text in a zeroed array. -/
def candidateString (text : Bytes) : CandidateString where
  array := padded candidateStringBytes (text.take candidateStringBytes)
  length_eq := by
    rw [padded, List.length_append, List.length_replicate, List.length_take]
    omega

structure NcvStorageCollection where
  items : List NcvStorageCandidate := []
  observedCount : Nat := 0
  overflow : Bool := false

def ncvStorageCollectionAppend (collection : NcvStorageCollection) (candidate : NcvStorageCandidate) :
    NcvStorageCollection :=
  if collection.items.length ≥ maxStorageCandidates then
    { collection with observedCount := collection.observedCount + 1, overflow := true }
  else
    { collection with
      observedCount := collection.observedCount + 1
      items := collection.items ++ [candidate] }

/-- The candidate of a hard-disk row. -/
def bbsStorageCandidate (memory : FarMemory) (index : Nat) (entry : BbsTable) : NcvStorageCandidate :=
  let addressValid := entry.bus ≤ 0xFF && entry.device ≤ 31 && entry.function ≤ 7
  let manufacturer := bbsCopyFarAsciiString memory entry.mfgStringSegment entry.mfgStringOffset
    candidateStringBytes
  let description := bbsCopyFarAsciiString memory entry.descStringSegment entry.descStringOffset
    candidateStringBytes
  { bbsIndex := index.toUInt64
    address :=
      if addressValid then
        { segment := 0
          bus := entry.bus.toUInt8
          device := entry.device.toUInt8
          function := entry.function.toUInt8 }
      else zeroAddress
    rawBus := entry.bus
    rawDevice := entry.device
    rawFunction := entry.function
    baseClass := entry.class_
    subClass := entry.subClass
    manufacturer := candidateString manufacturer.2
    description := candidateString description.2
    addressValid
    usb := entry.class_ == pciClassSerial && entry.subClass == pciClassSerialUsb
    firmwareStatusKnown := true
    firmwareStatus := entry.statusFlags
    firmwarePriority := entry.bootPriority
    identityAmbiguous := false
    eligible :=
      addressValid && description.1 == .present &&
        ncvIniValueIsExactlyRepresentable (candidateString description.2).array candidateStringBytes
    selected := false }

/-- The loop of `BbsProbeAndPrintEx` over the rows from this index on, for the candidates it collects. -/
def bbsProbeRows (memory : FarMemory) : Nat → List BbsTable → NcvStorageCollection → NcvStorageCollection
  | _, [], collection => collection
  | index, entry :: table, collection =>
      bbsProbeRows memory (index + 1) table
        (if entry.deviceType = bbsHardDisk then
          ncvStorageCollectionAppend collection (bbsStorageCandidate memory index entry)
        else collection)

/-! ### Ranking -/

/-- Both arrays hold the same text up to case, with its terminator. -/
def sameDescription : Bytes → Bytes → Bool
  | left :: lefts, right :: rights =>
      lowerCase left == lowerCase right && (lowerCase left == 0 || sameDescription lefts rights)
  | _, _ => false

/-- Another candidate has the same controller and description. -/
def identityAmbiguous (items : List NcvStorageCandidate) (index : Nat) (item : NcvStorageCandidate) :
    Bool :=
  item.addressValid &&
    items.zipIdx.any fun (other, otherIndex) =>
      otherIndex != index && other.addressValid && item.address == other.address &&
        sameDescription item.description.array other.description.array

def markAmbiguous (items : List NcvStorageCandidate) : List NcvStorageCandidate :=
  items.mapIdx fun index item =>
    { item with
      identityAmbiguous := identityAmbiguous items index item
      eligible := item.eligible && !identityAmbiguous items index item }

/-- A disk that is not on USB comes first, then the one with the lower index. -/
def storageRanksBefore (item best : NcvStorageCandidate) : Bool :=
  !item.usb && best.usb || item.usb == best.usb && item.bbsIndex < best.bbsIndex

def selectStorage (items : List NcvStorageCandidate) : Option Nat :=
  (items.zipIdx.foldl (fun best (item, index) =>
    if !item.eligible then best
    else
      match best with
      | none => some (item, index)
      | some (bestItem, bestIndex) =>
          if storageRanksBefore item bestItem then some (item, index) else some (bestItem, bestIndex))
    none).map Prod.snd

/-- The candidates as they are left, and the index of the one selected. -/
def ncvRankStorage (items : List NcvStorageCandidate) :
    Option (List NcvStorageCandidate × Option Nat) :=
  if items.length > maxStorageCandidates then none
  else
    let marked := markAmbiguous items
    let best := selectStorage marked
    some (marked.mapIdx fun index item => { item with selected := best == some index }, best)

end CsmVgaSelector
