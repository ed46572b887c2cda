import CsmVgaSelector.Bbs.BootOption
import CsmVgaSelector.MemoryMap
import Mathlib.Data.UInt

/-!
# The Compatibility16 table

The dispatcher calls the compatibility module through a table in the last 128 KiB of the first megabyte. Every
16-byte place of that region is looked at; a table is taken when its fields stand up to a check each and its
checksum is zero, or when, with a stale checksum, they corroborate one another. There has to be exactly one.

The messages logged on the way decide nothing, and are left out. A field behind the end of the table is zero.
-/

namespace CsmVgaSelector

open Peek

def compatScanStart : Nat := 0xE0000
def compatScanEnd : Nat := 0x100000
def compatScanAlignment : Nat := 16
def compatCallSampleBytes : Nat := 32

/-- The fields of the dispatcher end here. -/
def compatRequiredLength : Nat := 24
def compatPcieStart : Nat := 78
def compatPcieEnd : Nat := 82
def compatLastBusEnd : Nat := 83

/-- The size of `EFI_COMPATIBILITY16_TABLE`. -/
def compatTableBytes : Nat := 99

/-- `$EFI`, of which byte 0 is `I`. -/
def compatSignature : List UInt8 := [0x49, 0x46, 0x45, 0x24]
def pnpSignature : List UInt8 := [0x24, 0x50, 0x6E, 0x50]

/-- The fields of `EFI_COMPATIBILITY16_TABLE` that are looked at. -/
structure Compatibility16Table where
  tableChecksum : UInt8
  tableMajorRevision : UInt8
  tableMinorRevision : UInt8
  callSegment : UInt16
  callOffset : UInt16
  pnpSegment : UInt16
  pnpOffset : UInt16
  efiSystemTable : Nat
  pciExpressBase : Nat
  lastPciBus : UInt8

def compatibility16Table (bytes : List UInt8) : Compatibility16Table where
  tableChecksum := bytes[4]!
  tableMajorRevision := bytes[8]!
  tableMinorRevision := bytes[9]!
  callSegment := readLe16 bytes 12
  callOffset := readLe16 bytes 14
  pnpSegment := readLe16 bytes 16
  pnpOffset := readLe16 bytes 18
  efiSystemTable := readLe bytes 20 4
  pciExpressBase := readLe bytes compatPcieStart 4
  lastPciBus := bytes[compatPcieEnd]!

/-- `NATIVE_CSM_VGA_PLAN_COMPATIBILITY16`; a table at address zero is none. -/
structure PlanCompatibility16 where
  table : Nat := 0
  address : Nat := 0
  tableLength : UInt8 := 0
  storedChecksum : UInt8 := 0
  calculatedChecksum : UInt8 := 0
  callSegment : UInt16 := 0
  callOffset : UInt16 := 0
  callAddress : Nat := 0
  pnpSegment : UInt16 := 0
  pnpOffset : UInt16 := 0
  checksumValid : Bool := false
  structuralCorroboration : Bool := false
  staleChecksumAccepted : Bool := false
  deriving DecidableEq

/-- Reads of memory, by address. -/
abbrev MemoryRead (α : Type) := Peek Nat UInt8 α

def farAddress (segment offset : UInt16) : Nat := segment.toNat <<< 4 + offset.toNat

def executableLooking (bytes : List UInt8) : Bool :=
  !bytes.isEmpty && decide (bytes.countP (fun held => held != 0x00 && held != 0xFF) ≥ 4)

/-- `CompareMem` with a text. -/
def comparesTo (address : Nat) : List UInt8 → MemoryRead Bool
  | [] => return true
  | character :: text => do
      let held ← peek address
      if held ≠ character then return false else comparesTo (address + 1) text

section

variable (snapshot : MemoryMapSnapshot) (systemTable : Nat)

def isReadable (address length : Nat) : Bool := (snapshot.memoryMapRangeIsReadable address length false).1

def callLooksExecutable (callAddress : Nat) : MemoryRead Bool :=
  if callAddress ≥ compatScanStart ∧ callAddress ≤ compatScanEnd - compatCallSampleBytes ∧
      isReadable snapshot callAddress compatCallSampleBytes = true then do
    let sample ← peekBytes callAddress compatCallSampleBytes
    return executableLooking sample
  else return false

def pnpSignatureValid (pnpAddress : Nat) : MemoryRead Bool :=
  if pnpAddress ≥ compatScanStart ∧ pnpAddress ≤ compatScanEnd - 4 ∧ isReadable snapshot pnpAddress 4 = true then
    comparesTo pnpAddress pnpSignature
  else return false

/-- The checks of a table with a safe length, and what is selected when they accept it. -/
def judgeTable (address : Nat) (tableLength : UInt8) : MemoryRead (Option PlanCompatibility16) := do
  let copied ← peekBytes address (min tableLength.toNat compatTableBytes)
  let candidate := compatibility16Table (copied ++ List.replicate (compatTableBytes - copied.length) 0)
  let callAddress := farAddress candidate.callSegment candidate.callOffset
  let revisionSane := candidate.tableMajorRevision != 0xFF && candidate.tableMinorRevision != 0xFF
  let exactSystemTableRelationship := candidate.efiSystemTable == systemTable % 2 ^ 32
  let systemTableRelationship := candidate.efiSystemTable == 0 || exactSystemTableRelationship
  let pciExpressSane := decide (tableLength.toNat ≤ compatPcieStart) ||
    decide (tableLength.toNat ≥ compatPcieEnd) && candidate.pciExpressBase &&& (efiPageSize - 1) == 0
  let lastBusSane := decide (tableLength.toNat ≥ compatLastBusEnd) &&
    decide (tableLength.toNat ≤ compatTableBytes) && candidate.pciExpressBase != 0 && candidate.lastPciBus != 0
  let callLooksExecutable ← callLooksExecutable snapshot callAddress
  let pnpSignatureValid ← pnpSignatureValid snapshot (farAddress candidate.pnpSegment candidate.pnpOffset)
  let summed ← peekBytes address tableLength.toNat
  let checksum := summed.sum
  let checksumValid := checksum == 0
  let structural := revisionSane && exactSystemTableRelationship && pciExpressSane && lastBusSane &&
    callLooksExecutable && pnpSignatureValid
  let accepted := revisionSane && systemTableRelationship && pciExpressSane && callLooksExecutable &&
    pnpSignatureValid && (checksumValid || structural)
  if !accepted then return none
  else
    return some
      { table := address
        address
        tableLength
        storedChecksum := candidate.tableChecksum
        calculatedChecksum := checksum
        callSegment := candidate.callSegment
        callOffset := candidate.callOffset
        callAddress
        pnpSegment := candidate.pnpSegment
        pnpOffset := candidate.pnpOffset
        checksumValid
        structuralCorroboration := structural
        staleChecksumAccepted := !checksumValid && structural }

/-- One place of the scan. -/
def judgeCandidate (address : Nat) : MemoryRead (Option PlanCompatibility16) :=
  if isReadable snapshot address 6 = false then return none
  else do
    let signed ← comparesTo address compatSignature
    if !signed then return none
    else
      let tableLength ← peek (address + 5)
      if tableLength.toNat < compatRequiredLength ∨ tableLength.toNat > compatScanEnd - address ∨
          isReadable snapshot address tableLength.toNat = false then
        return none
      else judgeTable snapshot systemTable address tableLength

/-- The scan from this address on: how many tables have been accepted, and the last of them. -/
def scanCandidates (address acceptedCount : Nat) (selected : PlanCompatibility16) :
    MemoryRead (Nat × PlanCompatibility16) :=
  if address + 6 ≤ compatScanEnd then do
    match ← judgeCandidate snapshot systemTable address with
    | none => scanCandidates (address + compatScanAlignment) acceptedCount selected
    | some accepted => scanCandidates (address + compatScanAlignment) (acceptedCount + 1) accepted
  else return (acceptedCount, selected)
  termination_by compatScanEnd - address
  decreasing_by all_goals unfold compatScanAlignment; omega

end

/-- `SelectCompatibility16`, with the memory map or the status its capture failed with. -/
def selectCompatibility16 (captured : Except EfiStatus MemoryMapSnapshot) (systemTable : Nat) :
    MemoryRead (EfiStatus × PlanCompatibility16) :=
  match captured with
  | .error status => return (status, {})
  | .ok snapshot => do
      let scanned ← scanCandidates snapshot systemTable compatScanStart 0 {}
      if scanned.1 ≠ 1 ∨ scanned.2.table = 0 then
        return (if scanned.1 = 0 then .notFound else .noMapping, {})
      else return (.success, scanned.2)

end CsmVgaSelector
