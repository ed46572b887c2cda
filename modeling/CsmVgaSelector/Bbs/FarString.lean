import CsmVgaSelector.Bbs.Table
import CsmVgaSelector.MemoryMap

/-!
# Far strings

A BBS row names its manufacturer and its description by real-mode `segment:offset` pointers. The
program reads them under a memory map it has just captured, and never past the 128th byte, the end of
the readable run or the end of real-mode memory.
-/

namespace CsmVgaSelector

def maxStringBytes : Nat := 128
def maxBbsEntries : Nat := 256
def realModeMaxAddress : Nat := 0x10FFEF

inductive FarStringResult where
  | present
  | absent
  | unsafeRange
  | truncated
  deriving DecidableEq, Repr, Inhabited

def FarStringResult.code : FarStringResult → UInt8
  | present => 0
  | absent => 1
  | unsafeRange => 2
  | truncated => 3

/-- Real-mode memory under one captured memory map: the bytes, and at each address the number of bytes
`MemoryMapRangeIsReadable` reports from there on (none where it refuses). -/
structure FarMemory where
  readableBytes : Nat → Nat
  byte : Nat → UInt8

/-- The copy loop: `true` when a terminator ends the string within the limit. -/
def scanFarString (memory : FarMemory) (address : Nat) : Nat → Bool × List UInt8
  | 0 => (false, [])
  | limit + 1 =>
      if memory.byte address = 0 then (true, [])
      else
        let (terminated, rest) := scanFarString memory (address + 1) limit
        (terminated, memory.byte address :: rest)

/-- The result and the bytes copied before the terminator. -/
def legacyBootCopyFarAsciiString (memory : FarMemory) (segment offset : UInt16) (outputBytes : Nat) :
    FarStringResult × List UInt8 :=
  if outputBytes = 0 then (.unsafeRange, [])
  else if segment = 0 ∧ offset = 0 then (.absent, [])
  else
    let address := segment.toNat * 16 + offset.toNat
    if address < efiPageSize ∨ address > realModeMaxAddress ∨ memory.readableBytes address = 0 then
      (.unsafeRange, [])
    else
      let limit := min (min (min (memory.readableBytes address) maxStringBytes)
        (realModeMaxAddress - address + 1)) (outputBytes - 1)
      let (terminated, text) := scanFarString memory address limit
      (if terminated then .present else .truncated, text)

/-- `LEGACY_BOOT_BBS_STRING_SNAPSHOT`: what was read of one row's two strings. -/
structure StringSnapshot where
  manufacturerReadResult : FarStringResult
  descriptionReadResult : FarStringResult
  manufacturer : List UInt8
  description : List UInt8
  deriving DecidableEq, Repr, Inhabited

/-- A string in its zeroed fixed-size array. -/
def padded (size : Nat) (text : List UInt8) : List UInt8 :=
  text ++ List.replicate (size - text.length) 0

def StringSnapshot.bytes (snapshot : StringSnapshot) : List UInt8 :=
  [snapshot.manufacturerReadResult.code, snapshot.descriptionReadResult.code] ++
    padded (maxStringBytes + 1) snapshot.manufacturer ++
    padded (maxStringBytes + 1) snapshot.description

def stringsCrc32 (strings : List StringSnapshot) : UInt32 :=
  legacyBootCrc32 (strings.flatMap StringSnapshot.bytes)

end CsmVgaSelector
