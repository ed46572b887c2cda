import CsmVgaSelector.Rom.Snapshot
import CsmVgaSelector.Rom.Storage

/-!
# The reads of the storage ROM match

The match as it goes through the snapshot, byte by byte: the header tells how far the ROM extends, and
everything after is read from within. An offset of the ROM is one of the snapshot less where the ROM begins.
-/

namespace CsmVgaSelector

open Peek

/-- `Le16` of the snapshot. -/
def peekLe16 (offset : Nat) : SnapshotRead UInt16 := do
  let low ← peek (.snapshot offset)
  let high ← peek (.snapshot (offset + 1))
  return low.toUInt16 ||| high.toUInt16 <<< 8

/-- Whether the byte is this one. -/
def peekIs (offset : Nat) (value : UInt8) : SnapshotRead Bool := do
  let held ← peek (.snapshot offset)
  return held == value

/-- `CompareMem` of the snapshot with a text. -/
def peekHolds : Nat → List UInt8 → SnapshotRead Bool
  | _, [] => return true
  | offset, value :: text => do
      let same ← peekIs offset value
      if !same then return false
      else peekHolds (offset + 1) text

def peekReadable (offset bytes : Nat) : SnapshotRead Bool :=
  if bytes = 0 ∨ offset ≥ shadowBytes ∨ bytes > shadowBytes - offset then return false
  else
    let first := offset / blockBytes
    blocksAreValid first ((offset + bytes - 1) / blockBytes + 1 - first)

/-- The PCI data in a ROM of this size. -/
def peekPcir (offset bytes : Nat) : SnapshotRead (Option (Nat × Nat)) := do
  let pointer ← peekLe16 (offset + 0x18)
  let pcir := pointer.toNat
  if pcir < 0x1C ∨ pcir > bytes ∨ 0x18 > bytes - pcir then return none
  else
    let length ← peekLe16 (offset + pcir + 0x0A)
    let signed ← peekHolds (offset + pcir) [0x50, 0x43, 0x49, 0x52]
    if !signed then return none
    else if length.toNat < 0x18 ∨ length.toNat > bytes - pcir then return none
    else
      let legacy ← peekIs (offset + pcir + 0x14) 0
      if !legacy then return none
      else
        let vendor ← peekLe16 (offset + pcir + 4)
        if vendor = 0 ∨ vendor = 0xFFFF then return none
        else return some (bytes, pcir)

def peekRom (offset : Nat) : SnapshotRead (Option (Nat × Nat)) := do
  let headed ← peekReadable offset 0x1C
  if !headed then return none
  else
    let signed ← peekHolds offset [0x55, 0xAA]
    if !signed then return none
    else
      let blocks ← peek (.snapshot (offset + 2))
      let bytes := blocks.toNat * blockBytes
      let readable ← peekReadable offset bytes
      if !readable then return none
      else peekPcir offset bytes

def peekScanRomString (offset bytes start : Nat) : Nat → Nat → SnapshotRead Bool
  | 0, _ => return false
  | limit + 1, index =>
      if index ≥ bytes then return false
      else do
        let held ← peek (.snapshot (offset + index))
        if held = 0 then return index > start
        else if held < 0x20 ∨ held > 0x7E then return false
        else peekScanRomString offset bytes start limit (index + 1)

def peekRomString (offset bytes : Nat) (start : UInt16) (optional : Bool) : SnapshotRead Bool :=
  if start = 0 then return optional
  else if start.toNat ≥ bytes then return false
  else peekScanRomString offset bytes start.toNat 128 start.toNat

/-- One of the two vectors of the header is the entry's boot handler. -/
def peekHandler (entry : BbsTable) (header : Nat) : SnapshotRead Bool := do
  let bootConnection ← peekLe16 (header + 22)
  if bootConnection = entry.bootHandlerOffset then return true
  else
    let bootstrap ← peekLe16 (header + 26)
    return bootstrap == entry.bootHandlerOffset

def peekPnpNames (entry : BbsTable) (offset bytes header : Nat) : SnapshotRead Bool := do
  let sameClass ← peekIs (offset + header + 18) entry.class_
  if !sameClass then return false
  else
    let sameSub ← peekIs (offset + header + 19) entry.subClass
    if !sameSub then return false
    else
      let description ← peekLe16 (offset + header + 16)
      if description ≠ entry.descStringOffset then return false
      else
        let manufacturer ← peekLe16 (offset + header + 14)
        if manufacturer ≠ entry.mfgStringOffset then return false
        else
          let connected ← peekHandler entry (offset + header)
          if !connected then return false
          else
            let described ← peekRomString offset bytes description false
            if !described then return false
            else peekRomString offset bytes manufacturer true

/-- The sum of so many bytes from this offset on, and of those before. -/
def peekSum : Nat → Nat → UInt8 → SnapshotRead UInt8
  | _, 0, sum => return sum
  | offset, bytes + 1, sum => do
      let held ← peek (.snapshot offset)
      peekSum (offset + 1) bytes (sum + held)

def peekPnpIsSound (offset bytes header : Nat) : SnapshotRead Bool := do
  let paragraphs ← peek (.snapshot (offset + header + 5))
  let length := paragraphs.toNat * 16
  let signed ← peekHolds (offset + header) [0x24, 0x50, 0x6E, 0x50]
  if !signed then return false
  else
    let revised ← peekIs (offset + header + 4) 1
    if !revised then return false
    else if length < 32 ∨ length > bytes - header then return false
    else
      let sum ← peekSum (offset + header) length 0
      return sum == 0

/-- What has been found after a sound header. -/
def peekFound (entry : BbsTable) (offset bytes header : Nat) (found : Nat × Bool) :
    SnapshotRead (Nat × Bool) := do
  let names ← peekPnpNames entry offset bytes header
  if !names then return found
  else
    let manufacturer ← peekLe16 (offset + header + 14)
    return (found.1 + 1, manufacturer == 0)

def peekPnp (entry : BbsTable) (offset bytes : Nat) :
    Nat → List Nat → Nat → Nat × Bool → SnapshotRead (Option (Nat × Bool))
  | turns, seen, header, found =>
      if header = 0 then return some found
      else
        match turns with
        | 0 => return none
        | turns + 1 =>
            if header < 0x1C ∨ header > bytes ∨ 32 > bytes - header then return none
            else if header ∈ seen then return none
            else do
              let sound ← peekPnpIsSound offset bytes header
              if !sound then return none
              else
                let found ← peekFound entry offset bytes header found
                let next ← peekLe16 (offset + header + 6)
                peekPnp entry offset bytes turns (header :: seen) next.toNat found

def peekIdentity (device : LegacyPciIdentity) (offset pcir : Nat) : SnapshotRead Bool := do
  let vendor ← peekLe16 (offset + pcir + 4)
  if readLe16 device.config 0 ≠ vendor then return false
  else
    let deviceId ← peekLe16 (offset + pcir + 6)
    return readLe16 device.config 2 == deviceId

def peekIsControllers (devices : List LegacyPciIdentity) (entry : BbsTable) (offset pcir : Nat) :
    SnapshotRead Bool :=
  match devices.filter fun device => !device.locationStatus.isError &&
      device.bus == entry.bus.toNat && device.device == entry.device.toNat &&
      device.function == entry.function.toNat with
  | [device] =>
      if device.segment ≠ 0 ∨ device.configStatus.isError then return false
      else do
        let identified ← peekIdentity device offset pcir
        if !identified then return false
        else
          return device.config[0x0B]! == entry.class_ && device.config[0x0A]! == entry.subClass
  | _ => return false

def peekStorageRomMatch (devices : List LegacyPciIdentity) (entry : BbsTable) :
    SnapshotRead (Bool × Bool) :=
  if !entryInShadow entry then return (false, false)
  else do
    let offset := handlerRom entry
    let found ← peekRom offset
    match found with
    | none => return (false, false)
    | some (bytes, pcir) =>
        let unchanged ← compareLive offset bytes
        if !unchanged then return (false, false)
        else if !entryInRom entry bytes then return (false, false)
        else
          let owned ← peekIsControllers devices entry offset pcir
          if !owned then return (false, false)
          else
            let first ← peekLe16 (offset + 0x1A)
            let verdict ← peekPnp entry offset bytes maxPnpHeaders [] first.toNat (0, false)
            return pnpVerdict verdict

end CsmVgaSelector
