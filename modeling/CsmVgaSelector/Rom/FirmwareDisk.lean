import CsmVgaSelector.Rom.Snapshot
import CsmVgaSelector.Rom.Storage

/-!
# Disks of the resident firmware

A disk of the on-board controller has its boot handler and its strings in the system BIOS, which has no
option-ROM header to check. What can be checked is that the bytes its entry points to are in the snapshot of
the firmware area, that they are as they were when it was taken, and that the entry has one controller.

Without a prepared snapshot nothing matches.
-/

namespace CsmVgaSelector

open Peek

def diskFirmwareBase : Nat := 0xE0000
def diskFirmwareBytes : Nat := 0x20000
def diskFirmwareBlock : Nat := 512

def stableRange (address bytes : Nat) : SnapshotRead Bool :=
  if bytes = 0 ∨ address < diskFirmwareBase then return false
  else
    let offset := address - diskFirmwareBase
    if offset ≥ diskFirmwareBytes ∨ bytes > diskFirmwareBytes - offset then return false
    else do
      let first := offset / diskFirmwareBlock
      let valid ← blocksAreValid first ((offset + bytes - 1) / diskFirmwareBlock + 1 - first)
      if !valid then return false
      else compareLive offset bytes

/-- From this character on, with so many allowed. -/
def scanFirmwareString (address : Nat) : Nat → Nat → SnapshotRead Bool
  | 0, _ => return false
  | limit + 1, index => do
      let stable ← stableRange (address + index) 1
      if !stable then return false
      else
        let value ← peek (.snapshot (address + index - diskFirmwareBase))
        if value = 0 then return index ≠ 0
        else if value < 0x20 ∨ value > 0x7E then return false
        else scanFirmwareString address limit (index + 1)

def realModeAddress (segment offset : UInt16) : Nat := segment.toNat * 16 + offset.toNat

def firmwareString (segment offset : UInt16) (optional : Bool) : SnapshotRead Bool :=
  if segment = 0 ∧ offset = 0 then return optional
  else scanFirmwareString (realModeAddress segment offset) 128 0

/-- Whether one of so many bytes from this offset on is not padding, or one before them was not. -/
def scanNonPadding : Nat → Nat → Bool → SnapshotRead Bool
  | _, 0, nonPadding => return nonPadding
  | offset, bytes + 1, nonPadding => do
      let value ← peek (.snapshot offset)
      scanNonPadding (offset + 1) bytes (nonPadding || value != 0 && value != 0xFF)

/-- The record is at the entry's bus, device and function. -/
def atEntryAddress (entry : BbsTable) (device : LegacyPciIdentity) : Bool :=
  !device.locationStatus.isError && device.bus == entry.bus.toNat &&
    device.device == entry.device.toNat && device.function == entry.function.toNat

/-- A controller in AHCI mode, on the first segment, that answers with an identity. -/
def isAhciController (device : LegacyPciIdentity) : Bool :=
  device.segment == 0 && !device.configStatus.isError &&
    !(device.config[0]! == 0 && device.config[1]! == 0) &&
    !(device.config[0]! == 0xFF && device.config[1]! == 0xFF) &&
    !(device.config[2]! == 0xFF && device.config[3]! == 0xFF) &&
    device.config[0x0B]! == 1 && device.config[0x0A]! == 6 && device.config[9]! == 1

/-- The entry has exactly one controller, and it is in AHCI mode. -/
def hasAhciController (devices : List LegacyPciIdentity) (entry : BbsTable) : Bool :=
  match devices.filter (atEntryAddress entry) with
  | [device] => isAhciController device
  | _ => false

def legacyFirmwareDiskMatch (devices : List LegacyPciIdentity) (entry : BbsTable) : SnapshotRead Bool :=
  if entry.deviceType ≠ bbsHardDisk ∨ entry.class_ ≠ 1 ∨ entry.subClass ≠ 6 ∨ entry.bus > 255 ∨
      entry.device > 31 ∨ entry.function > 7 ∨ entry.bootHandlerSegment = 0 then
    return false
  else if !hasAhciController devices entry then return false
  else do
    let handler := realModeAddress entry.bootHandlerSegment entry.bootHandlerOffset
    let stable ← stableRange handler 64
    if !stable then return false
    else
      let description ← firmwareString entry.descStringSegment entry.descStringOffset false
      if !description then return false
      else
        let manufacturer ← firmwareString entry.mfgStringSegment entry.mfgStringOffset true
        if !manufacturer then return false
        else scanNonPadding (handler - diskFirmwareBase) 64 false

end CsmVgaSelector
