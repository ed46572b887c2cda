import CsmVgaSelector.Bbs.Table
import CsmVgaSelector.Pci.BridgePath

/-!
# Resident storage ROMs

A disk whose option ROM leaves its status flags zero is corroborated by the ROM in shadow memory that its
boot handler points into: the ROM must be as it was when the snapshot was taken, belong to the one PCI
controller of the entry, and have exactly one PnP header that names the entry's handler and strings.
Before the boot the storage ROMs are compared with live memory once more.

Offsets count from the start of shadow memory at `C0000`. Without a prepared snapshot nothing matches, and
there is nothing to verify. The message logged on a change decides nothing, and is left out.
-/

namespace CsmVgaSelector

def shadowBase : Nat := 0xC0000
def shadowBytes : Nat := 0x20000
def blockBytes : Nat := 512
def maxPnpHeaders : Nat := 32

/-- `LEGACY_PCI_IDENTITY`: the part of an inventory record that is kept. -/
structure LegacyPciIdentity where
  locationStatus : EfiStatus
  configStatus : EfiStatus
  segment : Nat
  bus : Nat
  device : Nat
  function : Nat
  config : List UInt8
  deriving DecidableEq

structure StorageRomState where
  snapshot : Nat → UInt8
  valid : Nat → UInt8
  devices : List LegacyPciIdentity

def copyLegacyPciIdentities (inventory : PciInventory) : List LegacyPciIdentity :=
  inventory.map fun source =>
    { locationStatus := source.locationStatus
      configStatus := source.configStatus
      segment := source.segment
      bus := source.bus
      device := source.device
      function := source.function
      config := source.config.take 12 }

/-- The state for a snapshot of shadow memory and of the blocks that could be read, with what the two
allocations were granted. -/
def legacyStorageRomPrepare (stateGranted devicesGranted : Bool) (snapshot validBlocks : Nat → UInt8)
    (inventory : PciInventory) : Except EfiStatus StorageRomState :=
  if !stateGranted then .error .outOfResources
  else if inventory ≠ [] ∧ devicesGranted = false then .error .outOfResources
  else
    .ok { snapshot, valid := validBlocks, devices := copyLegacyPciIdentities inventory }

def le16 (memory : Nat → UInt8) (offset : Nat) : UInt16 :=
  (memory offset).toUInt16 ||| (memory (offset + 1)).toUInt16 <<< 8

/-- `CompareMem` of a piece of memory with a text. -/
def memoryHolds (memory : Nat → UInt8) (offset : Nat) (text : List UInt8) : Bool :=
  (List.range text.length).all fun index => memory (offset + index) == text[index]!

/-- `CompareMem` of two views of the same piece of memory. -/
def sameMemory (memory memory' : Nat → UInt8) (offset bytes : Nat) : Bool :=
  (List.range bytes).all fun index => memory (offset + index) == memory' (offset + index)

section

variable (state : StorageRomState)

def romReadable (offset bytes : Nat) : Bool :=
  !(bytes == 0 || decide (offset ≥ shadowBytes) || decide (bytes > shadowBytes - offset)) &&
    (List.range ((offset + bytes - 1) / blockBytes + 1)).all fun block =>
      decide (block < offset / blockBytes) || state.valid block == 1

/-- The ROM at the offset: its size and the offset of its PCI data. -/
def rom (offset : Nat) : Option (Nat × Nat) :=
  if !romReadable state offset 0x1C then none
  else if state.snapshot offset ≠ 0x55 ∨ state.snapshot (offset + 1) ≠ 0xAA then none
  else
    let bytes := (state.snapshot (offset + 2)).toNat * blockBytes
    if !romReadable state offset bytes then none
    else
      let pcir := (le16 state.snapshot (offset + 0x18)).toNat
      if pcir < 0x1C ∨ pcir > bytes ∨ 0x18 > bytes - pcir then none
      else
        let length := (le16 state.snapshot (offset + pcir + 0x0A)).toNat
        let vendor := le16 state.snapshot (offset + pcir + 4)
        if memoryHolds state.snapshot (offset + pcir) [0x50, 0x43, 0x49, 0x52] && length ≥ 0x18 &&
            length ≤ bytes - pcir && state.snapshot (offset + pcir + 0x14) == 0 && vendor != 0 &&
            vendor != 0xFFFF then
          some (bytes, pcir)
        else none

/-- From this index of the ROM, with so many more allowed, a printable string ends: with a byte before its
end, if it has not begun yet. -/
def scanRomString (offset bytes start : Nat) : Nat → Nat → Bool
  | 0, _ => false
  | limit + 1, index =>
      if index ≥ bytes then false
      else if state.snapshot (offset + index) == 0 then decide (index > start)
      else if state.snapshot (offset + index) < 0x20 || state.snapshot (offset + index) > 0x7E then
        false
      else scanRomString offset bytes start limit (index + 1)

def romString (offset bytes : Nat) (start : UInt16) (optional : Bool) : Bool :=
  if start == 0 then optional
  else if start.toNat ≥ bytes then false
  else scanRomString state offset bytes start.toNat 128 start.toNat

/-- A header that names the entry's class, handler and strings. -/
def pnpNames (entry : BbsTable) (offset bytes header : Nat) : Bool :=
  let field := fun place => le16 state.snapshot (offset + header + place)
  entry.class_ == state.snapshot (offset + header + 18) &&
    entry.subClass == state.snapshot (offset + header + 19) &&
    entry.descStringOffset == field 16 && entry.mfgStringOffset == field 14 &&
    (entry.bootHandlerOffset == field 22 || entry.bootHandlerOffset == field 26) &&
    romString state offset bytes (field 16) false && romString state offset bytes (field 14) true

/-- A PnP header that stands in its ROM and sums to zero. -/
def pnpIsSound (offset bytes header : Nat) : Bool :=
  let length := (state.snapshot (offset + header + 5)).toNat * 16
  memoryHolds state.snapshot (offset + header) [0x24, 0x50, 0x6E, 0x50] &&
    state.snapshot (offset + header + 4) == 1 && length ≥ 32 && length ≤ bytes - header &&
    (List.range length).foldl (fun sum index => sum + state.snapshot (offset + header + index)) 0 == 0

/-- The chain of PnP headers from this one: how many name the entry, and whether the last of these names
no manufacturer; nothing when the chain is broken, comes round or has too many headers. -/
def scanPnp (entry : BbsTable) (offset bytes : Nat) :
    Nat → List Nat → Nat → Nat × Bool → Option (Nat × Bool)
  | turns, seen, header, found =>
      if header = 0 then some found
      else
        match turns with
        | 0 => none
        | turns + 1 =>
            if header < 0x1C ∨ header > bytes ∨ 32 > bytes - header then none
            else if header ∈ seen then none
            else if !pnpIsSound state offset bytes header then none
            else
              let found' :=
                if pnpNames state entry offset bytes header then
                  (found.1 + 1, le16 state.snapshot (offset + header + 14) == 0)
                else found
              scanPnp entry offset bytes turns (header :: seen)
                (le16 state.snapshot (offset + header + 6)).toNat found'

/-- The controller has the identity in the ROM's PCI data. -/
def identityMatches (device : LegacyPciIdentity) (offset pcir : Nat) : Bool :=
  readLe16 device.config 0 == le16 state.snapshot (offset + pcir + 4) &&
    readLe16 device.config 2 == le16 state.snapshot (offset + pcir + 6)

/-- The entry has one controller, and the ROM is that controller's. -/
def romIsControllers (entry : BbsTable) (offset pcir : Nat) : Bool :=
  match state.devices.filter fun device => !device.locationStatus.isError &&
      device.bus == entry.bus.toNat && device.device == entry.device.toNat &&
      device.function == entry.function.toNat with
  | [device] =>
      device.segment == 0 && !device.configStatus.isError && identityMatches state device offset pcir &&
        device.config[0x0B]! == entry.class_ && device.config[0x0A]! == entry.subClass
  | _ => false

/-- Where the entry's boot handler says its ROM is. -/
def handlerRom (entry : BbsTable) : Nat := entry.bootHandlerSegment.toNat * 16 - shadowBase

/-- The entry is a mass-storage disk whose handler lies in a block of shadow memory. -/
def entryInShadow (entry : BbsTable) : Bool :=
  let address := entry.bootHandlerSegment.toNat * 16
  entry.deviceType == bbsHardDisk && entry.class_ == 1 && entry.bus ≤ 255 && entry.device ≤ 31 &&
    entry.function ≤ 7 && address ≥ shadowBase && address < shadowBase + shadowBytes &&
    address % blockBytes == 0

/-- The entry's handler and strings are in its ROM. -/
def entryInRom (entry : BbsTable) (bytes : Nat) : Bool :=
  entry.descStringSegment == entry.bootHandlerSegment &&
    (entry.mfgStringSegment == entry.bootHandlerSegment ||
      entry.mfgStringSegment == 0 && entry.mfgStringOffset == 0) &&
    entry.bootHandlerOffset != 0 && entry.bootHandlerOffset.toNat < bytes

/-- One header names the entry; whether it names no manufacturer. -/
def pnpVerdict : Option (Nat × Bool) → Bool × Bool
  | some (count, missingMfg) => (count == 1, count == 1 && missingMfg)
  | none => (false, false)

/-- Whether the entry matches its ROM, and whether it then names no manufacturer. -/
def legacyStorageRomMatch (live : Nat → UInt8) (entry : BbsTable) : Bool × Bool :=
  if !entryInShadow entry then (false, false)
  else
    match rom state (handlerRom entry) with
    | none => (false, false)
    | some (bytes, pcir) =>
        if !sameMemory state.snapshot live (handlerRom entry) bytes || !entryInRom entry bytes ||
            !romIsControllers state entry (handlerRom entry) pcir then
          (false, false)
        else
          pnpVerdict (scanPnp state entry (handlerRom entry) bytes maxPnpHeaders []
            (le16 state.snapshot (handlerRom entry + 0x1A)).toNat (0, false))

/-- The ROM belongs to a mass-storage controller of the inventory. -/
def romIsStorage (offset pcir : Nat) : Bool :=
  state.devices.any fun device => !device.configStatus.isError && device.config[0x0B]! == 1 &&
    identityMatches state device offset pcir

/-- The size of the storage ROM at the offset. -/
def storageRom (offset : Nat) : Option Nat :=
  match rom state offset with
  | none => none
  | some (bytes, pcir) => if romIsStorage state offset pcir then some bytes else none

/-- A storage ROM has a whole number of blocks, and at least one. -/
theorem storageRom_bytes {state : StorageRomState} {offset bytes : Nat}
    (h : storageRom state offset = some bytes) : 0 < bytes ∧ bytes % blockBytes = 0 := by
  unfold storageRom at h
  split at h
  case h_1 => cases h
  case h_2 romBytes pcir hrom =>
    split at h
    case isFalse => cases h
    cases h
    unfold rom at hrom
    dsimp only at hrom
    split at hrom
    case isTrue => cases hrom
    split at hrom
    case isTrue => cases hrom
    split at hrom
    case isTrue => cases hrom
    case isFalse hreadable =>
      rw [Bool.not_eq_true, Bool.not_eq_false'] at hreadable
      split at hrom
      case isTrue => cases hrom
      split at hrom
      case isFalse => cases hrom
      cases hrom
      simp only [romReadable, Bool.and_eq_true, Bool.not_eq_true', Bool.or_eq_false_iff,
        beq_eq_false_iff_ne] at hreadable
      exact ⟨Nat.pos_of_ne_zero hreadable.1.1.1, Nat.mul_mod_left _ _⟩

/-- The scan of shadow memory from this offset; a storage ROM that compares equal is jumped over. -/
def verifyFrom (live : Nat → UInt8) (offset : Nat) : EfiStatus :=
  if offset < shadowBytes then
    match _hrom : storageRom state offset with
    | none => verifyFrom live (offset + blockBytes)
    | some bytes =>
        if !sameMemory state.snapshot live offset bytes then .crcError
        else verifyFrom live (offset + bytes)
  else .success
  termination_by shadowBytes - offset
  decreasing_by
    · unfold blockBytes
      omega
    · have hpos := (storageRom_bytes _hrom).1
      omega

end

def StorageRomState.legacyStorageRomVerify (state : StorageRomState) (live : Nat → UInt8) : EfiStatus :=
  verifyFrom state live 0

end CsmVgaSelector
