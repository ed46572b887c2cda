import CsmVgaSelector.Rom.Storage

/-!
# The guard of the legacy ROM area

The ROM of the selected card is copied over the active one. Before that, a snapshot of shadow memory is
searched for anything else the copy would overwrite: another ROM, or the handler of the disk interrupt.
Offsets count from the start of shadow memory; its map of valid blocks says which blocks could be read.
-/

namespace CsmVgaSelector

inductive LegacyRomGuardReason where
  | clear
  | overlap
  | diskHandlerOverlap
  | unreadable
  | unknownLayout
  deriving DecidableEq, Repr

structure LegacyRomGuardResult where
  reason : LegacyRomGuardReason
  activeBytes : Nat := 0
  address : Nat := 0
  bytes : Nat := 0
  vendor : UInt16 := 0
  device : UInt16 := 0
  deriving DecidableEq, Repr

section

variable (shadow valid : Nat → UInt8)

/-- `Readable`: every block of the range could be read. -/
def blocksReadable (offset bytes : Nat) : Bool :=
  !(bytes == 0 || decide (offset ≥ shadowBytes) || decide (bytes > shadowBytes - offset)) &&
    (List.range ((offset + bytes - 1) / blockBytes + 1)).all fun block =>
      decide (block < offset / blockBytes) || valid block == 1

/-- `Extent`: whether a ROM with a size that fits begins here, and the size written on the way. -/
def romExtent (offset : Nat) : Bool × Nat :=
  if !blocksReadable valid offset 3 || shadow offset != 0x55 || shadow (offset + 1) != 0xAA then (false, 0)
  else
    let bytes := (shadow (offset + 2)).toNat * blockBytes
    (bytes != 0 && decide (bytes ≤ shadowBytes - offset), bytes)

/-- `Identity`: whether the ROM has PCI data that names a vendor, and the vendor and the device written on
the way. -/
def romIdentity (offset bytes : Nat) : Bool × UInt16 × UInt16 :=
  if bytes < 0x1C || !blocksReadable valid offset 0x1C then (false, 0, 0)
  else
    let pcir := (le16 shadow (offset + 0x18)).toNat
    if pcir < 0x1C || decide (pcir > bytes) || decide (0x18 > bytes - pcir) ||
        !blocksReadable valid (offset + pcir) 0x18 then
      (false, 0, 0)
    else if !memoryHolds shadow (offset + pcir) [0x50, 0x43, 0x49, 0x52] then (false, 0, 0)
    else
      let length := (le16 shadow (offset + pcir + 0x0A)).toNat
      if length < 0x18 || decide (length > bytes - pcir) || !blocksReadable valid (offset + pcir) length ||
          shadow (offset + pcir + 0x14) != 0 then
        (false, 0, 0)
      else
        let vendor := le16 shadow (offset + pcir + 4)
        (vendor != 0 && vendor != 0xFFFF, vendor, le16 shadow (offset + pcir + 6))

/-- What the scan makes of one block: nothing when it holds no header that stands in the way. -/
def judgeHeader (activeVendor activeDevice : UInt16) (activeBytes offset : Nat) :
    Option LegacyRomGuardResult :=
  if shadow offset ≠ 0x55 ∨ shadow (offset + 1) ≠ 0xAA then none
  else
    let extent := romExtent shadow valid offset
    if !extent.1 then
      if offset < activeBytes then none
      else some { reason := .unknownLayout, activeBytes, address := shadowBase + offset }
    else
      let identity := romIdentity shadow valid offset extent.2
      if offset < activeBytes ∧
          (identity.1 = false ∨ identity.2.1 = activeVendor ∧ identity.2.2 = activeDevice) then
        none
      else
        some
          { reason := .overlap
            activeBytes
            address := shadowBase + offset
            bytes := extent.2
            vendor := identity.2.1
            device := identity.2.2 }

/-- The blocks of the copy from this offset on. -/
def scanShadow (activeVendor activeDevice : UInt16) (activeBytes copyBytes offset : Nat) :
    Option LegacyRomGuardResult :=
  if offset < copyBytes then
    match judgeHeader shadow valid activeVendor activeDevice activeBytes offset with
    | some result => some result
    | none => scanShadow activeVendor activeDevice activeBytes copyBytes (offset + blockBytes)
  else none
  termination_by copyBytes - offset
  decreasing_by
    unfold blockBytes
    omega

def legacyRomGuardInspect (copyBytes : Nat) (activeVendor activeDevice : UInt16) (diskHandler : Nat) :
    LegacyRomGuardResult :=
  if copyBytes = 0 ∨ copyBytes > shadowBytes ∨ copyBytes % blockBytes ≠ 0 ∨ activeVendor = 0 ∨
      activeVendor = 0xFFFF then
    { reason := .unknownLayout, address := shadowBase }
  else if !blocksReadable valid 0 copyBytes then { reason := .unreadable, address := shadowBase }
  else
    let extent := romExtent shadow valid 0
    let identity := romIdentity shadow valid 0 extent.2
    if !extent.1 || !identity.1 || identity.2.1 != activeVendor || identity.2.2 != activeDevice then
      { reason := .unknownLayout, activeBytes := extent.2, address := shadowBase }
    else
      match scanShadow shadow valid activeVendor activeDevice extent.2 copyBytes blockBytes with
      | some result => result
      | none =>
          if diskHandler ≥ shadowBase ∧ diskHandler < shadowBase + copyBytes then
            { reason := .diskHandlerOverlap, activeBytes := extent.2, address := diskHandler, bytes := 1 }
          else { reason := .clear, activeBytes := extent.2 }

end

end CsmVgaSelector
