import CsmVgaSelector.Bytes

/-!
# The placement contract of a ROM

A second, independent reader looks at the bytes of the one image that was selected, for what its PCI data
says about the size it needs while it runs.
-/

namespace CsmVgaSelector

structure NcvRomPlacementFacts where
  valid : Nat := 0
  revision : Nat := 0
  imageBytes : Nat := 0
  maxRuntimeBytes : Nat := 0
  deriving DecidableEq, Repr

/-- The sum of the first bytes, as the loop masks it. -/
def placementSum (rom : List UInt8) (bytes : Nat) : Nat :=
  (List.range bytes).foldl (fun sum index => (sum + rom[index]!.toNat) % 256) 0

/-- The facts of the ROM whose bytes these are. -/
def ncvRomPlacementReadFacts (rom : List UInt8) : NcvRomPlacementFacts :=
  let bytes := rom.length
  if bytes < 512 ∨ bytes > 65536 ∨ bytes % 512 ≠ 0 ∨ rom[0]! ≠ 0x55 ∨ rom[1]! ≠ 0xAA then {}
  else
    let initBytes := rom[2]!.toNat * 512
    let pcir := (readLe16 rom 0x18).toNat
    if initBytes = 0 ∨ initBytes > bytes ∨ pcir < 0x1C ∨ pcir > initBytes ∨ 0x18 > initBytes - pcir then
      {}
    else if rom[pcir]! ≠ 0x50 ∨ rom[pcir + 1]! ≠ 0x43 ∨ rom[pcir + 2]! ≠ 0x49 ∨ rom[pcir + 3]! ≠ 0x52 ∨
        rom[pcir + 0x14]! ≠ 0 ∨ (readLe16 rom (pcir + 0x10)).toNat * 512 ≠ bytes then
      {}
    else
      let length := (readLe16 rom (pcir + 0x0A)).toNat
      let revision := rom[pcir + 0x0C]!.toNat
      if length < 0x18 ∨ length > initBytes - pcir ∨ revision ≥ 3 ∧ length < 0x1C then {}
      else if placementSum rom bytes ≠ 0 then {}
      else if placementSum rom initBytes ≠ 0 then {}
      else if revision < 3 then { valid := 1, revision, imageBytes := bytes }
      else
        let maxRuntimeBytes := (readLe16 rom (pcir + 0x16)).toNat * 512
        if maxRuntimeBytes > initBytes ∨ maxRuntimeBytes ≠ 0 ∧ maxRuntimeBytes < pcir + length then
          { valid := 0, revision, imageBytes := bytes, maxRuntimeBytes }
        else { valid := 1, revision, imageBytes := bytes, maxRuntimeBytes }

end CsmVgaSelector
