import Mathlib.Algebra.Ring.Nat
import Mathlib.Tactic.Common

/-!
# Little-endian fields of byte buffers
-/

namespace CsmVgaSelector

/-- The largest native word; the program is built for 64-bit machines. -/
def maxUintn : Nat := 2 ^ 64 - 1

def readLe16 (bytes : List UInt8) (offset : Nat) : UInt16 :=
  bytes[offset]!.toUInt16 ||| bytes[offset + 1]!.toUInt16 <<< 8

theorem readLe16_drop {bytes : List UInt8} {offset count : Nat} :
    readLe16 (bytes.drop offset) count = readLe16 bytes (offset + count) := by
  simp only [readLe16, List.getElem!_eq_getElem?_getD, List.getElem?_drop, Nat.add_assoc]

/-- The two bytes of a word that was read. -/
theorem readLe16_toNat {bytes : List UInt8} {index : Nat} :
    (readLe16 bytes index).toNat = bytes[index]!.toNat + 256 * bytes[index + 1]!.toNat := by
  have hlow := bytes[index]!.toNat_lt
  have hhigh := bytes[index + 1]!.toNat_lt
  rw [readLe16, UInt16.toNat_or, UInt16.toNat_shiftLeft]
  simp only [UInt8.toNat_toUInt16]
  rw [show (8 : UInt16).toNat % 16 = 8 from rfl, Nat.mod_eq_of_lt]
  · rw [Nat.or_comm, ← Nat.shiftLeft_add_eq_or_of_lt hlow, Nat.shiftLeft_eq]
    omega
  · rw [Nat.shiftLeft_eq]
    omega

theorem readLe16_eq_iff {bytes : List UInt8} {index : Nat} {word : UInt16} :
    readLe16 bytes index = word ↔ bytes[index]!.toNat + 256 * bytes[index + 1]!.toNat = word.toNat := by
  rw [← UInt16.toNat_inj, readLe16_toNat]

theorem readLe16_eq_zero {bytes : List UInt8} {index : Nat} :
    readLe16 bytes index = 0 ↔ bytes[index]! = 0 ∧ bytes[index + 1]! = 0 := by
  rw [readLe16_eq_iff, ← UInt8.toNat_inj, ← UInt8.toNat_inj]
  change _ = 0 ↔ _ = 0 ∧ _ = 0
  omega

theorem readLe16_eq_ones {bytes : List UInt8} {index : Nat} :
    readLe16 bytes index = 0xFFFF ↔ bytes[index]! = 0xFF ∧ bytes[index + 1]! = 0xFF := by
  have hlow := bytes[index]!.toNat_lt
  have hhigh := bytes[index + 1]!.toNat_lt
  rw [readLe16_eq_iff, ← UInt8.toNat_inj, ← UInt8.toNat_inj]
  change _ = 65535 ↔ _ = 255 ∧ _ = 255
  omega

end CsmVgaSelector
