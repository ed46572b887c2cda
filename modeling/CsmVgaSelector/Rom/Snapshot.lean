import CsmVgaSelector.Lib.Peek

/-!
# Reading a snapshot

The ROMs of shadow memory and the firmware above it are looked at in a snapshot of 512-byte blocks, of which
only some could be read, and compared with the area as it is now. Each read names the memory it goes to.
-/

namespace CsmVgaSelector

open Peek

/-- A byte of the snapshot, an entry of its map of valid blocks, or a byte of the area as it is now. -/
inductive SnapshotPlace where
  | snapshot (offset : Nat)
  | valid (block : Nat)
  | live (offset : Nat)
  deriving DecidableEq

abbrev SnapshotMemory := SnapshotPlace → UInt8

abbrev SnapshotRead := Peek SnapshotPlace UInt8

/-- So many blocks from this one on could be read. -/
def blocksAreValid : Nat → Nat → SnapshotRead Bool
  | _, 0 => return true
  | block, blocks + 1 => do
      let valid ← peek (.valid block)
      if valid ≠ 1 then return false
      else blocksAreValid (block + 1) blocks

/-- `CompareMem` of the snapshot with the live area. -/
def compareLive : Nat → Nat → SnapshotRead Bool
  | _, 0 => return true
  | offset, bytes + 1 => do
      let was ← peek (.snapshot offset)
      let is ← peek (.live offset)
      if was ≠ is then return false
      else compareLive (offset + 1) bytes

/-- The blocks of a range are those of its bytes. -/
theorem blocks_of_range (valid : Nat → Prop) {offset bytes : Nat} (hpos : 0 < bytes) :
    (∀ index < (offset + bytes - 1) / 512 + 1 - offset / 512, valid (offset / 512 + index)) ↔
      ∀ index < bytes, valid ((offset + index) / 512) := by
  constructor
  · intro h index hindex
    have hblock := h ((offset + index) / 512 - offset / 512) (by omega)
    rwa [Nat.add_sub_cancel' (by omega)] at hblock
  · intro h index hindex
    -- The first byte of the block, or of the range when it begins inside the block.
    have hbyte := h (max offset ((offset / 512 + index) * 512) - offset) (by omega)
    have hsame : (offset + (max offset ((offset / 512 + index) * 512) - offset)) / 512 =
        offset / 512 + index := by
      omega
    rwa [hsame] at hbyte

section

variable {inside : SnapshotPlace → Prop} {memory : SnapshotMemory} {block blocks offset bytes : Nat}

/-- A property of a range is one of its first place and of the range after it. -/
theorem forall_range_succ (p : Nat → Prop) {start count : Nat} :
    (∀ index < count + 1, p (start + index)) ↔
      p start ∧ ∀ index < count, p (start + 1 + index) := by
  rw [Nat.forall_lt_succ_left]
  simp only [Nat.add_zero, Nat.add_assoc, Nat.add_comm 1]

theorem blocksAreValid_decides (hinside : ∀ index < blocks, inside (.valid (block + index))) :
    Decides inside memory (blocksAreValid block blocks)
      (∀ index < blocks, memory (.valid (block + index)) = 1) := by
  induction blocks generalizing block with
  | zero => exact Decides.pure (by simp)
  | succ blocks ih =>
      obtain ⟨hhere, hrest⟩ := (forall_range_succ fun place => inside (.valid place)).mp hinside
      rw [blocksAreValid, forall_range_succ fun place => memory (.valid place) = 1]
      refine Decides.bind (Yields.peek hhere) ?_
      by_cases hvalid : memory (.valid block) = 1
      · rw [if_neg (not_not.mpr hvalid)]
        exact (ih hrest).congr (and_iff_right hvalid).symm
      · rw [if_pos hvalid]
        exact Decides.pure (iff_of_false Bool.false_ne_true fun h => hvalid h.1)

theorem compareLive_decides (hsnapshot : ∀ index < bytes, inside (.snapshot (offset + index)))
    (hlive : ∀ index < bytes, inside (.live (offset + index))) :
    Decides inside memory (compareLive offset bytes)
      (∀ index < bytes, memory (.snapshot (offset + index)) = memory (.live (offset + index))) := by
  induction bytes generalizing offset with
  | zero => exact Decides.pure (by simp)
  | succ bytes ih =>
      rw [forall_range_succ fun place => inside (.snapshot place)] at hsnapshot
      rw [forall_range_succ fun place => inside (.live place)] at hlive
      rw [compareLive, forall_range_succ fun place => memory (.snapshot place) = memory (.live place)]
      refine Decides.bind (Yields.peek hsnapshot.1) (Decides.bind (Yields.peek hlive.1) ?_)
      by_cases hsame : memory (.snapshot offset) = memory (.live offset)
      · rw [if_neg (not_not.mpr hsame)]
        exact (ih hsnapshot.2 hlive.2).congr (and_iff_right hsame).symm
      · rw [if_pos hsame]
        exact Decides.pure (iff_of_false Bool.false_ne_true fun h => hsame h.1)

end

end CsmVgaSelector
