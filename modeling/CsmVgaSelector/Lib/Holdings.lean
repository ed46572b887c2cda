import CsmVgaSelector.Lib.Prog

/-!
# Memory that is borrowed

The holdings of a program are the blocks that it was given, with their sizes. They stay sound as long as the
program gives back only what it holds, and hands out only what it holds in full.
-/

namespace CsmVgaSelector

structure Holdings where
  /-- The last block that was taken comes first. -/
  held : List (Nat × Nat)
  sound : Bool
  deriving DecidableEq

namespace Holdings

variable {holdings : Holdings} {block bytes : Nat}

def empty : Holdings := ⟨[], true⟩

def take (holdings : Holdings) (block bytes : Nat) : Holdings :=
  { holdings with held := (block, bytes) :: holdings.held }

def giveBack (holdings : Holdings) (block : Nat) : Holdings where
  held := holdings.held.eraseP fun entry => entry.1 == block
  sound := holdings.sound && holdings.held.any fun entry => entry.1 == block

/-- Somebody else is given the block, as one of so many bytes. -/
def lend (holdings : Holdings) (block bytes : Nat) : Holdings :=
  { holdings with sound := holdings.sound && holdings.held.any fun entry => entry.1 == block && bytes ≤ entry.2 }

@[simp] theorem lend_take : (holdings.take block bytes).lend block bytes = holdings.take block bytes := by
  simp [take, lend]

@[simp] theorem giveBack_take : (holdings.take block bytes).giveBack block = holdings := by
  simp [take, giveBack]

end Holdings

namespace Prog

variable {ω α : Type} {A : ω → Prop} {block bytes : Nat} {Q : Nat → Holdings → Prop} {holdings : Holdings}

/-- An allocation, of which the answer is the block or zero. -/
def allocate (pointer : ω → Nat) (bytes : Nat) : Prog ω Holdings Nat := do
  let answer ← call
  if pointer answer ≠ 0 then modify (·.take (pointer answer) bytes)
  return pointer answer

/-- It gives no block, or takes it. -/
theorem Wp.allocate {pointer : ω → Nat} (hnone : Q 0 holdings)
    (hsome : ∀ block, block ≠ 0 → Q block (holdings.take block bytes)) :
    Wp A (allocate pointer bytes) Q holdings := by
  refine wp_bind.mpr (wp_call.mpr fun answer _ => ?_)
  by_cases hnull : pointer answer ≠ 0
  · rw [if_pos hnull]
    exact hsome _ hnull
  · rw [if_neg hnull, not_not.mp hnull]
    exact hnone

end Prog

end CsmVgaSelector
