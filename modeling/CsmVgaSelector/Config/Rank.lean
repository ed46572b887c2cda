import CsmVgaSelector.Config.Candidate

/-!
# Ranking of the displays
-/

namespace CsmVgaSelector

def addressLess (left right : PciAddress) : Bool :=
  if left.segment ≠ right.segment then left.segment < right.segment
  else if left.bus ≠ right.bus then left.bus < right.bus
  else if left.device ≠ right.device then left.device < right.device
  else left.function < right.function

/-- What is not known ranks as associated. -/
def gopRank (candidate : NcvDisplayCandidate) : Nat :=
  if !candidate.gopAssociationKnown then 1 else if candidate.gopAssociated then 1 else 0

/-- What is not known ranks as active. -/
def activeVgaRank (candidate : NcvDisplayCandidate) : Nat :=
  if !candidate.activeLegacyVgaOwnerKnown then 1 else if candidate.activeLegacyVgaOwner then 1 else 0

def displayEligible (item : NcvDisplayCandidate) : Bool :=
  item.addressValid && !(item.activeLegacyVgaOwnerKnown && item.activeLegacyVgaOwner) &&
    item.acceptedLegacyRom && item.pathDiscovered && item.pathValidated

def displayRanksBefore (item best : NcvDisplayCandidate) : Bool :=
  activeVgaRank item < activeVgaRank best ||
    activeVgaRank item == activeVgaRank best && gopRank item < gopRank best ||
    activeVgaRank item == activeVgaRank best && gopRank item == gopRank best &&
      addressLess item.address best.address

/-- The loop over the items, for `Best`. -/
def selectDisplay (items : List NcvDisplayCandidate) : Option Nat :=
  (items.zipIdx.foldl (fun best (item, index) =>
    if !displayEligible item then best
    else
      match best with
      | none => some (item, index)
      | some (bestItem, bestIndex) =>
          if displayRanksBefore item bestItem then some (item, index) else some (bestItem, bestIndex))
    none).map Prod.snd

/-- The candidates as they are left, and the index of the one selected. -/
def ncvRankDisplays (items : List NcvDisplayCandidate) : Option (List NcvDisplayCandidate × Option Nat) :=
  if items.length > maxDisplayCandidates then none
  else
    let best := selectDisplay items
    some
      (items.mapIdx fun index item =>
        { item with eligible := displayEligible item, selected := best == some index }, best)

end CsmVgaSelector
