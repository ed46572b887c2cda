import CsmVgaSelector.Bbs.DevOrder

/-!
# The priority plan

The selected disk gets priority zero. The remaining eligible rows are ranked densely from one, the hard
disks in a first pass and everything else in a second; within a pass the order is the LegacyDevOrder
rank where there is one, and otherwise the table's own order (of rows for the disks, of original
priorities for the rest). Ineligible rows keep the priority they have.
-/

namespace CsmVgaSelector

structure PlanState where
  planned : List UInt16
  ranked : List Bool
  nextPriority : UInt16

section

variable (rom : RomEvidence) (context : BootTargetContext) (journal : List BbsTable)

def planCandidate (pass : Nat) (ranked : List Bool) (index : Nat) : Bool :=
  !ranked[index]! && legacyBootBbsIndexIsTransactionEligible rom context index &&
    decide (pass = 0) == (journal[index]!.deviceType == bbsHardDisk)

def candidateOrderRank (index : Nat) : UInt16 :=
  if context.legacyDevOrderUsable then (context.legacyDevOrderRanks.getD [])[index]! else 0xFFFF

/-- Whether the candidate comes before the best one found so far. -/
def betterCandidate (pass index best : Nat) : Bool :=
  if context.legacyDevOrderUsable then
    candidateOrderRank context index < candidateOrderRank context best ||
      candidateOrderRank context index == candidateOrderRank context best && index < best
  else if pass = 0 then index < best
  else
    journal[index]!.bootPriority < journal[best]!.bootPriority ||
      journal[index]!.bootPriority == journal[best]!.bootPriority && index < best

/-- The inner loop: the best candidate among the rows, or the status of one that has no rank. -/
def findBest (pass : Nat) (ranked : List Bool) :
    List Nat → Option Nat → Except EfiStatus (Option Nat)
  | [], best => .ok best
  | index :: rest, best =>
      if !planCandidate rom context journal pass ranked index then
        findBest pass ranked rest best
      else if context.legacyDevOrderUsable && candidateOrderRank context index == 0xFFFF then
        .error .compromisedData
      else
        match best with
        | none => findBest pass ranked rest (some index)
        | some bestIndex =>
            findBest pass ranked rest
              (some (if betterCandidate context journal pass index bestIndex then index
                else bestIndex))

/-- One pass: rank the best candidate until none is left. Each turn ranks a row, so as many turns as
there are rows are enough. -/
def rankPass (pass : Nat) : Nat → PlanState → EfiStatus × PlanState
  | 0, state => (.success, state)
  | turns + 1, state =>
      match findBest rom context journal pass state.ranked (List.range context.bbsCount) none with
      | .error status => (status, state)
      | .ok none => (.success, state)
      | .ok (some best) =>
          if state.nextPriority ≥ bbsDoNotBootFrom then (.outOfResources, state)
          else
            rankPass pass turns
              { planned := state.planned.set best state.nextPriority
                ranked := state.ranked.set best true
                nextPriority := state.nextPriority + 1 }

/-- The rows' planned priorities before any is ranked. -/
def initialPlan : PlanState where
  planned := (List.range context.bbsCount).map fun index =>
    if legacyBootBbsIndexIsTransactionEligible rom context index then bbsUnprioritizedEntry
    else journal[index]!.bootPriority
  ranked := (List.range context.bbsCount).map fun index =>
    !legacyBootBbsIndexIsTransactionEligible rom context index
  nextPriority := 1

/-- The plan with the selected disk at priority zero. -/
def selectedPlan : PlanState :=
  let state := initialPlan rom context journal
  { state with
    planned := state.planned.set context.liveBbsIndex 0
    ranked := state.ranked.set context.liveBbsIndex true }

/-- A row other than the selected one has priority zero, and no authorized write can change it. -/
def planHasOtherZero (planned : List UInt16) : Bool :=
  (List.range context.bbsCount).any fun index =>
    index != context.liveBbsIndex && planned[index]! == 0

/-- The status and the plan as far as it was built. -/
def priorityPlan : EfiStatus × List UInt16 :=
  if !legacyBootBbsIndexIsTransactionEligible rom context context.liveBbsIndex then
    (.notFound, (initialPlan rom context journal).planned)
  else
    let (status, state) := rankPass rom context journal 0 context.bbsCount
      (selectedPlan rom context journal)
    if status.isError then (status, state.planned)
    else
      let (status, state) := rankPass rom context journal 1 context.bbsCount state
      if status.isError then (status, state.planned)
      else if planHasOtherZero context state.planned then (.accessDenied, state.planned)
      else (.success, state.planned)

end

def legacyBootBuildPriorityPlan : Boot EfiStatus := do
  let state ← get
  let context := state.context
  match context.bbsJournal with
  | none => return .invalidParameter
  | some journal =>
      if context.plannedPriorities.isNone || context.expectedPriorities.isNone ||
          context.liveBbsIndex ≥ context.bbsCount ||
          context.legacyDevOrderUsable &&
            (context.legacyDevOrderRanks.isNone || context.legacyDevOrderDisabled.isNone) then
        return .invalidParameter
      let (status, planned) := priorityPlan state.rom context journal
      updateContext fun context =>
        { context with
          expectedPriorities := some (journal.map BbsTable.bootPriority)
          plannedPriorities := some planned
          plannedPriorityCrc32 :=
            if status.isError then context.plannedPriorityCrc32
            else legacyBootBbsPriorityCrc32FromVector planned }
      return status

end CsmVgaSelector
