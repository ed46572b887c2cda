import CsmVgaSelector.Proof.Journal

/-!
# What a plan promises

A plan that succeeds gives priority zero to the selected disk and to nothing else, and keeps the
priority of every row the transaction may not touch. Both come from one fact about the ranking passes:
a pass writes only to rows that are not ranked yet, and a row is ranked once.
-/

namespace CsmVgaSelector

variable {rom : RomEvidence} {context : BootTargetContext} {journal : List BbsTable}

theorem lt_bbsCount_of_eligible {index : Nat}
    (h : legacyBootBbsIndexIsTransactionEligible rom context index = true) :
    index < context.bbsCount := by
  unfold legacyBootBbsIndexIsTransactionEligible at h
  split at h
  case h_1 => simp at h
  split at h
  case isTrue => simp at h
  case isFalse hindex => omega

/-- The candidate that the inner loop settles on is one of the rows it looked at. -/
theorem planCandidate_of_findBest {pass : Nat} {ranked : List Bool} {rows : List Nat}
    {best : Option Nat} {index : Nat}
    (h : findBest rom context journal pass ranked rows best = .ok (some index)) :
    best = some index ∨ planCandidate rom context journal pass ranked index = true := by
  induction rows generalizing best with
  | nil => exact .inl (by simpa [findBest] using h)
  | cons row rest ih =>
      unfold findBest at h
      split at h
      case isTrue => exact ih h
      case isFalse hcandidate =>
        split at h
        case isTrue => simp at h
        have hrow : planCandidate rom context journal pass ranked row = true := by
          simpa using hcandidate
        cases best with
        | none =>
            rcases ih h with hbest | hindex
            · obtain rfl : row = index := by simpa using hbest
              exact .inr hrow
            · exact .inr hindex
        | some bestIndex =>
            rcases ih h with hbest | hindex
            · rw [Option.some.injEq] at hbest
              split at hbest
              · exact .inr (hbest ▸ hrow)
              · exact .inl (congrArg some hbest)
            · exact .inr hindex

/-- The later state has the rows the earlier one ranked, with the same priorities. -/
structure PlanState.Extends (later earlier : PlanState) : Prop where
  planned_length : later.planned.length = earlier.planned.length
  ranked_length : later.ranked.length = earlier.ranked.length
  ranked : ∀ index : Nat, earlier.ranked[index]! = true → later.ranked[index]! = true
  planned : ∀ index : Nat, earlier.ranked[index]! = true →
    later.planned[index]! = earlier.planned[index]!

theorem PlanState.Extends.refl (state : PlanState) : state.Extends state :=
  ⟨rfl, rfl, fun _ h => h, fun _ _ => rfl⟩

theorem PlanState.Extends.trans {first second third : PlanState} (h : third.Extends second)
    (h' : second.Extends first) : third.Extends first where
  planned_length := h.planned_length.trans h'.planned_length
  ranked_length := h.ranked_length.trans h'.ranked_length
  ranked index hindex := h.ranked index (h'.ranked index hindex)
  planned index hindex := (h.planned index (h'.ranked index hindex)).trans (h'.planned index hindex)

theorem getElem!_set_of_ne {α : Type} [Inhabited α] {list : List α} {row index : Nat} {value : α}
    (h : row ≠ index) : (list.set row value)[index]! = list[index]! := by
  simp [List.getElem!_eq_getElem?_getD, List.getElem?_set_ne h]

theorem getElem!_set_self {α : Type} [Inhabited α] {list : List α} {index : Nat} {value : α}
    (h : index < list.length) : (list.set index value)[index]! = value := by
  simp [h]

/-- A pass keeps what is ranked. -/
theorem rankPass_extends {pass turns : Nat} {state : PlanState} :
    (rankPass rom context journal pass turns state).2.Extends state := by
  induction turns generalizing state with
  | zero => exact .refl state
  | succ turns ih =>
      unfold rankPass
      split
      case h_1 => exact .refl state
      case h_2 => exact .refl state
      case h_3 best hbest =>
        split
        case isTrue => exact .refl state
        refine ih.trans ?_
        have hcandidate : planCandidate rom context journal pass state.ranked best = true := by
          simpa using planCandidate_of_findBest hbest
        have hfresh : state.ranked[best]! = false := by
          simp only [planCandidate, Bool.and_eq_true, Bool.not_eq_true'] at hcandidate
          exact hcandidate.1.1
        have hne {index : Nat} (hranked : state.ranked[index]! = true) : best ≠ index := by
          rintro rfl
          simp [hfresh] at hranked
        exact { planned_length := List.length_set
                ranked_length := List.length_set
                ranked := fun index hranked => by
                  rw [getElem!_set_of_ne (hne hranked)]
                  exact hranked
                planned := fun index hranked => getElem!_set_of_ne (hne hranked) }

/-- What a successful plan is, beyond the order of the ranks. -/
structure SoundPlan (rom : RomEvidence) (context : BootTargetContext) (journal : List BbsTable)
    (planned : List UInt16) : Prop where
  length : planned.length = context.bbsCount
  selected : planned[context.liveBbsIndex]! = 0
  others : ∀ index < context.bbsCount, index ≠ context.liveBbsIndex → planned[index]! ≠ 0
  preserved : ∀ index < context.bbsCount,
    legacyBootBbsIndexIsTransactionEligible rom context index = false →
      planned[index]! = journal[index]!.bootPriority

/-- **A successful plan is sound.** -/
theorem soundPlan_of_priorityPlan {planned : List UInt16}
    (hindex : context.liveBbsIndex < context.bbsCount)
    (h : priorityPlan rom context journal = (.success, planned)) :
    SoundPlan rom context journal planned := by
  unfold priorityPlan at h
  split at h
  case isTrue => simp at h
  case isFalse heligible =>
    have heligible : legacyBootBbsIndexIsTransactionEligible rom context context.liveBbsIndex =
        true := by simpa using heligible
    split at h
    case h_1 status first hfirst =>
    split at h
    case isTrue herror =>
      cases h
      simp at herror
    split at h
    case h_1 status' second hsecond =>
    split at h
    case isTrue herror =>
      cases h
      simp at herror
    split at h
    case isTrue => simp at h
    case isFalse hzero =>
      obtain rfl : second.planned = planned := by simpa using h
      have hextends : second.Extends (selectedPlan rom context journal) := by
        have hfirst' : first.Extends (selectedPlan rom context journal) := by
          rw [← show (rankPass rom context journal 0 context.bbsCount _).2 = first from
            congrArg Prod.snd hfirst]
          exact rankPass_extends
        have hsecond' : second.Extends first := by
          rw [← show (rankPass rom context journal 1 context.bbsCount _).2 = second from
            congrArg Prod.snd hsecond]
          exact rankPass_extends
        exact hsecond'.trans hfirst'
      have hlive : (selectedPlan rom context journal).ranked[context.liveBbsIndex]! = true := by
        simp [selectedPlan, initialPlan, hindex]
      refine { length := ?_, selected := ?_, others := ?_, preserved := ?_ }
      · simpa [selectedPlan, initialPlan] using hextends.planned_length
      · rw [hextends.planned _ hlive]
        simp [selectedPlan, initialPlan, hindex]
      · simpa [planHasOtherZero] using hzero
      · intro index hlt hineligible
        have hne : context.liveBbsIndex ≠ index := by
          rintro rfl
          simp [heligible] at hineligible
        have hranked : (selectedPlan rom context journal).ranked[index]! = true := by
          simp only [selectedPlan, getElem!_set_of_ne hne]
          simp [initialPlan, hlt, hineligible]
        rw [hextends.planned _ hranked]
        simp only [selectedPlan, getElem!_set_of_ne hne]
        simp [initialPlan, hlt, hineligible]

end CsmVgaSelector
