import CsmVgaSelector.Proof.DevOrder
import CsmVgaSelector.Proof.Plan
import Mathlib.Data.Prod.Lex

/-!
# The order of a plan

One turn of a pass takes the first candidate in an order of the rows (`planKey`), and a pass takes all its
candidates in that order (`rankPass_run`). The two passes after the selected disk rank every eligible row
once, so that the plan succeeds unless the selected disk cannot be attempted or a row that must be
preserved has priority zero (`priorityPlan_meaning`).
-/

namespace CsmVgaSelector

variable {rom : RomEvidence} {context : BootTargetContext} {journal : List BbsTable} {pass : Nat}

/-! ### One turn -/

/-- What the rows are ordered by in a pass, where two rows never tie. -/
def planKey (context : BootTargetContext) (journal : List BbsTable) (pass index : Nat) : ℕ ×ₗ ℕ :=
  toLex
    (if context.legacyDevOrderUsable then (candidateOrderRank context index).toNat
      else if pass = 0 then 0 else journal[index]!.bootPriority.toNat, index)

theorem planKey_injective {index index' : Nat}
    (h : planKey context journal pass index = planKey context journal pass index') :
    index = index' :=
  congrArg (fun key => (ofLex key).2) h

theorem betterCandidate_iff {index best : Nat} :
    betterCandidate context journal pass index best = true ↔
      planKey context journal pass index < planKey context journal pass best := by
  rw [planKey, planKey, Prod.Lex.toLex_lt_toLex]
  unfold betterCandidate
  by_cases husable : context.legacyDevOrderUsable = true
  · simp [husable, UInt16.lt_iff_toNat_lt, UInt16.toNat_inj]
  · by_cases hpass : pass = 0
    · simp [husable, hpass]
    · simp [husable, hpass, UInt16.lt_iff_toNat_lt, UInt16.toNat_inj]

/-- The inner loop finds the first candidate, if there is one. -/
theorem findBest_spec {ranked : List Bool} {rows : List Nat} {best : Option Nat}
    (hgiven : ∀ index ∈ rows, planCandidate rom context journal pass ranked index = true →
      context.legacyDevOrderUsable = true → candidateOrderRank context index ≠ 0xFFFF) :
    ∃ best', findBest rom context journal pass ranked rows best = .ok best' ∧
      (best' = none ↔ best = none ∧
        ∀ index ∈ rows, planCandidate rom context journal pass ranked index = false) ∧
      ∀ found ∈ best',
        (best = some found ∨
          found ∈ rows ∧ planCandidate rom context journal pass ranked found = true) ∧
        (∀ index ∈ rows, planCandidate rom context journal pass ranked index = true →
          planKey context journal pass found ≤ planKey context journal pass index) ∧
        ∀ index ∈ best, planKey context journal pass found ≤ planKey context journal pass index := by
  induction rows generalizing best with
  | nil =>
      refine ⟨best, rfl, by simp, fun found hfound => ?_⟩
      refine ⟨.inl hfound, by simp, fun index hindex => ?_⟩
      rw [Option.mem_unique hindex hfound]
  | cons row rows ih =>
      rw [List.forall_mem_cons] at hgiven
      unfold findBest
      by_cases hrow : planCandidate rom context journal pass ranked row = true
      · rw [if_neg (by simpa using hrow), if_neg (by simpa using hgiven.1 hrow)]
        have hnext : ∀ next : Nat, planKey context journal pass next ≤ planKey context journal pass row →
            (best = some next ∨ next = row) →
            (∀ index ∈ best, planKey context journal pass next ≤ planKey context journal pass index) →
            ∃ best', findBest rom context journal pass ranked rows (some next) = .ok best' ∧
              (best' = none ↔ best = none ∧ ∀ index ∈ row :: rows,
                planCandidate rom context journal pass ranked index = false) ∧
              ∀ found ∈ best', (best = some found ∨
                  found ∈ row :: rows ∧
                    planCandidate rom context journal pass ranked found = true) ∧
                (∀ index ∈ row :: rows, planCandidate rom context journal pass ranked index = true →
                  planKey context journal pass found ≤ planKey context journal pass index) ∧
                ∀ index ∈ best,
                  planKey context journal pass found ≤ planKey context journal pass index := by
          intro next hle hfrom hbest
          obtain ⟨best', hfind, hnone, hsome⟩ := @ih (some next) hgiven.2
          refine ⟨best', hfind, ?_, fun found hfound => ?_⟩
          · rw [hnone]
            simp [hrow]
          · obtain ⟨hfound', hrows, hnext⟩ := hsome found hfound
            have hfirst := hnext next rfl
            refine ⟨?_, ?_, fun index hindex => hfirst.trans (hbest index hindex)⟩
            · rcases hfound' with hsame | ⟨hmem, hcandidate⟩
              · obtain rfl := Option.some.inj hsame
                exact hfrom.imp id fun hrowSame => by
                  subst hrowSame
                  exact ⟨List.mem_cons_self .., hrow⟩
              · exact .inr ⟨List.mem_cons_of_mem _ hmem, hcandidate⟩
            · rw [List.forall_mem_cons]
              exact ⟨fun _ => hfirst.trans hle, hrows⟩
        cases best with
        | none => exact hnext row le_rfl (.inr rfl) (by simp)
        | some bestIndex =>
            dsimp only
            by_cases hbetter : betterCandidate context journal pass row bestIndex = true
            · rw [if_pos hbetter]
              refine hnext row le_rfl (.inr rfl) ?_
              rintro _ ⟨⟩
              exact (betterCandidate_iff.mp hbetter).le
            · rw [if_neg hbetter]
              refine hnext bestIndex ?_ (.inl rfl) ?_
              · exact not_lt.mp fun hlt => hbetter (betterCandidate_iff.mpr hlt)
              · rintro _ ⟨⟩
                exact le_rfl
      · rw [if_pos (by simpa using hrow)]
        obtain ⟨best', hfind, hnone, hsome⟩ := @ih best hgiven.2
        refine ⟨best', hfind, ?_, fun found hfound => ?_⟩
        · rw [hnone, List.forall_mem_cons]
          simp [hrow]
        · obtain ⟨hfound', hrows, hbest⟩ := hsome found hfound
          refine ⟨hfound'.imp id (And.imp_left (List.mem_cons_of_mem _)), ?_, hbest⟩
          rw [List.forall_mem_cons]
          exact ⟨fun hcontra => absurd hcontra hrow, hrows⟩

/-! ### One pass -/

/-- The rows that a pass still has to rank. -/
def candidates (rom : RomEvidence) (context : BootTargetContext) (journal : List BbsTable)
    (pass : Nat) (ranked : List Bool) : List Nat :=
  (List.range context.bbsCount).filter (planCandidate rom context journal pass ranked)

theorem mem_candidates {ranked : List Bool} {index : Nat} :
    index ∈ candidates rom context journal pass ranked ↔
      index < context.bbsCount ∧ planCandidate rom context journal pass ranked index = true := by
  simp [candidates]

theorem length_candidates_le {ranked : List Bool} :
    (candidates rom context journal pass ranked).length ≤ context.bbsCount := by
  rw [candidates]
  exact (List.length_filter_le _ _).trans_eq (by simp)

/-- A pass has ranked these rows, in this order. -/
structure PassRun (rom : RomEvidence) (context : BootTargetContext) (journal : List BbsTable)
    (pass : Nat) (state state' : PlanState) (order : List Nat) : Prop where
  sorted : order.Pairwise fun index index' =>
    planKey context journal pass index < planKey context journal pass index'
  mem : ∀ index, index ∈ order ↔ index ∈ candidates rom context journal pass state.ranked
  ranked : ∀ index : Nat, state'.ranked[index]! = (state.ranked[index]! || decide (index ∈ order))
  planned : ∀ place (h : place < order.length),
    state'.planned[order[place]]!.toNat = state.nextPriority.toNat + place
  others : ∀ index : Nat, index ∉ order → state'.planned[index]! = state.planned[index]!
  next : state'.nextPriority.toNat = state.nextPriority.toNat + order.length
  lengths : state'.planned.length = state.planned.length ∧
    state'.ranked.length = state.ranked.length

theorem sorted_nodup {rows : List Nat} (h : rows.Pairwise fun index index' =>
    planKey context journal pass index < planKey context journal pass index') : rows.Nodup :=
  h.imp fun hlt heq => by
    subst heq
    exact lt_irrefl _ hlt

/-- The rows a pass has ranked are its candidates. -/
theorem PassRun.perm {state state' : PlanState} {order : List Nat}
    (h : PassRun rom context journal pass state state' order) :
    order.Perm (candidates rom context journal pass state.ranked) :=
  (List.perm_ext_iff_of_nodup (sorted_nodup h.sorted) (List.nodup_range.filter _)).mpr h.mem

theorem PassRun.none {state : PlanState}
    (h : ∀ index, index ∉ candidates rom context journal pass state.ranked) :
    PassRun rom context journal pass state state [] := by
  refine ⟨List.Pairwise.nil, fun index => ?_, fun index => ?_, ?_, fun _ _ => rfl, rfl, rfl, rfl⟩
  · simp [h index]
  · simp
  · intro place hplace
    cases hplace

/-- The state after a turn that ranks a row. -/
def PlanState.rank (state : PlanState) (best : Nat) : PlanState where
  planned := state.planned.set best state.nextPriority
  ranked := state.ranked.set best true
  nextPriority := state.nextPriority + 1

/-- A turn leaves the other candidates. -/
theorem candidates_rank {state : PlanState} {best : Nat}
    (hlength : state.ranked.length = context.bbsCount)
    (hbest : best ∈ candidates rom context journal pass state.ranked) :
    candidates rom context journal pass (state.rank best).ranked =
      (candidates rom context journal pass state.ranked).erase best := by
  have hlt : best < state.ranked.length := hlength ▸ (mem_candidates.mp hbest).1
  have hnodup : (candidates rom context journal pass state.ranked).Nodup :=
    List.nodup_range.filter _
  rw [hnodup.erase_eq_filter, candidates, candidates, List.filter_filter]
  apply List.filter_congr
  intro index _
  by_cases hsame : index = best
  · subst hsame
    simp [planCandidate, PlanState.rank, hlt]
  · have hother : (state.rank best).ranked[index]! = state.ranked[index]! :=
      getElem!_set_of_ne fun heq => hsame heq.symm
    simp [planCandidate, hother, hsame]

/-- A turn that ranks the first candidate, and the turns behind it. -/
theorem PassRun.cons {state state' : PlanState} {best : Nat} {order : List Nat}
    (hlengths : state.planned.length = context.bbsCount ∧ state.ranked.length = context.bbsCount)
    (hbest : best ∈ candidates rom context journal pass state.ranked)
    (hfirst : ∀ index ∈ candidates rom context journal pass state.ranked,
      planKey context journal pass best ≤ planKey context journal pass index)
    (hpriority : (state.rank best).nextPriority.toNat = state.nextPriority.toNat + 1)
    (hpass : PassRun rom context journal pass (state.rank best) state' order) :
    PassRun rom context journal pass state state' (best :: order) := by
  have hrest := @candidates_rank rom context journal pass state best hlengths.2 hbest
  have hinTable : best < context.bbsCount := (mem_candidates.mp hbest).1
  have hfresh : best ∉ order := by
    rw [hpass.mem, hrest]
    exact List.Nodup.not_mem_erase (List.nodup_range.filter _)
  constructor
  case sorted =>
    refine List.pairwise_cons.mpr ⟨fun index hindex => ?_, hpass.sorted⟩
    have hother := List.mem_of_mem_erase (hrest ▸ (hpass.mem index).mp hindex)
    refine lt_of_le_of_ne (hfirst index hother) fun hsame => ?_
    obtain rfl := planKey_injective hsame
    exact hfresh hindex
  case mem =>
    intro index
    rw [List.mem_cons, hpass.mem, hrest]
    by_cases hsame : index = best
    · subst hsame
      simp [hbest]
    · rw [List.mem_erase_of_ne hsame]
      simp [hsame]
  case ranked =>
    intro index
    rw [hpass.ranked index]
    by_cases hsame : index = best
    · subst hsame
      simp [PlanState.rank, hlengths.2, hinTable]
    · have hother : (state.rank best).ranked[index]! = state.ranked[index]! :=
        getElem!_set_of_ne fun heq => hsame heq.symm
      simp [hother, hsame]
  case planned =>
    intro place hlt
    cases place with
    | zero =>
        have hself : (state.rank best).planned[best]! = state.nextPriority :=
          getElem!_set_self (hlengths.1 ▸ hinTable)
        rw [List.getElem_cons_zero, hpass.others best hfresh, hself, Nat.add_zero]
    | succ place =>
        rw [List.getElem_cons_succ, hpass.planned place (by simpa using hlt), hpriority]
        omega
  case others =>
    intro index hindex
    rw [List.mem_cons, not_or] at hindex
    have hother : (state.rank best).planned[index]! = state.planned[index]! :=
      getElem!_set_of_ne fun heq => hindex.1 heq.symm
    rw [hpass.others index hindex.2, hother]
  case next =>
    rw [hpass.next, hpriority, List.length_cons]
    omega
  case lengths => simpa [PlanState.rank] using hpass.lengths

/-- The inner loop of a turn finds the first of the rows that the pass still has to rank. -/
theorem findBest_candidates {ranked : List Bool}
    (hgiven : ∀ index ∈ candidates rom context journal pass ranked,
      context.legacyDevOrderUsable = true → candidateOrderRank context index ≠ 0xFFFF) :
    ∃ best, findBest rom context journal pass ranked (List.range context.bbsCount) none = .ok best ∧
      (best = none → candidates rom context journal pass ranked = []) ∧
      ∀ found ∈ best, found ∈ candidates rom context journal pass ranked ∧
        ∀ index ∈ candidates rom context journal pass ranked,
          planKey context journal pass found ≤ planKey context journal pass index := by
  obtain ⟨best, hfind, hnone, hsome⟩ := @findBest_spec rom context journal pass ranked
    (List.range context.bbsCount) none fun index hindex hcandidate =>
      hgiven index (mem_candidates.mpr ⟨List.mem_range.mp hindex, hcandidate⟩)
  refine ⟨best, hfind, fun hempty => ?_, fun found hfound => ?_⟩
  · refine List.filter_eq_nil_iff.mpr fun index hindex => ?_
    rw [(hnone.mp hempty).2 index hindex]
    exact Bool.false_ne_true
  · obtain ⟨hfrom, hfirst, -⟩ := hsome found hfound
    obtain ⟨hmem, hcandidate⟩ := hfrom.resolve_left (by simp)
    refine ⟨mem_candidates.mpr ⟨List.mem_range.mp hmem, hcandidate⟩, fun index hindex => ?_⟩
    obtain ⟨hlt, hother⟩ := mem_candidates.mp hindex
    exact hfirst index (List.mem_range.mpr hlt) hother

/-- **A pass ranks its candidates in their order.** -/
theorem rankPass_run {turns : Nat} {state : PlanState}
    (hgiven : ∀ index ∈ candidates rom context journal pass state.ranked,
      context.legacyDevOrderUsable = true → candidateOrderRank context index ≠ 0xFFFF)
    (hlengths : state.planned.length = context.bbsCount ∧ state.ranked.length = context.bbsCount)
    (hturns : (candidates rom context journal pass state.ranked).length ≤ turns)
    (hnext : state.nextPriority.toNat +
      (candidates rom context journal pass state.ranked).length < 0xFFFC) :
    ∃ state' order, rankPass rom context journal pass turns state = (.success, state') ∧
      PassRun rom context journal pass state state' order := by
  induction turns generalizing state with
  | zero =>
      have hnone : candidates rom context journal pass state.ranked = [] :=
        List.eq_nil_of_length_eq_zero (Nat.le_zero.mp hturns)
      exact ⟨state, [], rfl, .none fun index => by rw [hnone]; exact List.not_mem_nil⟩
  | succ turns ih =>
      obtain ⟨best, hfind, hnone, hsome⟩ := findBest_candidates hgiven
      unfold rankPass
      rw [hfind]
      cases best with
      | none => exact ⟨state, [], rfl, .none fun index => by rw [hnone rfl]; exact List.not_mem_nil⟩
      | some best =>
          obtain ⟨hbest, hfirst⟩ := hsome best rfl
          have hrest := @candidates_rank rom context journal pass state best hlengths.2 hbest
          have hlength : (candidates rom context journal pass (state.rank best).ranked).length + 1 =
              (candidates rom context journal pass state.ranked).length := by
            rw [hrest, List.length_erase_of_mem hbest]
            have hpos := List.length_pos_of_mem hbest
            omega
          have hpriority : (state.rank best).nextPriority.toNat = state.nextPriority.toNat + 1 := by
            show (state.nextPriority + 1).toNat = _
            rw [UInt16.toNat_add]
            show (state.nextPriority.toNat + 1) % 65536 = _
            omega
          obtain ⟨state', order, hrun, hpass⟩ := @ih (state.rank best)
            (fun index hindex => hgiven index (by
              rw [hrest] at hindex
              exact List.mem_of_mem_erase hindex))
            ⟨by simpa [PlanState.rank] using hlengths.1, by simpa [PlanState.rank] using hlengths.2⟩
            (by omega) (by omega)
          have hroom : ¬ state.nextPriority ≥ bbsDoNotBootFrom := by
            rw [ge_iff_le, UInt16.le_iff_toNat_le, not_le]
            show state.nextPriority.toNat < 0xFFFC
            omega
          refine ⟨state', best :: order, ?_, hpass.cons hlengths hbest hfirst hpriority⟩
          dsimp only
          rw [if_neg hroom]
          exact hrun

/-! ### The whole plan -/

/-- The rows the plan ranks, in the table's order. -/
def eligibleIndices (rom : RomEvidence) (context : BootTargetContext) : List Nat :=
  (List.range context.bbsCount).filter (legacyBootBbsIndexIsTransactionEligible rom context)

/-- The plan's order of two rows of one group. -/
def ComesBefore (context : BootTargetContext) (journal : List BbsTable) (index index' : Nat) : Prop :=
  if context.legacyDevOrderUsable then
    candidateOrderRank context index < candidateOrderRank context index'
  else if journal[index]!.deviceType = bbsHardDisk then index < index'
  else
    journal[index]!.bootPriority < journal[index']!.bootPriority ∨
      journal[index]!.bootPriority = journal[index']!.bootPriority ∧ index < index'

/-- What a plan that succeeds is. -/
structure PlanMeaning (rom : RomEvidence) (context : BootTargetContext) (journal : List BbsTable)
    (planned : List UInt16) : Prop where
  length : planned.length = context.bbsCount
  selected : planned[context.liveBbsIndex]! = 0
  dense : ((eligibleIndices rom context).map fun index => planned[index]!.toNat).Perm
    (List.range (eligibleIndices rom context).length)
  disksFirst : ∀ disk ∈ eligibleIndices rom context, ∀ other ∈ eligibleIndices rom context,
    journal[disk]!.deviceType = bbsHardDisk → journal[other]!.deviceType ≠ bbsHardDisk →
      planned[disk]! < planned[other]!
  ordered : ∀ index ∈ eligibleIndices rom context, ∀ index' ∈ eligibleIndices rom context,
    index ≠ context.liveBbsIndex → index' ≠ context.liveBbsIndex →
    (journal[index]!.deviceType = bbsHardDisk ↔ journal[index']!.deviceType = bbsHardDisk) →
      (planned[index]! < planned[index']! ↔ ComesBefore context journal index index')
  preserved : ∀ index < context.bbsCount,
    legacyBootBbsIndexIsTransactionEligible rom context index = false →
      planned[index]! = journal[index]!.bootPriority

theorem mem_eligibleIndices {index : Nat} : index ∈ eligibleIndices rom context ↔
    legacyBootBbsIndexIsTransactionEligible rom context index = true := by
  rw [eligibleIndices, List.mem_filter, List.mem_range]
  exact and_iff_right_of_imp lt_bbsCount_of_eligible

/-- Rows that are numbered in their order are ordered by their numbers. -/
theorem numbered_iff {rows : List Nat} {number : Nat → Nat} {offset : Nat}
    {before : Nat → Nat → Prop} (hsorted : rows.Pairwise before)
    (hirrefl : ∀ index, ¬ before index index)
    (hasymm : ∀ index index', before index index' → ¬ before index' index)
    (hnumber : ∀ place (h : place < rows.length), number rows[place] = offset + place)
    {index index' : Nat} (hindex : index ∈ rows) (hindex' : index' ∈ rows) :
    number index < number index' ↔ before index index' := by
  obtain ⟨place, hplace, rfl⟩ := List.getElem_of_mem hindex
  obtain ⟨place', hplace', rfl⟩ := List.getElem_of_mem hindex'
  rw [hnumber place hplace, hnumber place' hplace', Nat.add_lt_add_iff_left]
  have hpairs := List.pairwise_iff_getElem.mp hsorted
  constructor
  · exact fun hlt => hpairs place place' hplace hplace' hlt
  · intro hbefore
    rcases Nat.lt_trichotomy place place' with hlt | rfl | hgt
    · exact hlt
    · exact absurd hbefore (hirrefl _)
    · exact absurd hbefore (hasymm _ _ (hpairs place' place hplace' hplace hgt))

/-- The rows of a plan in the order of their numbers: the selected disk, the disks, the others. -/
structure PlanRows (rom : RomEvidence) (context : BootTargetContext) (journal : List BbsTable)
    (planned : List UInt16) (disks others : List Nat) : Prop where
  disks_mem : ∀ index, index ∈ disks ↔
    legacyBootBbsIndexIsTransactionEligible rom context index = true ∧
      index ≠ context.liveBbsIndex ∧ journal[index]!.deviceType = bbsHardDisk
  others_mem : ∀ index, index ∈ others ↔
    legacyBootBbsIndexIsTransactionEligible rom context index = true ∧
      journal[index]!.deviceType ≠ bbsHardDisk
  disks_sorted : disks.Pairwise fun index index' =>
    planKey context journal 0 index < planKey context journal 0 index'
  others_sorted : others.Pairwise fun index index' =>
    planKey context journal 1 index < planKey context journal 1 index'
  length : planned.length = context.bbsCount
  selected : planned[context.liveBbsIndex]! = 0
  disks_number : ∀ place (h : place < disks.length), planned[disks[place]]!.toNat = 1 + place
  others_number : ∀ place (h : place < others.length),
    planned[others[place]]!.toNat = 1 + disks.length + place
  preserved : ∀ index < context.bbsCount,
    legacyBootBbsIndexIsTransactionEligible rom context index = false →
      planned[index]! = journal[index]!.bootPriority

theorem selectedPlan_ranked {index : Nat} (hindex : index < context.bbsCount) :
    (selectedPlan rom context journal).ranked[index]! =
      (!legacyBootBbsIndexIsTransactionEligible rom context index ||
        decide (index = context.liveBbsIndex)) := by
  by_cases hsame : index = context.liveBbsIndex
  · subst hsame
    simp [selectedPlan, initialPlan, hindex]
  · simp only [selectedPlan]
    rw [getElem!_set_of_ne fun heq => hsame heq.symm]
    simp [initialPlan, hindex, hsame]

theorem length_selectedPlan : (selectedPlan rom context journal).planned.length = context.bbsCount ∧
    (selectedPlan rom context journal).ranked.length = context.bbsCount := by
  simp [selectedPlan, initialPlan]

/-- The first pass ranks the other disks. -/
theorem mem_candidates_disks {index : Nat} :
    index ∈ candidates rom context journal 0 (selectedPlan rom context journal).ranked ↔
      legacyBootBbsIndexIsTransactionEligible rom context index = true ∧
        index ≠ context.liveBbsIndex ∧ journal[index]!.deviceType = bbsHardDisk := by
  rw [mem_candidates]
  by_cases hindex : index < context.bbsCount
  · simp only [hindex, planCandidate, selectedPlan_ranked hindex, true_and]
    cases legacyBootBbsIndexIsTransactionEligible rom context index <;> simp
  · have hineligible : ¬ legacyBootBbsIndexIsTransactionEligible rom context index = true :=
      mt lt_bbsCount_of_eligible hindex
    simp [hindex, hineligible]

/-- The second pass ranks what is no disk. -/
theorem mem_candidates_others {state : PlanState} {disks : List Nat} {index : Nat}
    (hdisk : journal[context.liveBbsIndex]!.deviceType = bbsHardDisk)
    (hpass : PassRun rom context journal 0 (selectedPlan rom context journal) state disks) :
    index ∈ candidates rom context journal 1 state.ranked ↔
      legacyBootBbsIndexIsTransactionEligible rom context index = true ∧
        journal[index]!.deviceType ≠ bbsHardDisk := by
  have hdisks : index ∈ disks ↔ _ := (hpass.mem index).trans mem_candidates_disks
  rw [mem_candidates]
  by_cases hindex : index < context.bbsCount
  · have hnotLive : journal[index]!.deviceType ≠ bbsHardDisk → index ≠ context.liveBbsIndex := by
      rintro hother rfl
      exact hother hdisk
    simp only [hindex, planCandidate, hpass.ranked, hdisks, selectedPlan_ranked hindex, true_and]
    generalize journal[index]!.deviceType = deviceType at hnotLive ⊢
    by_cases htype : deviceType = bbsHardDisk
    · simp [htype]
    · cases legacyBootBbsIndexIsTransactionEligible rom context index <;>
        simp [htype, hnotLive htype]
  · have hineligible : ¬ legacyBootBbsIndexIsTransactionEligible rom context index = true :=
      mt lt_bbsCount_of_eligible hindex
    simp [hindex, hineligible]

/-- The passes rank the rows. -/
theorem rankPasses_rows (hmax : context.bbsCount ≤ maxBbsEntries)
    (hlive : legacyBootBbsIndexIsTransactionEligible rom context context.liveBbsIndex = true)
    (hdisk : journal[context.liveBbsIndex]!.deviceType = bbsHardDisk)
    (hgiven : context.legacyDevOrderUsable = true → ∀ index, index ≠ context.liveBbsIndex →
      legacyBootBbsIndexIsTransactionEligible rom context index = true →
        candidateOrderRank context index ≠ 0xFFFF) :
    ∃ state₁ state₂ disks others,
      rankPass rom context journal 0 context.bbsCount (selectedPlan rom context journal) =
        (.success, state₁) ∧
      rankPass rom context journal 1 context.bbsCount state₁ = (.success, state₂) ∧
      PlanRows rom context journal state₂.planned disks others := by
  have hmaximum : maxBbsEntries = 256 := rfl
  have hfirst : (selectedPlan rom context journal).nextPriority.toNat = 1 := rfl
  obtain ⟨hplanned, hranked⟩ := @length_selectedPlan rom context journal
  have hshort := @length_candidates_le rom context journal 0 (selectedPlan rom context journal).ranked
  obtain ⟨state₁, disks, hrun, hpass⟩ := @rankPass_run rom context journal 0 context.bbsCount
    (selectedPlan rom context journal)
    (fun index hindex husable =>
      hgiven husable index (mem_candidates_disks.mp hindex).2.1 (mem_candidates_disks.mp hindex).1)
    ⟨hplanned, hranked⟩ hshort (by omega)
  have hdisksMem : ∀ index, index ∈ disks ↔ _ := fun index => (hpass.mem index).trans mem_candidates_disks
  have hdisksShort : disks.length ≤ context.bbsCount := hpass.perm.length_eq.trans_le hshort
  have hnext := hpass.next
  have hshort' := @length_candidates_le rom context journal 1 state₁.ranked
  obtain ⟨state₂, others, hrun', hpass'⟩ := @rankPass_run rom context journal 1 context.bbsCount
    state₁
    (fun index hindex husable => by
      obtain ⟨heligible, htype⟩ := (mem_candidates_others hdisk hpass).mp hindex
      refine hgiven husable index ?_ heligible
      rintro rfl
      exact htype hdisk)
    ⟨hpass.lengths.1.trans hplanned, hpass.lengths.2.trans hranked⟩ hshort' (by omega)
  have hothersMem : ∀ index, index ∈ others ↔ _ := fun index =>
    (hpass'.mem index).trans (mem_candidates_others hdisk hpass)
  have hunranked : ∀ index, index ∉ disks → index ∉ others →
      state₂.planned[index]! = (selectedPlan rom context journal).planned[index]! :=
    fun index hdisks hothers => (hpass'.others index hothers).trans (hpass.others index hdisks)
  refine ⟨state₁, state₂, disks, others, hrun, hrun', hdisksMem, hothersMem, hpass.sorted,
    hpass'.sorted, ?_, ?_, ?_, ?_, ?_⟩
  · exact (hpass'.lengths.1.trans hpass.lengths.1).trans hplanned
  · rw [hunranked]
    · simp [selectedPlan, initialPlan, lt_bbsCount_of_eligible hlive]
    · exact fun hmem => ((hdisksMem _).mp hmem).2.1 rfl
    · exact fun hmem => ((hothersMem _).mp hmem).2 hdisk
  · intro place hplace
    have hdisk' : disks[place] ∉ others := fun hmem =>
      ((hothersMem _).mp hmem).2 ((hdisksMem _).mp (List.getElem_mem hplace)).2.2
    rw [hpass'.others _ hdisk', hpass.planned place hplace, hfirst]
  · intro place hplace
    rw [hpass'.planned place hplace, hpass.next, hfirst]
  · intro index hindex hineligible
    have hne : index ≠ context.liveBbsIndex := by
      rintro rfl
      rw [hlive] at hineligible
      cases hineligible
    rw [hunranked]
    · simp only [selectedPlan]
      rw [getElem!_set_of_ne fun heq => hne heq.symm]
      simp [initialPlan, hindex, hineligible]
    · simp [hdisksMem, hineligible]
    · simp [hothersMem, hineligible]

section Rows

variable {planned : List UInt16} {disks others : List Nat}
  (h : PlanRows rom context journal planned disks others)

include h

theorem PlanRows.number (place : Nat)
    (hplace : place < (context.liveBbsIndex :: (disks ++ others)).length) :
    planned[(context.liveBbsIndex :: (disks ++ others))[place]]!.toNat = place := by
  cases place with
  | zero =>
      rw [List.getElem_cons_zero, h.selected]
      rfl
  | succ place =>
      simp only [List.length_cons, List.length_append] at hplace
      rw [List.getElem_cons_succ, List.getElem_append]
      split
      case isTrue hdisk =>
        rw [h.disks_number place hdisk]
        omega
      case isFalse hother =>
        rw [h.others_number (place - disks.length) (by omega)]
        omega

theorem PlanRows.perm
    (hlive : legacyBootBbsIndexIsTransactionEligible rom context context.liveBbsIndex = true)
    (hdisk : journal[context.liveBbsIndex]!.deviceType = bbsHardDisk) :
    (eligibleIndices rom context).Perm (context.liveBbsIndex :: (disks ++ others)) := by
  have hnodup : (context.liveBbsIndex :: (disks ++ others)).Nodup := by
    rw [List.nodup_cons, List.nodup_append, List.mem_append, not_or]
    refine ⟨⟨fun hmem => ((h.disks_mem _).mp hmem).2.1 rfl,
      fun hmem => ((h.others_mem _).mp hmem).2 hdisk⟩, sorted_nodup h.disks_sorted,
      sorted_nodup h.others_sorted, ?_⟩
    rintro index hindex _ hindex' rfl
    exact ((h.others_mem _).mp hindex').2 ((h.disks_mem _).mp hindex).2.2
  have heligible : (eligibleIndices rom context).Nodup := List.nodup_range.filter _
  refine (List.perm_ext_iff_of_nodup heligible hnodup).mpr fun index => ?_
  rw [mem_eligibleIndices, List.mem_cons, List.mem_append, h.disks_mem, h.others_mem]
  by_cases hsame : index = context.liveBbsIndex
  · subst hsame
    simp [hlive]
  · by_cases htype : journal[index]!.deviceType = bbsHardDisk
    · simp only [hsame, htype, false_or, ne_eq, not_true_eq_false, and_false, or_false, and_true,
        not_false_eq_true]
    · simp only [hsame, htype, false_or, ne_eq, not_false_eq_true, and_false, and_true]

/-- The rows in the order of their numbers are a plan. -/
theorem PlanRows.meaning
    (hlive : legacyBootBbsIndexIsTransactionEligible rom context context.liveBbsIndex = true)
    (hdisk : journal[context.liveBbsIndex]!.deviceType = bbsHardDisk)
    (hdistinct : context.legacyDevOrderUsable = true → ∀ index index',
      legacyBootBbsIndexIsTransactionEligible rom context index = true →
      legacyBootBbsIndexIsTransactionEligible rom context index' = true →
      index ≠ context.liveBbsIndex → index' ≠ context.liveBbsIndex →
        candidateOrderRank context index = candidateOrderRank context index' → index = index') :
    PlanMeaning rom context journal planned := by
  have hperm := h.perm hlive hdisk
  refine ⟨h.length, h.selected, ?_, ?_, ?_, h.preserved⟩
  · have hnumbers : (context.liveBbsIndex :: (disks ++ others)).map
        (fun index => planned[index]!.toNat) =
          List.range (context.liveBbsIndex :: (disks ++ others)).length := by
      refine List.ext_getElem (by simp) fun place hplace _ => ?_
      rw [List.getElem_map, h.number place (by simpa using hplace), List.getElem_range]
    rw [hperm.length_eq, ← hnumbers]
    exact hperm.map _
  · intro disk hdiskMem other hother hdiskType hotherType
    rw [mem_eligibleIndices] at hdiskMem hother
    have hmem : other ∈ others := (h.others_mem other).mpr ⟨hother, hotherType⟩
    obtain ⟨place, hplace, rfl⟩ := List.getElem_of_mem hmem
    rw [UInt16.lt_iff_toNat_lt, h.others_number place hplace]
    by_cases hsame : disk = context.liveBbsIndex
    · rw [hsame, h.selected]
      show 0 < _
      omega
    · have hmem' : disk ∈ disks := (h.disks_mem disk).mpr ⟨hdiskMem, hsame, hdiskType⟩
      obtain ⟨place', hplace', rfl⟩ := List.getElem_of_mem hmem'
      rw [h.disks_number place' hplace']
      omega
  · intro index hindex index' hindex' hne hne' htypes
    rw [mem_eligibleIndices] at hindex hindex'
    rw [UInt16.lt_iff_toNat_lt]
    have hkey : ∀ pass, (if journal[index]!.deviceType = bbsHardDisk then pass = 0 else pass = 1) →
        (planKey context journal pass index < planKey context journal pass index' ↔
          ComesBefore context journal index index') := by
      intro pass hpass
      unfold ComesBefore
      rw [planKey, planKey, Prod.Lex.toLex_lt_toLex]
      by_cases husable : context.legacyDevOrderUsable = true
      · simp only [husable, if_true, UInt16.lt_iff_toNat_lt]
        refine or_iff_left_of_imp fun ⟨hsame, hlt⟩ => ?_
        have heq := hdistinct husable index index' hindex hindex' hne hne'
          (UInt16.toNat_inj.mp hsame)
        exact absurd heq (Nat.ne_of_lt hlt)
      · split at hpass
        case isTrue htype =>
          subst hpass
          rw [if_pos htype]
          simp [husable]
        case isFalse htype =>
          subst hpass
          rw [if_neg htype]
          simp [husable, UInt16.lt_iff_toNat_lt, UInt16.toNat_inj]
    by_cases htype : journal[index]!.deviceType = bbsHardDisk
    · rw [← hkey 0 (by rw [if_pos htype])]
      exact @numbered_iff disks (fun index => planned[index]!.toNat) 1 _ h.disks_sorted
        (fun _ => lt_irrefl _) (fun _ _ => lt_asymm) h.disks_number _ _ ((h.disks_mem _).mpr ⟨hindex, hne, htype⟩)
        ((h.disks_mem _).mpr ⟨hindex', hne', htypes.mp htype⟩)
    · rw [← hkey 1 (by rw [if_neg htype])]
      exact @numbered_iff others (fun index => planned[index]!.toNat) (1 + disks.length) _
        h.others_sorted (fun _ => lt_irrefl _) (fun _ _ => lt_asymm) h.others_number _ _ ((h.others_mem _).mpr ⟨hindex, htype⟩)
        ((h.others_mem _).mpr ⟨hindex', mt htypes.mpr htype⟩)

end Rows

/-! ### The planner -/

/-- The state's order of the rows is one that a capture took from this journal. -/
def OrderCaptured (context : BootTargetContext) (journal : List BbsTable) : Prop :=
  ∃ (before : BootState) (answers : Nat → FirmwareAnswer),
    before.context.bbsJournal = some journal ∧ journal.length = before.context.bbsCount ∧
    before.context.legacyDevOrderUsable = false ∧
    let captured := (legacyBootCaptureLegacyDevOrder.run answers before).2.context
    context.legacyDevOrderUsable = captured.legacyDevOrderUsable ∧
    context.legacyDevOrderRanks = captured.legacyDevOrderRanks ∧
    context.legacyDevOrderDisabled = captured.legacyDevOrderDisabled

theorem OrderCaptured.orders (h : OrderCaptured context journal)
    (husable : context.legacyDevOrderUsable = true) :
    ∃ ranks disabled, context.legacyDevOrderRanks = some ranks ∧
      context.legacyDevOrderDisabled = some disabled ∧ Orders journal ranks := by
  obtain ⟨before, answers, hjournal, hcount, hunused, hsame, hranks, hdisabled⟩ := h
  have hcapture := (wp_capture_orders hjournal hcount hunused).runAny answers
  rw [hranks, hdisabled]
  exact hcapture (hsame.symm.trans husable)

/-- An eligible row other than the selected one has a priority that firmware may boot from. -/
theorem priorityIsValid_of_eligible {index : Nat} (hjournal : context.bbsJournal = some journal)
    (hne : index ≠ context.liveBbsIndex)
    (h : legacyBootBbsIndexIsTransactionEligible rom context index = true) :
    legacyBootBbsPriorityIsValid journal[index]!.bootPriority = true := by
  unfold legacyBootBbsIndexIsTransactionEligible at h
  rw [hjournal] at h
  dsimp only at h
  rw [if_neg hne] at h
  split at h
  case isTrue => cases h
  split at h
  case isTrue => cases h
  case isFalse heligible =>
    rw [Bool.not_eq_true, Bool.not_eq_false'] at heligible
    rw [legacyBootBbsEntryIsTransactionEligible, Bool.and_eq_true] at heligible
    exact heligible.1

theorem eligible_live (hjournal : context.bbsJournal = some journal)
    (hlive : context.liveBbsIndex < context.bbsCount) :
    legacyBootBbsIndexIsTransactionEligible rom context context.liveBbsIndex =
      legacyBootSelectedDiskCanAttempt rom journal[context.liveBbsIndex]! := by
  unfold legacyBootBbsIndexIsTransactionEligible
  rw [hjournal]
  dsimp only
  rw [if_neg (not_le.mpr hlive), if_pos rfl]

/-- The rows ranked by the passes are at no zero, so the plan has another zero only where it was. -/
theorem PlanRows.planHasOtherZero_iff {planned : List UInt16} {disks others : List Nat}
    (h : PlanRows rom context journal planned disks others) :
    planHasOtherZero context planned = true ↔
      ∃ index < context.bbsCount, index ≠ context.liveBbsIndex ∧
        legacyBootBbsIndexIsTransactionEligible rom context index = false ∧
        journal[index]!.bootPriority = 0 := by
  unfold planHasOtherZero
  rw [List.any_eq_true]
  constructor
  · rintro ⟨index, hindex, hzero⟩
    rw [List.mem_range] at hindex
    rw [Bool.and_eq_true, bne_iff_ne, beq_iff_eq] at hzero
    obtain ⟨hne, hzero⟩ := hzero
    by_cases heligible : legacyBootBbsIndexIsTransactionEligible rom context index = true
    · exfalso
      have hpositive : 0 < planned[index]!.toNat := by
        by_cases htype : journal[index]!.deviceType = bbsHardDisk
        · obtain ⟨place, hplace, rfl⟩ := List.getElem_of_mem
            ((h.disks_mem index).mpr ⟨heligible, hne, htype⟩)
          rw [h.disks_number place hplace]
          omega
        · obtain ⟨place, hplace, rfl⟩ := List.getElem_of_mem
            ((h.others_mem index).mpr ⟨heligible, htype⟩)
          rw [h.others_number place hplace]
          omega
      rw [hzero] at hpositive
      exact absurd hpositive (by decide)
    · rw [Bool.not_eq_true] at heligible
      exact ⟨index, hindex, hne, heligible, h.preserved index hindex heligible ▸ hzero⟩
  · rintro ⟨index, hindex, hne, hineligible, hzero⟩
    refine ⟨index, List.mem_range.mpr hindex, ?_⟩
    rw [Bool.and_eq_true, bne_iff_ne, beq_iff_eq, h.preserved index hindex hineligible]
    exact ⟨hne, hzero⟩

/-- The plan of a journal whose order was captured from it. -/
theorem priorityPlan_spec (hjournal : context.bbsJournal = some journal)
    (hcount : journal.length = context.bbsCount) (hmax : context.bbsCount ≤ maxBbsEntries)
    (hlive : context.liveBbsIndex < context.bbsCount) (horder : OrderCaptured context journal) :
    ((priorityPlan rom context journal).1 = .success ↔
      legacyBootSelectedDiskCanAttempt rom journal[context.liveBbsIndex]! = true ∧
        ∀ index < context.bbsCount, index ≠ context.liveBbsIndex →
          legacyBootBbsIndexIsTransactionEligible rom context index = false →
            journal[index]!.bootPriority ≠ 0) ∧
    (priorityPlan rom context journal).1 ≠ .compromisedData ∧
    (priorityPlan rom context journal).1 ≠ .outOfResources ∧
    ((priorityPlan rom context journal).1 = .success →
      PlanMeaning rom context journal (priorityPlan rom context journal).2) := by
  have heligibleLive := @eligible_live rom context journal hjournal hlive
  unfold priorityPlan
  rw [heligibleLive]
  by_cases hattempt : legacyBootSelectedDiskCanAttempt rom journal[context.liveBbsIndex]! = true
  · have heligible : legacyBootBbsIndexIsTransactionEligible rom context context.liveBbsIndex =
        true := heligibleLive.trans hattempt
    have hdisk : journal[context.liveBbsIndex]!.deviceType = bbsHardDisk := by
      rw [legacyBootSelectedDiskCanAttempt, Bool.and_eq_true, beq_iff_eq] at hattempt
      exact hattempt.1
    have hrank : context.legacyDevOrderUsable = true → ∃ ranks, Orders journal ranks ∧
        ∀ index, candidateOrderRank context index = ranks[index]! := by
      intro husable
      obtain ⟨ranks, -, hranks, -, horders⟩ := horder.orders husable
      refine ⟨ranks, horders, fun index => ?_⟩
      rw [candidateOrderRank, if_pos husable, hranks, Option.getD_some]
    have hlt : ∀ {index : Nat}, legacyBootBbsIndexIsTransactionEligible rom context index = true →
        index < journal.length := fun h => hcount ▸ lt_bbsCount_of_eligible h
    obtain ⟨state₁, state₂, disks, others, hrun, hrun', hrows⟩ := rankPasses_rows hmax heligible
      hdisk fun husable index hne hindex => by
        obtain ⟨ranks, horders, hranks⟩ := hrank husable
        rw [hranks]
        exact horders.below index (hlt hindex) (priorityIsValid_of_eligible hjournal hne hindex)
    have hmeaning := hrows.meaning heligible hdisk fun husable index index' hindex hindex' hne hne' => by
      obtain ⟨ranks, horders, hranks⟩ := hrank husable
      rw [hranks, hranks]
      exact horders.distinct index (hlt hindex) index' (hlt hindex')
        (priorityIsValid_of_eligible hjournal hne hindex)
        (priorityIsValid_of_eligible hjournal hne' hindex')
    rw [hattempt, hrun]
    dsimp only
    rw [hrun']
    dsimp only
    have hzero := hrows.planHasOtherZero_iff
    by_cases hother : planHasOtherZero context state₂.planned = true
    · obtain ⟨index, hindex, hne, hineligible, hpriority⟩ := hzero.mp hother
      rw [hother]
      refine ⟨⟨fun hcontra => ?_, fun hcontra => ?_⟩, ?_, ?_, fun hcontra => ?_⟩
      · simp at hcontra
      · exact absurd hpriority (hcontra.2 index hindex hne hineligible)
      · simp
      · simp
      · simp at hcontra
    · rw [Bool.not_eq_true] at hother
      rw [hother]
      refine ⟨⟨fun _ => ⟨rfl, fun index hindex hne hineligible hpriority => ?_⟩, fun _ => ?_⟩, ?_,
        ?_, fun _ => ?_⟩
      · rw [hzero.mpr ⟨index, hindex, hne, hineligible, hpriority⟩] at hother
        cases hother
      · simp
      · simp
      · simp
      · simpa using hmeaning
  · rw [Bool.not_eq_true] at hattempt
    rw [hattempt]
    simp

/-- **The plan of a journal.** It succeeds unless the selected row cannot be attempted or a row that is
preserved has priority zero, and a plan that succeeds is dense and in order. -/
theorem priorityPlan_meaning {state : BootState} {answers : Nat → FirmwareAnswer}
    (hjournal : state.context.bbsJournal = some journal)
    (hcount : journal.length = state.context.bbsCount)
    (hmax : state.context.bbsCount ≤ maxBbsEntries)
    (hlive : state.context.liveBbsIndex < state.context.bbsCount)
    (hreserved : state.context.plannedPriorities.isSome = true ∧
      state.context.expectedPriorities.isSome = true)
    (horder : OrderCaptured state.context journal) :
    let result := legacyBootBuildPriorityPlan.run answers state
    (result.1 = .success ↔
      legacyBootSelectedDiskCanAttempt state.rom journal[state.context.liveBbsIndex]! = true ∧
        ∀ index < state.context.bbsCount, index ≠ state.context.liveBbsIndex →
          legacyBootBbsIndexIsTransactionEligible state.rom state.context index = false →
            journal[index]!.bootPriority ≠ 0) ∧
    result.1 ≠ .compromisedData ∧ result.1 ≠ .outOfResources ∧
    (result.1 = .success → ∃ planned, result.2.context.plannedPriorities = some planned ∧
      PlanMeaning state.rom state.context journal planned) := by
  have hresult : ∃ state', legacyBootBuildPriorityPlan.run answers state =
      ((priorityPlan state.rom state.context journal).1, state') ∧
      state'.context.plannedPriorities =
        some (priorityPlan state.rom state.context journal).2 := by
    unfold legacyBootBuildPriorityPlan
    rw [Prog.run_bind_get]
    dsimp only
    rw [hjournal]
    dsimp only
    rw [if_neg]
    · exact ⟨_, rfl, rfl⟩
    · have horders := horder.orders
      obtain ⟨hplanned, hexpected⟩ := hreserved
      rw [Option.isSome_iff_exists] at hplanned hexpected
      obtain ⟨planned, hplanned⟩ := hplanned
      obtain ⟨expected, hexpected⟩ := hexpected
      rw [hplanned, hexpected]
      cases husable : state.context.legacyDevOrderUsable with
      | false => simp [hlive]
      | true =>
          obtain ⟨ranks, disabled, hranks, hdisabled, -⟩ := horders husable
          simp [hlive, hranks, hdisabled]
  obtain ⟨state', hrun, hplanned⟩ := hresult
  obtain ⟨hsuccess, hcompromised, hresources, hmeaning⟩ :=
    @priorityPlan_spec state.rom state.context journal hjournal hcount hmax hlive horder
  rw [hrun]
  exact ⟨hsuccess, hcompromised, hresources, fun h => ⟨_, hplanned, hmeaning h⟩⟩

/-- A CD drive, the selected disk and another disk, with the last two the other way round in the table. -/
def mixedJournal : List BbsTable :=
  [(3, 3), (1, bbsHardDisk), (4, bbsHardDisk)].map fun (bootPriority, deviceType) =>
    { (default : BbsTable) with bootPriority, deviceType, statusFlags := 0x500 }

def mixedState : BootState where
  context :=
    { bbsCount := 3
      bbsJournal := some mixedJournal
      plannedPriorities := some []
      expectedPriorities := some []
      liveBbsIndex := 2 }
  live := mixedJournal
  rom := .reset

/-- Firmware that has no LegacyDevOrder. -/
def orderMissing : FirmwareAnswer where
  status := .success
  granted := true
  memory := { readableBytes := fun _ => 0, byte := fun _ => 0 }
  variableRead := .error .notFound
  stored := none
  bbsInfo := { hddCount := 0, hddInfo := 0, bbsTable := 0, table := [] }
  rom := .reset
  candidate :=
    { isLegacy := true
      isActive := true
      number := 0
      attributes := 0
      description := none
      devicePath := none
      devicePathCrc32 := 0
      bbsDeviceType := 0
      bbsStatusFlag := 0
      bbsDescription := []
      optionalData := none
      optionalDataCrc32 := 0 }

/-- A plan without an order variable: the selected disk, the other disk, the CD drive. -/
theorem priorityPlan_meaning_mixed : ∃ planned,
    (legacyBootBuildPriorityPlan.run (fun _ => orderMissing) mixedState).2.context.plannedPriorities =
      some planned ∧ PlanMeaning mixedState.rom mixedState.context mixedJournal planned :=
  (@priorityPlan_meaning mixedJournal mixedState (fun _ => orderMissing) rfl rfl (by decide)
    (by decide) ⟨rfl, rfl⟩
    ⟨mixedState, fun _ => orderMissing, rfl, rfl, rfl, rfl, rfl, rfl⟩).2.2.2 (by decide +kernel)

end CsmVgaSelector
