import CsmVgaSelector.Proof.Plan
import CsmVgaSelector.Proof.RollbackExact
import Mathlib.Data.List.Perm.Subperm

/-!
# What a written plan leaves

The first phase gives every eligible row the same priority, and the second gives each planned priority to the
first eligible row that is planned to have it. Where both succeed there is such a row for as many priorities as
there are eligible rows, so every eligible row has been given its own, and the other rows have what the journal
has. The plan was made when the ROMs may have said something else, but what they say counts for the selected
row alone; and where that row is not eligible no priority zero can be given, so that nothing has been written.
-/

namespace CsmVgaSelector

open Prog (Keeps)

variable {A : FirmwareAnswer → Prop} {start s s' : BootState} {journal : List BbsTable}
  {planned : List UInt16}

/-! ### What a write keeps -/

/-- The plan, what decides which rows it writes, and the marks that a write does not set. -/
def BootState.planMarks (s : BootState) :=
  (s.rom, s.context.policyInputs, s.context.plannedPriorities, s.context.journalAttempted,
    s.context.priorityTransactionAttempted, s.context.prioritiesApplied)

theorem keeps_legacyBootWritePriority (index : Nat) (priority : UInt16) :
    Keeps BootState.planMarks (legacyBootWritePriority index priority) := by
  unfold legacyBootWritePriority
  refine .bind .get fun state => ?_
  dsimp only
  split
  case h_2 => exact .pure _
  refine .ite (.pure _) (.ite (.lift _) (.ite (.pure _) (.ite ?_ ?_)))
  · exact .bind (.modify fun _ => rfl) fun _ => .pure _
  refine .bind (.lift _) fun _ => .ite (.pure _) (.bind (.lift _) fun _ => .ite (.pure _) ?_)
  refine .bind .get fun _ => .ite (.lift _) (.bind (.modify fun _ => rfl) fun _ => ?_)
  refine .bind (fun _ _ _ => rfl) fun _ => .bind .get fun _ => .ite (.lift _) ?_
  refine .bind (.modify fun _ => rfl) fun _ => .bind .get fun _ => .bind (.lift _) fun _ => ?_
  refine .ite (.bind (.lift _) fun _ => .pure _) (.bind (.lift _) fun _ => ?_)
  exact .ite (.pure _) (.lift _)

theorem keeps_untilError {steps : List (Boot EfiStatus)}
    (hsteps : ∀ step ∈ steps, Keeps BootState.planMarks step) :
    Keeps BootState.planMarks (untilError steps) := by
  induction steps with
  | nil => exact .pure _
  | cons step rest ih =>
      refine .bind (hsteps step (List.mem_cons_self ..)) fun _ => .ite (.pure _) ?_
      exact ih fun other hother => hsteps other (List.mem_cons_of_mem _ hother)

theorem keeps_assignPriority (priority : Nat) :
    Keeps BootState.planMarks (assignPriority priority) := by
  unfold assignPriority
  refine .bind .get fun state => ?_
  dsimp only
  split
  · exact .pure _
  · exact keeps_legacyBootWritePriority _ _

theorem keeps_writePlan : Keeps BootState.planMarks writePlan := by
  unfold writePlan
  refine .bind .get fun _ => .bind (keeps_untilError ?_) fun _ => ?_
  · intro step hstep
    obtain ⟨index, -, rfl⟩ := List.mem_map.mp hstep
    exact keeps_legacyBootWritePriority _ _
  · refine .ite (.pure _) (.bind .get fun _ => keeps_untilError ?_)
    intro step hstep
    obtain ⟨priority, -, rfl⟩ := List.mem_map.mp hstep
    exact keeps_assignPriority _

theorem eligibleRows_of_planMarks (h : s'.planMarks = s.planMarks) : eligibleRows s' = eligibleRows s := by
  simp only [BootState.planMarks, Prod.mk.injEq] at h
  obtain ⟨hrom, hinputs, -⟩ := h
  have hcount : s'.context.bbsCount = s.context.bbsCount := congrArg (·.2.1) hinputs
  rw [eligibleRows, eligibleRows, hrom, hcount, eligible_congr hinputs]

theorem mem_eligibleRows {index : Nat} : index ∈ eligibleRows s ↔
    legacyBootBbsIndexIsTransactionEligible s.rom s.context index = true := by
  rw [eligibleRows, List.mem_filter, List.mem_range, and_iff_right_iff_imp]
  exact lt_bbsCount_of_eligible

/-- What the ROMs say counts for the selected row alone. -/
theorem eligible_of_ne_live {rom rom' : RomEvidence} {context : BootTargetContext} {index : Nat}
    (hne : index ≠ context.liveBbsIndex) :
    legacyBootBbsIndexIsTransactionEligible rom context index =
      legacyBootBbsIndexIsTransactionEligible rom' context index := by
  unfold legacyBootBbsIndexIsTransactionEligible
  split
  case h_1 => rfl
  case h_2 journal _ =>
    rw [if_neg hne, if_neg hne]
    cases hflags : journal[index]!.statusFlags == 0 with
    | true => simp only [if_true, ite_self]
    | false =>
        have hsame : legacyBootBbsEntryIsTransactionEligible rom journal[index]! =
            legacyBootBbsEntryIsTransactionEligible rom' journal[index]! := by
          simp only [legacyBootBbsEntryIsTransactionEligible, hflags, Bool.false_and]
        rw [hsame]

/-! ### One write -/

/-- The plan is being written: so far only eligible rows have been given another priority. -/
structure Writing (start s : BootState) (journal : List BbsTable) : Prop extends Settled s journal where
  marks : s.planMarks = start.planMarks
  untouched : ∀ row ∉ eligibleRows start, priorities s.live row = priorities start.live row

theorem Settled.writing (h : Settled s journal) : Writing s s journal :=
  { h with
    marks := rfl
    untouched := fun _ _ => rfl }

/-- The priority has been given to an eligible row that is planned to have it. -/
def Given (start : BootState) (planned : List UInt16) (priority : Nat) (s : BootState) : Prop :=
  ∃ row ∈ eligibleRows start, planned[row]!.toNat = priority ∧ priorities s.live row = planned[row]!

/-- A write that succeeds gives the row its priority. -/
theorem wp_write_updates (h : Settled s journal) {index : Nat} (hindex : index < journal.length)
    {priority : UInt16} :
    (legacyBootWritePriority index priority).Wp A (fun status s' => status.isError = false →
      Settled s' journal ∧ s'.planMarks = s.planMarks ∧
        priorities s'.live = Function.update (priorities s.live) index priority) s := by
  have hlive : index < s.live.length := h.length_live ▸ hindex
  refine ((wp_legacyBootWritePriority hlive).and ((keeps_legacyBootWritePriority index priority).wp s)).mono ?_
  rintro status s' ⟨houtcome, hmarks⟩ hstatus
  refine ⟨(h.write hindex houtcome).2 hstatus, hmarks, ?_⟩
  cases houtcome with
  | refused herror => simp [herror] at hstatus
  | full => simp [EfiStatus.isError] at hstatus
  | already hpriority => rw [← hpriority, Function.update_eq_self]
  | misread => simp [EfiStatus.isError] at hstatus
  | written => exact priorities_modify hlive

theorem Writing.write (h : Writing start s journal) {index : Nat} (hindex : index ∈ eligibleRows start)
    {priority : UInt16} :
    (legacyBootWritePriority index priority).Wp A (fun status s' => status.isError = false →
      Writing start s' journal ∧
        priorities s'.live = Function.update (priorities s.live) index priority) s := by
  have hlt : index < journal.length := by
    rw [← h.count]
    rw [← eligibleRows_of_planMarks h.marks] at hindex
    exact lt_bbsCount_of_eligible (mem_eligibleRows.mp hindex)
  refine (wp_write_updates h.toSettled hlt).mono fun status s' h' hstatus => ?_
  obtain ⟨hsettled, hmarks, hrows⟩ := h' hstatus
  refine ⟨{ hsettled with
    marks := hmarks.trans h.marks
    untouched := fun row hrow => ?_ }, hrows⟩
  rw [hrows, Function.update_of_ne (ne_of_mem_of_not_mem hindex hrow).symm]
  exact h.untouched row hrow

/-! ### The two phases -/

/-- Steps that all succeed keep what each of them keeps, and leave what each of them brings about, where none
undoes it. -/
theorem wp_untilError_map {α : Type} {step : α → Boot EfiStatus} {I : BootState → Prop}
    {Q : α → BootState → Prop} {items : List α} (h : I s)
    (hstep : ∀ item ∈ items, ∀ s₁, I s₁ → (step item).Wp A (fun status s₂ => status.isError = false →
      I s₂ ∧ Q item s₂ ∧ ∀ other, Q other s₁ → Q other s₂) s₁) :
    (untilError (items.map step)).Wp A (fun status s' => status.isError = false →
      I s' ∧ (∀ item ∈ items, Q item s') ∧ ∀ other, Q other s → Q other s') s := by
  induction items generalizing s with
  | nil => exact fun _ => ⟨h, by simp, fun _ hother => hother⟩
  | cons item rest ih =>
      refine Prog.Wp.bind (hstep item List.mem_cons_self s h) fun status s₁ h₁ => ?_
      refine .ite (fun herror hstatus => by simp [herror] at hstatus) fun herror => ?_
      obtain ⟨hkept, hitem, hothers⟩ := h₁ (by simpa using herror)
      have hrest := ih hkept fun other hother => hstep other (List.mem_cons_of_mem _ hother)
      refine hrest.mono fun status s₂ h₂ hstatus => ?_
      obtain ⟨hkept₂, hrest₂, hothers₂⟩ := h₂ hstatus
      refine ⟨hkept₂, fun other hother => ?_, fun other hother => hothers₂ other (hothers other hother)⟩
      rcases List.mem_cons.mp hother with rfl | hother
      · exact hothers₂ _ hitem
      · exact hrest₂ other hother

/-- An assignment that succeeds gives its priority, and takes none away that was given. -/
theorem Writing.assign (h : Writing start s journal) (hplanned : start.context.plannedPriorities = some planned)
    {priority : Nat} :
    (assignPriority priority).Wp A (fun status s' => status.isError = false →
      Writing start s' journal ∧ Given start planned priority s' ∧
        ∀ other, Given start planned other s → Given start planned other s') s := by
  have hplanned' : s.context.plannedPriorities = some planned := by
    have hmarks := h.marks
    simp only [BootState.planMarks, Prod.mk.injEq] at hmarks
    exact hmarks.2.2.1.trans hplanned
  unfold assignPriority
  refine .bind_get ?_
  dsimp only
  rw [eligibleRows_of_planMarks h.marks, hplanned', Option.getD_some]
  cases hfound : (eligibleRows start).find? fun index => planned[index]!.toNat == priority with
  | none => exact fun hstatus => by simp [EfiStatus.isError] at hstatus
  | some index =>
      have hindex := List.mem_of_find?_eq_some hfound
      have hpriority : planned[index]!.toNat = priority := by simpa using List.find?_some hfound
      have hword : UInt16.ofNat priority = planned[index]! := by rw [← hpriority, UInt16.ofNat_toNat]
      refine (h.write hindex).mono fun status s' h' hstatus => ?_
      obtain ⟨hwriting, hrows⟩ := h' hstatus
      rw [hword] at hrows
      have hhere : priorities s'.live index = planned[index]! := by rw [hrows, Function.update_self]
      refine ⟨hwriting, ⟨index, hindex, hpriority, hhere⟩, ?_⟩
      rintro other ⟨row, hrow, hother, hgiven⟩
      refine ⟨row, hrow, hother, ?_⟩
      by_cases hsame : row = index
      · rw [hsame, hhere]
      · rw [hrows, Function.update_of_ne hsame]
        exact hgiven

/-- A plan that has been written without an error: every priority has been given. -/
theorem wp_writePlan_given (h : Settled s journal) (hplanned : s.context.plannedPriorities = some planned) :
    writePlan.Wp A (fun status s' => status.isError = false → Writing s s' journal ∧
      ∀ priority < (eligibleRows s).length, Given s planned priority s') s := by
  unfold writePlan
  have hfirst : (untilError ((eligibleRows s).map (legacyBootWritePriority · bbsUnprioritizedEntry))).Wp A
      (fun status s' => status.isError = false → Writing s s' journal) s := by
    refine (@wp_untilError_map A s Nat _ (fun s₁ => Writing s s₁ journal) (fun _ _ => True) _ h.writing
      fun index hindex s₁ h₁ => ?_).mono fun _ _ h₁ hstatus => (h₁ hstatus).1
    exact (h₁.write hindex).mono fun _ _ h₂ hstatus => ⟨(h₂ hstatus).1, trivial, fun _ _ => trivial⟩
  refine .bind_get (Prog.Wp.bind hfirst fun status s₁ h₁ => ?_)
  refine .ite (fun herror hstatus => by simp [herror] at hstatus) fun herror => .bind_get ?_
  have hwriting := h₁ (by simpa using herror)
  dsimp only
  rw [eligibleRows_of_planMarks hwriting.marks]
  refine (@wp_untilError_map A s₁ Nat _ (fun s₂ => Writing s s₂ journal) (Given s planned) _ hwriting
    fun priority _ s₂ h₂ => h₂.assign hplanned).mono fun status s₂ h₂ hstatus => ?_
  obtain ⟨hdone, hgiven, -⟩ := h₂ hstatus
  exact ⟨hdone, fun priority hpriority => hgiven priority (List.mem_range.mpr hpriority)⟩

/-- As many priorities as there are eligible rows: each of the rows has been given its own. -/
theorem priorities_of_given (h : ∀ priority < (eligibleRows start).length, Given start planned priority s)
    {row : Nat} (hrow : row ∈ eligibleRows start) : priorities s.live row = planned[row]! := by
  let settledRows := (eligibleRows start).filter fun row => decide (priorities s.live row = planned[row]!)
  have hcovered : List.range (eligibleRows start).length ⊆ settledRows.map fun row => planned[row]!.toNat := by
    intro priority hpriority
    obtain ⟨row, hrow, hplanned, hgiven⟩ := h priority (List.mem_range.mp hpriority)
    exact List.mem_map.mpr ⟨row, List.mem_filter.mpr ⟨hrow, decide_eq_true hgiven⟩, hplanned⟩
  have hlength : (eligibleRows start).length ≤ settledRows.length := by
    simpa using (List.Nodup.subperm List.nodup_range hcovered).length_le
  have hall : settledRows = eligibleRows start := List.filter_sublist.eq_of_length_le hlength
  have hmem : row ∈ settledRows := hall.symm ▸ hrow
  exact of_decide_eq_true (List.mem_filter.mp hmem).2

/-! ### The plan in the table -/

/-- The priorities in the live table are the planned ones. -/
def PlanInTable (s : BootState) : Prop :=
  s.context.plannedPriorities = some (s.live.map BbsTable.bootPriority)

instance : Decidable (PlanInTable s) :=
  inferInstanceAs (Decidable (s.context.plannedPriorities = some (s.live.map BbsTable.bootPriority)))

/-- The plan gives the selected row, and no other, priority zero. -/
structure SelectsOne (s : BootState) (planned : List UInt16) : Prop where
  plannedPriorities : s.context.plannedPriorities = some planned
  length : planned.length = s.context.bbsCount
  inRange : s.context.liveBbsIndex < s.context.bbsCount
  selected : planned[s.context.liveBbsIndex]! = 0
  others : ∀ index < s.context.bbsCount, index ≠ s.context.liveBbsIndex → planned[index]! ≠ 0

theorem SelectsOne.of_planMarks (h : SelectsOne s planned) (hmarks : s'.planMarks = s.planMarks) :
    SelectsOne s' planned := by
  simp only [BootState.planMarks, Prod.mk.injEq] at hmarks
  obtain ⟨-, hinputs, hplanned, -⟩ := hmarks
  have hcount : s'.context.bbsCount = s.context.bbsCount := congrArg (·.2.1) hinputs
  have hindex : s'.context.liveBbsIndex = s.context.liveBbsIndex := congrArg (·.2.2.1) hinputs
  exact { plannedPriorities := hplanned.trans h.plannedPriorities
          length := hcount ▸ h.length
          inRange := by rw [hindex, hcount]; exact h.inRange
          selected := by rw [hindex]; exact h.selected
          others := by rw [hindex, hcount]; exact h.others }

/-- The plan keeps the priorities of the rows that the transaction may not touch; of the selected row nothing
is said, because whether it may be touched can change with the ROMs. -/
def PlanKeepsOthers (s : BootState) (journal : List BbsTable) (planned : List UInt16) : Prop :=
  ∀ index < s.context.bbsCount, index ≠ s.context.liveBbsIndex →
    legacyBootBbsIndexIsTransactionEligible s.rom s.context index = false →
      planned[index]! = journal[index]!.bootPriority

theorem PlanKeepsOthers.withRom (h : PlanKeepsOthers s journal planned) (rom : RomEvidence) :
    PlanKeepsOthers { s with rom := rom } journal planned := fun index hindex hne hineligible =>
  h index hindex hne ((eligible_of_ne_live hne).trans hineligible)

/-- Every eligible row given its own priority, and the other rows left alone, is the plan in the table. -/
theorem Writing.planInTable (h : Writing start s journal) (hlive : start.live = journal)
    (hselects : SelectsOne start planned) (hkeeps : PlanKeepsOthers start journal planned)
    (hselected : start.context.liveBbsIndex ∈ eligibleRows start)
    (hgiven : ∀ row ∈ eligibleRows start, priorities s.live row = planned[row]!) : PlanInTable s := by
  have hselects' := hselects.of_planMarks h.marks
  have hlength : planned.length = s.live.length := by
    rw [hselects'.length, h.count, h.length_live]
  have hrows : ∀ row < s.live.length, planned[row]! = s.live[row]!.bootPriority := by
    intro row hrow
    by_cases heligible : row ∈ eligibleRows start
    · exact (hgiven row heligible).symm
    · have hne : row ≠ start.context.liveBbsIndex := by
        rintro rfl
        exact heligible hselected
      have hcount : row < start.context.bbsCount := by
        rw [← hselects.length, hlength]
        exact hrow
      have hineligible := Bool.eq_false_iff.mpr (mt mem_eligibleRows.mpr heligible)
      rw [hkeeps row hcount hne hineligible, ← hlive]
      exact (h.untouched row heligible).symm
  refine hselects'.plannedPriorities.trans (congrArg some (List.ext_getElem ?_ fun row hplanned hmap => ?_))
  · rw [hlength, List.length_map]
  · have hrow : row < s.live.length := hlength ▸ hplanned
    rw [List.getElem_map, ← getElem!_pos planned row hplanned, ← getElem!_pos s.live row hrow]
    exact hrows row hrow

/-- **What a written plan leaves.** The plan is in the table, unless nothing has been written. -/
theorem wp_writePlan_planInTable (h : Settled s journal) (hlive : s.live = journal)
    (hselects : SelectsOne s planned) (hkeeps : PlanKeepsOthers s journal planned) :
    writePlan.Wp A (fun status s' => status.isError = false →
      Settled s' journal ∧ (PlanInTable s' ∨ s' = s)) s := by
  by_cases hnone : eligibleRows s = []
  · have hdone : writePlan.Wp A (fun _ s' => s' = s) s := by
      unfold writePlan
      simp [hnone, untilError, EfiStatus.isError]
    refine hdone.mono fun status s' hsame _ => ?_
    rw [hsame]
    exact ⟨h, .inr rfl⟩
  · refine (wp_writePlan_given h hselects.plannedPriorities).mono fun status s' h' hstatus => ?_
    obtain ⟨hwriting, hgiven⟩ := h' hstatus
    refine ⟨hwriting.toSettled, .inl ?_⟩
    have hselected : s.context.liveBbsIndex ∈ eligibleRows s := by
      obtain ⟨row, hrow, hzero, -⟩ := hgiven 0 (List.length_pos_iff.mpr hnone)
      by_contra hineligible
      have hne : row ≠ s.context.liveBbsIndex := ne_of_mem_of_not_mem hrow hineligible
      exact hselects.others row (lt_bbsCount_of_eligible (mem_eligibleRows.mp hrow)) hne
        (UInt16.toNat_inj.mp hzero)
    exact hwriting.planInTable hlive hselects hkeeps hselected fun row => priorities_of_given hgiven

end CsmVgaSelector
