import CsmVgaSelector.Proof.WritePlan

/-!
# The gate of the boot arguments

The arguments of `LegacyBoot` are handed out while the marks of an applied plan are set. The marks are
set once the plan is written, and a rollback clears them at its very end, so what they say is true of
the table except after one kind of call: a rollback that begins with the plan applied, finds the
table's range writable, and then meets a failure. It puts the original priorities back and leaves the
marks.
-/

namespace CsmVgaSelector

open Prog (Keeps)

variable {A : FirmwareAnswer → Prop} {s s' : BootState} {journal : List BbsTable}
  {planned : List UInt16}

/-! ### The condition -/

/-- The plan gives the priorities that the journal has. -/
def PlanIsOriginal (s : BootState) : Prop :=
  ∃ journal, s.context.bbsJournal = some journal ∧
    s.context.plannedPriorities = some (journal.map BbsTable.bootPriority)

/-- The two answers a rollback begins with: the memory map is captured, and it has the table's range
writable. -/
structure RangeWritable (answers : Nat → FirmwareAnswer) : Prop where
  captured : (answers 0).status.isError = false
  writable : (answers 1).granted = true

/-- The answers used by the replay of a rollback whose range is writable. -/
def replayAnswers (s : BootState) (answers : Nat → FirmwareAnswer) : List FirmwareAnswer :=
  (replayHistory .success).used (fun n => answers (n + 2)) s

/-- A rollback from a table with the plan applied is sound when its range is refused, or the replay meets
no failure. A plan of the original priorities is in place after every replay whose stores take effect. -/
def SoundRollback (s : BootState) (answers : Nat → FirmwareAnswer) : Prop :=
  RangeWritable answers →
    (∀ answer ∈ replayAnswers s answers, MeetsNoError s answer) ∨
      PlanIsOriginal s ∧ ∀ answer ∈ replayAnswers s answers, answer.stored = none

/-- A rollback that begins here has an applied plan to take back. -/
def TakesBack (s : BootState) : Prop :=
  s.context.prioritiesApplied = true ∧
    (s.context.priorityTransactionDirty = true ∨ s.context.priorityWrites.length ≠ 0)

/-- The rollback that a call runs, if it runs one from an applied plan, is sound. -/
def BootTargetCall.SoundRollbacks (s : BootState) (answers : Nat → FirmwareAnswer) :
    BootTargetCall → Prop
  | transaction .rollback => TakesBack s → SoundRollback s answers
  | transaction .apply =>
      match applyBody.run answers s with
      | (.failed _, failed) => TakesBack failed →
          -- The label logs and flushes before it rolls back.
          SoundRollback failed fun n => applyBody.rest answers s (n + 2)
      | (.returned _, _) => True
  | _ => True

/-- One exported call whose rollback is sound; what the ROMs say may be different after it. -/
def ArgumentStep (s s' : BootState) : Prop :=
  ∃ (call : BootTargetCall) (answers : Nat → FirmwareAnswer) (rom : RomEvidence),
    call.SoundRollbacks s answers ∧ s' = { (call.exec.run answers s).2 with rom := rom }

/-- A call whose rollback is sound, over the same ROMs. -/
theorem argumentStep_of_call (call : BootTargetCall) {answers : Nat → FirmwareAnswer}
    (hsound : call.SoundRollbacks s answers) : ArgumentStep s (call.exec.run answers s).2 :=
  ⟨call, answers, _, hsound, rfl⟩

/-! ### What restorations keep -/

theorem keeps_rollbackRecord (record : PriorityWrite) (overallStatus : EfiStatus) :
    Keeps BootState.planMarks (rollbackRecord record overallStatus) := by
  unfold rollbackRecord
  refine .bind .get fun _ => .ite (.lift _) (.bind (.lift _) fun _ => .bind (.lift _) fun _ => ?_)
  refine .bind .get fun _ => .ite (.lift _) (.bind (fun _ _ _ => rfl) fun _ => .bind .get fun _ => ?_)
  refine .ite (.lift _) (.bind (.modify fun _ => rfl) fun _ => .bind .get fun _ => ?_)
  exact .bind (.lift _) fun _ => .bind (.lift _) fun _ => .bind (.lift _) fun _ => .pure _

theorem keeps_rollbackRecords (records : List PriorityWrite) (overallStatus : EfiStatus) :
    Keeps BootState.planMarks (rollbackRecords records overallStatus) := by
  induction records generalizing overallStatus with
  | nil => exact .pure _
  | cons record rest ih => exact .bind (keeps_rollbackRecord record overallStatus) fun _ => ih _

/-! ### The states between calls -/

/-- An apply has begun, over a journal and a plan. -/
structure Staged (s : BootState) (journal : List BbsTable) (planned : List UInt16) : Prop
    extends Settled s journal where
  selects : SelectsOne s planned
  journalAttempted : s.context.journalAttempted = true
  attempted : s.context.priorityTransactionAttempted = true

/-- The states between calls, as far as the gate is concerned. -/
inductive Lawful (s : BootState) : Prop
  /-- No target. -/
  | idle (huntouched : Untouched s) (hincomplete : s.context.discoveryComplete = false)
  /-- A target without a journal. -/
  | discovered (h : Discovered s) (huntouched : s.context.priorityTransactionAttempted = false ∧
      s.context.prioritiesApplied = false)
  /-- A journal, and nothing written yet. -/
  | ready {journal : List BbsTable} {planned : List UInt16} (h : JournalReady s journal)
      (hselects : SelectsOne s planned) (hkeeps : PlanKeepsOthers s journal planned)
      (hjournaled : s.context.journalAttempted = true)
      (hdirty : s.context.priorityTransactionDirty = false)
      (happlied : s.context.prioritiesApplied = false)
  /-- An apply that failed, or has been taken back. -/
  | spent (hattempted : s.context.priorityTransactionAttempted = true)
      (happlied : s.context.prioritiesApplied = false)
  /-- The plan in the table, if there is one to take back. -/
  | applied {journal : List BbsTable} {planned : List UInt16} (h : Staged s journal planned)
      (hplan : TakesBack s → PlanInTable s)

/-- What the ROMs say is no part of it. -/
theorem Lawful.withRom (h : Lawful s) (rom : RomEvidence) : Lawful { s with rom := rom } := by
  cases h with
  | idle huntouched hincomplete => exact .idle { huntouched with } hincomplete
  | discovered h huntouched => exact .discovered { h with } huntouched
  | ready h hselects hkeeps hjournaled hdirty happlied =>
      exact .ready { h with verifiable := { h.verifiable with } } { hselects with } (hkeeps.withRom rom)
        hjournaled hdirty happlied
  | spent hattempted happlied => exact .spent hattempted happlied
  | applied h hplan =>
      exact .applied { h with
        verifiable := { h.verifiable with }
        selects := { h.selects with } } hplan

theorem Staged.planInTable (h : Staged s journal planned) (hmatches : LiveMatches s planned) :
    PlanInTable s := by
  obtain ⟨rows, -, hrows⟩ := hmatches
  refine h.selects.plannedPriorities.trans (congrArg some (List.ext_getElem ?_ ?_))
  · rw [h.selects.length, h.count, List.length_map, h.length_live]
  · intro index hindex hlive
    have hrow := hrows index (h.selects.length ▸ hindex)
    simp only [rowAsExpected, Bool.and_eq_true, beq_iff_eq] at hrow
    rw [List.length_map] at hlive
    rw [List.getElem_map, ← getElem!_pos planned index hindex, ← getElem!_pos s.live index hlive]
    exact hrow.2.symm

/-- With the plan in the table, the selected row is the one row of priority zero. -/
theorem SelectsOne.zero_iff (h : SelectsOne s planned) (hplan : PlanInTable s) {index : Nat}
    (hindex : index < s.live.length) :
    s.live[index]!.bootPriority = 0 ↔ index = s.context.liveBbsIndex := by
  obtain rfl : planned = s.live.map BbsTable.bootPriority :=
    Option.some.inj (h.plannedPriorities.symm.trans hplan)
  have hcount : s.live.length = s.context.bbsCount := by simpa using h.length
  have hrow {row : Nat} (hrow : row < s.live.length) :
      (s.live.map BbsTable.bootPriority)[row]! = s.live[row]!.bootPriority := by
    simp [hrow]
  constructor
  · intro hzero
    by_contra hne
    exact h.others index (hcount ▸ hindex) hne ((hrow hindex).trans hzero)
  · rintro rfl
    exact (hrow hindex).symm.trans h.selected

/-- The arguments are handed out only with the plan in the table. -/
theorem Lawful.planInTable (h : Lawful s) {answers : Nat → FirmwareAnswer}
    {arguments : List UInt8 × List UInt8}
    (hok : (legacyBootBootTargetGetLegacyBootArguments s).run answers = .ok arguments) :
    PlanInTable s ∧ ∀ index < s.live.length,
      s.live[index]!.bootPriority = 0 ↔ index = s.context.liveBbsIndex := by
  have hmarks : (legacyBootBootTargetGetLegacyBootArguments s).All (fun _ => True) fun result =>
      ∀ arguments, result = .ok arguments → s.context.discoveryComplete = true ∧
        s.context.journalComplete = true ∧ s.context.prioritiesApplied = true ∧
        s.context.priorityTransactionDirty = true := by
    show Query.Wp _ legacyBootBootTargetGetLegacyBootArguments _ s
    unfold legacyBootBootTargetGetLegacyBootArguments
    simp only [Query.wp_bind, Query.wp_read]
    split
    · simp
    split
    · simp
    case isFalse hgate =>
      intro _ _
      simp only [not_or, Bool.not_eq_true, Bool.not_eq_false'] at hgate
      exact ⟨hgate.2.1, hgate.2.2.1, hgate.2.2.2.1, hgate.2.2.2.2.1⟩
  obtain ⟨hdiscovered, hjournal, happlied, hdirty⟩ := hmarks.run (fun _ => trivial) arguments hok
  cases h with
  | idle huntouched => simp [huntouched.applied] at happlied
  | discovered h huntouched => simp [huntouched.2] at happlied
  | ready _ _ _ _ _ hclear => simp [hclear] at happlied
  | spent _ hclear => simp [hclear] at happlied
  | applied h hplan =>
      have hinTable : PlanInTable s := hplan ⟨happlied, .inl hdirty⟩
      exact ⟨hinTable, fun index hindex => h.selects.zero_iff hinTable hindex⟩

/-! ### Rollbacks -/

/-- The check of a rollback's range asks for the map and then for the access. -/
theorem runRest_legacyBootValidateFirmwareBbsRange {answers : Nat → FirmwareAnswer}
    (h : Verifiable s) :
    (legacyBootValidateFirmwareBbsRange true s).runRest answers =
      if (answers 0).status.isError then ((answers 0).status, fun n => answers (n + 1))
      else (if (answers 1).granted then .success else .securityViolation,
        fun n => answers (n + 2)) := by
  have hpresent : ¬ (s.context.firmwareBbsTable = 0 ∨ s.context.bbsTableBytes = 0) := by
    simp [h.firmwareBbsTable, h.bbsTableBytes]
  show Ask.runRest ((if s.context.firmwareBbsTable = 0 ∨ s.context.bbsTableBytes = 0 then
    pure .invalidParameter else _ : BootQuery EfiStatus) s) answers = _
  rw [if_neg hpresent]
  show Ask.runRest ((if (answers 0).status.isError = true then pure (answers 0).status
    else _ : BootQuery EfiStatus) s) _ = _
  split <;> rfl

/-- What is left of a rollback after its replay changes nothing but the marks. -/
theorem run_restoreJournal {status : EfiStatus} {answers : Nat → FirmwareAnswer} :
    ((restoreJournal status).run answers s).2 =
      if ((replayHistory status).run answers s).1.isError then
        ((replayHistory status).run answers s).2
      else ((replayHistory status).run answers s).2.cleared := by
  unfold restoreJournal
  rw [Prog.run_bind]
  split
  · rfl
  · rfl

/-- A rollback whose range is refused does nothing. -/
theorem run_legacyBootRollbackInternal_refused {answers : Nat → FirmwareAnswer}
    (h : Verifiable s) (hrange : ¬ RangeWritable answers) :
    (legacyBootRollbackInternal.run answers s).2 = s := by
  have herror : ((legacyBootValidateFirmwareBbsRange true s).run answers).isError = true := by
    rw [Ask.run, runRest_legacyBootValidateFirmwareBbsRange h]
    split
    · assumption
    case isFalse hcaptured =>
      have hrefused : (answers 1).granted ≠ true := fun hwritable =>
        hrange ⟨by simpa using hcaptured, hwritable⟩
      rw [if_neg hrefused]
      rfl
  unfold legacyBootRollbackInternal
  rw [Prog.run_bind_get]
  split
  · rfl
  · rw [Prog.run_bind_query, if_pos herror]
    rfl

/-- A rollback whose range is writable is its replay, and a clearing of the marks unless the replay
fails. -/
theorem run_legacyBootRollbackInternal_writable {answers : Nat → FirmwareAnswer}
    (h : Restorable s journal) (hrange : RangeWritable answers) :
    (legacyBootRollbackInternal.run answers s).2 =
      if ((replayHistory .success).run (fun n => answers (n + 2)) s).1.isError then
        ((replayHistory .success).run (fun n => answers (n + 2)) s).2
      else ((replayHistory .success).run (fun n => answers (n + 2)) s).2.cleared := by
  have hcheck : (legacyBootValidateFirmwareBbsRange true s).runRest answers =
      (.success, fun n => answers (n + 2)) := by
    rw [runRest_legacyBootValidateFirmwareBbsRange h.verifiable, if_neg (by simp [hrange.captured]),
      if_pos hrange.writable]
  have hvalid : (legacyBootValidateFirmwareBbsRange true s).run answers = .success :=
    congrArg Prod.fst hcheck
  rw [run_legacyBootRollbackInternal h.journalComplete (by rw [hvalid]; rfl), hvalid, hcheck,
    run_restoreJournal]

/-- A replay whose stores take effect puts every row back, whatever else it is answered. -/
theorem wp_replayHistory_stores (hstores : ∀ answer, A answer → answer.stored = none)
    (h : Restorable s journal) {status : EfiStatus} :
    (replayHistory status).Wp A
      (fun _ s' => s' = restoreRows s.context.priorityWrites s) s := by
  have hrecords (overallStatus : EfiStatus) :
      (rollbackRecords s.context.priorityWrites.reverse overallStatus).Wp A
        (fun _ s' => s' = restoreRows s.context.priorityWrites s) s := by
    refine (wp_rollbackRecords_foldl hstores h.bbsJournal h.identities fun record hrecord =>
      h.inRange record (List.mem_reverse.mp hrecord)).mono ?_
    rintro - s' rfl
    exact List.foldl_reverse
  exact (wp_replayHistory hrecords).mono fun _ _ h' => h'.1

theorem planMarks_restoreRows (writes : List PriorityWrite) :
    (restoreRows writes s).planMarks = s.planMarks := by
  obtain ⟨live, expected, heq⟩ := restoreRows_eq (s := s) writes
  rw [heq]
  rfl

/-- A sound rollback of a staged table leaves it lawful. -/
theorem Staged.rollback (h : Staged s journal planned) (hplan : PlanInTable s) {answers : Nat → FirmwareAnswer}
    (hsound : SoundRollback s answers) : Lawful (legacyBootRollbackInternal.run answers s).2 := by
  by_cases hrange : RangeWritable answers
  case neg =>
    rw [run_legacyBootRollbackInternal_refused h.verifiable hrange]
    exact .applied h fun _ => hplan
  have hmarks := planMarks_restoreRows (s := s) s.context.priorityWrites
  have hselects := h.selects.of_planMarks hmarks
  simp only [BootState.planMarks, Prod.mk.injEq] at hmarks
  obtain ⟨-, -, hplanned, hjournaled, hattempted, -⟩ := hmarks
  have hstores : ∀ answer ∈ replayAnswers s answers, answer.stored = none := by
    rcases hsound hrange with hnoError | ⟨-, hstores⟩
    · exact fun answer hanswer => (hnoError answer hanswer).stored
    · exact hstores
  have hreplayed := (wp_replayHistory_stores (A := fun answer => answer.stored = none)
    (fun _ hstored => hstored) h.toRestorable).run_of_used hstores
  rw [run_legacyBootRollbackInternal_writable h.toRestorable hrange, hreplayed]
  split
  case isFalse => exact .spent (hattempted.trans h.attempted) rfl
  case isTrue herror =>
    rcases hsound hrange with hnoError | ⟨⟨original, horiginal, hsame⟩, -⟩
    · have hwp : (replayHistory .success).Wp (MeetsNoError s) (fun result s' =>
          result.isError = false ∧ s' = restoreRows s.context.priorityWrites s) s :=
        wp_replayHistory_noError (fun _ hanswer => hanswer) rfl h.toRestorable
      have hsuccess := hwp.run_of_used hnoError
      simp [hsuccess.1] at herror
    · obtain rfl : original = journal := Option.some.inj (horiginal.symm.trans h.bbsJournal)
      obtain ⟨hlive, hsettled⟩ := h.restored
      refine .applied { hsettled with
        selects := hselects
        journalAttempted := hjournaled.trans h.journalAttempted
        attempted := hattempted.trans h.attempted } fun _ => ?_
      rw [PlanInTable, hplanned, hlive]
      exact hsame

/-- Without an applied plan, no rollback sets the marks of one. -/
theorem wp_legacyBootRollbackInternal_spent
    (hattempted : s.context.priorityTransactionAttempted = true)
    (happlied : s.context.prioritiesApplied = false) :
    legacyBootRollbackInternal.Wp A (fun _ s' => Lawful s') s := by
  let Spent (s' : BootState) : Prop := s'.context.priorityTransactionAttempted = true ∧
    s'.context.prioritiesApplied = false
  have hrecords (overallStatus : EfiStatus) :
      (rollbackRecords s.context.priorityWrites.reverse overallStatus).Wp A
        (fun _ s' => Spent s') s := by
    refine ((keeps_rollbackRecords _ _).wp s).mono fun _ s' hmarks => ?_
    simp only [BootState.planMarks, Prod.mk.injEq] at hmarks
    obtain ⟨-, -, -, -, hattempted', happlied'⟩ := hmarks
    exact ⟨hattempted'.trans hattempted, happlied'.trans happlied⟩
  refine (wp_legacyBootRollbackInternal (Q := Spent) ⟨hattempted, happlied⟩ hrecords).mono ?_
  rintro _ s' (⟨-, hspent⟩ | ⟨restored, hspent, -, rfl⟩)
  · exact .spent hspent.1 hspent.2
  · exact .spent hspent.1 rfl

/-! ### The apply -/

/-- What the exit of an apply's body leaves: a lawful state, or one to roll back from. -/
def ApplyExit.Leaves (s : BootState) : ApplyExit → Prop
  | .returned _ => Lawful s
  | .failed _ => s.context.priorityTransactionAttempted = true ∧
      (s.context.prioritiesApplied = false ∨
        s.context.prioritiesApplied = true ∧
          ∃ journal planned, Staged s journal planned ∧ (TakesBack s → PlanInTable s))

theorem wp_applyBody_ready (h : JournalReady s journal) (hselects : SelectsOne s planned)
    (hkeeps : PlanKeepsOthers s journal planned) (hjournaled : s.context.journalAttempted = true)
    (hdirty : s.context.priorityTransactionDirty = false)
    (happlied : s.context.prioritiesApplied = false) :
    applyBody.Wp A (fun exit s' => exit.Leaves s') s := by
  have hready : Lawful s := .ready h hselects hkeeps hjournaled hdirty happlied
  unfold applyBody
  refine .bind_get (.ite (fun _ => hready) fun _ => .ite (fun _ => hready) fun _ => ?_)
  refine Prog.Wp.bind (P := fun _ s' => Staged s' journal planned ∧ PlanKeepsOthers s' journal planned ∧
    s'.live = journal ∧ s'.context.priorityTransactionDirty = false ∧ s'.context.priorityWrites = [] ∧
      s'.context.prioritiesApplied = false)
    ⟨{ h.settled with
      verifiable := { h.settled.verifiable with }
      selects := { hselects with }
      journalAttempted := hjournaled
      attempted := rfl }, hkeeps, h.live, hdirty, h.priorityWrites, happlied⟩ ?_
  rintro _ s₁ ⟨h₁, hkeeps₁, hlive₁, hdirty₁, hwrites₁, happlied₁⟩
  have hspent : Lawful s₁ := .spent h₁.attempted happlied₁
  refine .bind_query fun status => .ite (fun _ => hspent) fun _ => .bind_query fun _ =>
    .bind_query fun status => .ite (fun _ => hspent) fun _ => .bind_query fun status =>
      .ite (fun _ => hspent) fun _ => ?_
  refine Prog.Wp.bind ((wp_writePlan_planInTable h₁.toSettled hlive₁ h₁.selects hkeeps₁).and
    (keeps_writePlan.wp s₁)) ?_
  rintro status s₂ ⟨hwritten, hmarks⟩
  have hselects₂ := h₁.selects.of_planMarks hmarks
  simp only [BootState.planMarks, Prod.mk.injEq] at hmarks
  obtain ⟨-, -, -, hjournaled₂, hattempted₂, happlied₂⟩ := hmarks
  refine .ite (fun _ => .pure ⟨hattempted₂.trans h₁.attempted,
    .inl (happlied₂.trans happlied₁)⟩) fun hsuccess => ?_
  obtain ⟨h₂, hplan₂⟩ := hwritten (by simpa using hsuccess)
  refine Prog.Wp.bind (P := fun _ s' => Staged s' journal planned ∧
    s'.context.prioritiesApplied = true ∧ (TakesBack s' → PlanInTable s'))
    ⟨{ h₂ with
      verifiable := { h₂.verifiable with }
      selects := { hselects₂ with }
      journalAttempted := hjournaled₂.trans h₁.journalAttempted
      attempted := hattempted₂.trans h₁.attempted }, rfl, ?_⟩ ?_
  · rintro ⟨-, htaken⟩
    rcases hplan₂ with hplan | hsame
    · exact hplan
    · -- Nothing was written, so that there is nothing to take back.
      subst hsame
      simp [hdirty₁, hwrites₁] at htaken
  rintro _ s₃ ⟨h₃, happlied₃, hplan₃⟩
  have hfailed (status : EfiStatus) : (ApplyExit.failed status).Leaves s₃ :=
    ⟨h₃.attempted, .inr ⟨happlied₃, journal, planned, h₃, hplan₃⟩⟩
  refine Prog.wp_bind.mpr (Prog.wp_lift.mpr (wp_legacyBootBootTargetValidateApplied.mono ?_))
  intro status hvalid
  refine .ite (fun _ => .pure (hfailed _)) fun hvalidated => .bind_query fun _ =>
    .bind_query fun status => .ite (fun _ => .pure (hfailed _)) fun _ => .pure ?_
  obtain ⟨planned', hplanned', hmatches⟩ := hvalid (by simpa using hvalidated)
  obtain rfl : planned' = planned :=
    Option.some.inj (hplanned'.symm.trans h₃.selects.plannedPriorities)
  exact .applied h₃ fun _ => h₃.planInTable hmatches

/-- The label `Failed` logs, flushes, and rolls back what there is to roll back. -/
theorem run_applyFailed {status : EfiStatus} {answers : Nat → FirmwareAnswer} :
    ((applyFailed status).run answers s).2 =
      if s.context.priorityTransactionDirty || s.context.priorityWrites.length ≠ 0 then
        (legacyBootRollbackInternal.run (fun n => answers (n + 2)) s).2
      else s := by
  unfold applyFailed
  rw [Prog.run_bind_query, Prog.run_bind_query, Prog.run_bind_get]
  dsimp only
  split
  case isFalse => rfl
  case isTrue =>
    rw [Prog.run_bind]
    split <;> rfl

/-! ### Every call -/

/-- An apply whose rollback is sound leaves the gate lawful. -/
theorem Lawful.apply (h : Lawful s) {answers : Nat → FirmwareAnswer}
    (hsound : (BootTargetCall.transaction .apply).SoundRollbacks s answers) :
    Lawful (legacyBootBootPriorityApply.run answers s).2 := by
  have hbody : applyBody.Wp (fun _ => True) (fun exit s' => exit.Leaves s') s := by
    cases h with
    | idle huntouched hincomplete =>
        unfold applyBody
        refine .bind_get (.ite (fun _ => .idle huntouched hincomplete) fun hguard => ?_)
        simp [hincomplete] at hguard
    | discovered h huntouched =>
        unfold applyBody
        refine .bind_get (.ite (fun _ => .discovered h huntouched) fun hguard => ?_)
        simp [h.journalComplete] at hguard
    | ready h hselects hkeeps hjournaled hdirty happlied =>
        exact wp_applyBody_ready h hselects hkeeps hjournaled hdirty happlied
    | spent hattempted happlied =>
        have hspent : Lawful s := .spent hattempted happlied
        unfold applyBody
        refine .bind_get (.ite (fun _ => hspent) fun _ => .ite (fun _ => hspent) fun hfirst => ?_)
        exact absurd hattempted hfirst
    | applied h hplan =>
        have happlied : Lawful s := .applied h hplan
        unfold applyBody
        refine .bind_get (.ite (fun _ => happlied) fun _ => .ite (fun _ => happlied) fun hfirst => ?_)
        exact absurd h.attempted hfirst
  have hends := hbody.runAny answers
  unfold legacyBootBootPriorityApply
  rw [Prog.run_bind]
  simp only [BootTargetCall.SoundRollbacks] at hsound
  rcases hrun : applyBody.run answers s with ⟨exit, s₁⟩
  rw [hrun] at hends hsound
  cases exit with
  | returned status => exact hends
  | failed status =>
      obtain ⟨hattempted, hcase⟩ := hends
      show Lawful ((applyFailed status).run (applyBody.rest answers s) s₁).2
      rw [run_applyFailed]
      rcases hcase with happlied | ⟨happlied, journal, planned, hstaged, hplan⟩
      · split
        · exact (wp_legacyBootRollbackInternal_spent hattempted happlied).runAny _
        · exact .spent hattempted happlied
      · split
        case isTrue hmarks =>
          have htaken : TakesBack s₁ := ⟨happlied, by simpa using hmarks⟩
          exact hstaged.rollback (hplan htaken) (hsound htaken)
        case isFalse => exact .applied hstaged hplan

/-- A sound rollback leaves the gate lawful. -/
theorem Lawful.rollback (h : Lawful s) {answers : Nat → FirmwareAnswer}
    (hsound : TakesBack s → SoundRollback s answers) :
    Lawful (legacyBootBootPriorityRollback.run answers s).2 := by
  unfold legacyBootBootPriorityRollback
  rw [Prog.run_bind_get]
  dsimp only
  split
  · exact h
  split
  · rw [Prog.run_query]
    exact h
  case isFalse hguard hmarks =>
    cases h with
    | idle huntouched => simp [huntouched.journalComplete] at hguard
    | discovered h => simp [h.journalComplete] at hguard
    | ready h _ _ _ hdirty => simp [hdirty, h.priorityWrites] at hmarks
    | spent hattempted happlied =>
        exact (wp_legacyBootRollbackInternal_spent hattempted happlied).runAny answers
    | applied h hplan =>
        cases happlied : s.context.prioritiesApplied with
        | false => exact (wp_legacyBootRollbackInternal_spent h.attempted happlied).runAny answers
        | true =>
            have htaken : TakesBack s := by
              refine ⟨happlied, ?_⟩
              cases hdirty : s.context.priorityTransactionDirty <;> simp_all
            exact h.rollback (hplan htaken) (hsound htaken)

theorem Lawful.discover (h : Lawful s) (request : DiscoverRequest) :
    (legacyBootBootTargetDiscover request).Wp A (fun _ s' => Lawful s') s := by
  refine wp_legacyBootBootTargetDiscover.mono fun status s' houtcome => ?_
  cases houtcome with
  | refused => exact h
  | failed _ huntouched _ hincomplete => exact .idle huntouched hincomplete
  | complete _ huntouched _ hsignature hcomplete hcount hbound =>
      exact .discovered (huntouched.discovered hsignature hcomplete hcount hbound)
        ⟨huntouched.attempted, huntouched.applied⟩

theorem Lawful.prepare (h : Lawful s) :
    legacyBootBootTargetPrepare.Wp A (fun _ s' => Lawful s') s := by
  have hrefused (hguard : (!s.context.discoveryComplete || s.context.journalAttempted) = true) :
      legacyBootBootTargetPrepare.Wp A (fun _ s' => Lawful s') s := by
    unfold legacyBootBootTargetPrepare
    exact .bind_get (.ite (fun _ => h) fun hpassed => absurd hguard hpassed)
  cases h with
  | idle _ hincomplete => exact hrefused (by simp [hincomplete])
  | ready _ _ _ hjournaled => exact hrefused (by simp [hjournaled])
  | applied h => exact hrefused (by simp [h.journalAttempted])
  | discovered h huntouched =>
      refine wp_legacyBootBootTargetPrepare.mono fun _ s' hkept => ?_
      exact .discovered (h.of_outline (outline_of_kept hkept))
        ⟨(congrArg (·.context.priorityTransactionAttempted) hkept).trans huntouched.1,
          (congrArg (·.context.prioritiesApplied) hkept).trans huntouched.2⟩
  | spent hattempted happlied =>
      refine wp_legacyBootBootTargetPrepare.mono fun _ s' hkept => ?_
      exact .spent ((congrArg (·.context.priorityTransactionAttempted) hkept).trans hattempted)
        ((congrArg (·.context.prioritiesApplied) hkept).trans happlied)

theorem Lawful.journalAndValidate (h : Lawful s) :
    legacyBootBootTargetJournalAndValidate.Wp A (fun _ s' => Lawful s') s := by
  have hrefused (hguard : (s.context.journalAttempted || s.context.journalComplete ||
      s.context.priorityTransactionAttempted) = true ∨ s.context.discoveryComplete = false) :
      legacyBootBootTargetJournalAndValidate.Wp A (fun _ s' => Lawful s') s := by
    unfold legacyBootBootTargetJournalAndValidate
    refine .bind_get (.ite (fun _ => h) fun hfound => .ite (fun _ => h) fun hpassed => ?_)
    rcases hguard with hstarted | hincomplete
    · exact absurd hstarted hpassed
    · simp [hincomplete] at hfound
  cases h with
  | idle _ hincomplete => exact hrefused (.inr hincomplete)
  | ready _ _ _ hjournaled => exact hrefused (.inl (by simp [hjournaled]))
  | spent hattempted => exact hrefused (.inl (by simp [hattempted]))
  | applied h => exact hrefused (.inl (by simp [h.journalAttempted]))
  | discovered h huntouched =>
      refine wp_legacyBootBootTargetJournalAndValidate.mono fun status s' houtcome => ?_
      cases houtcome with
      | incomplete houtline =>
          exact .discovered (h.of_outline houtline)
            ⟨(congrArg (·.context.priorityTransactionAttempted) houtline).trans huntouched.1,
              (congrArg (·.context.prioritiesApplied) houtline).trans huntouched.2⟩
      | @complete _ planned houtline hplanned hcrc hattempted hverifiable =>
          have hsound := soundPlan_of_priorityPlan hplanned.liveBbsIndex hplanned.plan
          exact .ready (.of_outcome h (.complete houtline hplanned hcrc hattempted hverifiable)
              (congrArg (·.context.journalComplete) houtline))
            { plannedPriorities := hplanned.plannedPriorities
              length := hsound.length
              inRange := hplanned.liveBbsIndex
              selected := hsound.selected
              others := hsound.others } (fun index hindex _ => hsound.preserved index hindex) hattempted
            ((congrArg (·.context.priorityTransactionDirty) houtline).trans h.clean.1)
            ((congrArg (·.context.prioritiesApplied) houtline).trans huntouched.2)

theorem Lawful.release (h : Lawful s) :
    legacyBootBootTargetRelease.Wp A (fun _ s' => Lawful s') s := by
  refine wp_legacyBootBootTargetRelease.mono fun _ s' h' => ?_
  rcases h' with ⟨-, rfl⟩ | ⟨-, rfl, -⟩
  · exact h
  · exact .idle ⟨rfl, rfl, rfl, rfl, rfl, rfl⟩ rfl

/-- One call keeps the gate lawful. -/
theorem Lawful.step (h : Lawful s) (hstep : ArgumentStep s s') : Lawful s' := by
  obtain ⟨call, answers, rom, hsound, rfl⟩ := hstep
  refine Lawful.withRom ?_ rom
  cases call with
  | discover request => exact (h.discover request).runAny answers
  | transaction call =>
      cases call with
      | prepare => exact h.prepare.runAny answers
      | journalAndValidate => exact h.journalAndValidate.runAny answers
      | apply => exact h.apply hsound
      | rollback => exact h.rollback hsound
      | release => exact h.release.runAny answers
  | validateOwnedCopies | validateOriginal | validateApplied | getLegacyBootArguments
  | getOwnedCopyInfo =>
      rw [BootTargetCall.exec, Prog.run_query]
      exact h

theorem Lawful.run (h : Lawful s) (hrun : Relation.ReflTransGen ArgumentStep s s') : Lawful s' := by
  induction hrun with
  | refl => exact h
  | tail _ hstep ih => exact ih.step hstep

/-- **The law of the boot arguments.** From no target, through any calls whose rollbacks are sound: the
arguments are handed out only while the live priorities are the planned ones, so that the selected row
is the one row of priority zero. -/
theorem legacyBootArguments_lawful {start : BootState} (hstart : start.context = {})
    (hrun : Relation.ReflTransGen ArgumentStep start s) (answers : Nat → FirmwareAnswer)
    {arguments : List UInt8 × List UInt8}
    (hok : (legacyBootBootTargetGetLegacyBootArguments s).run answers = .ok arguments) :
    PlanInTable s ∧ ∀ index < s.live.length,
      s.live[index]!.bootPriority = 0 ↔ index = s.context.liveBbsIndex := by
  have hidle : Lawful start := by
    refine .idle ?_ (by rw [hstart])
    constructor <;> rw [hstart]
  exact (hidle.run hrun).planInTable hok

/-! ### The defect -/

/-- Two failures: the last flush of an apply, after its plan has been validated, and the first message
of the rollback that follows. -/
def sampleFailures (n : Nat) : FirmwareAnswer :=
  if n = 43 ∨ n = 48 then { sampleAnswer with status := .deviceError } else sampleAnswer

/-- The state after an apply that meets them. -/
def sampleTakenBack : BootState :=
  (legacyBootBootPriorityApply.run sampleFailures sampleJournaled).2

/-- The apply fails, its rollback restores the original priorities, and the arguments are still handed
out. -/
theorem sampleTakenBack_not_lawful :
    Relation.ReflTransGen BootTargetStep sampleStart sampleTakenBack ∧
      (legacyBootBootPriorityApply.run sampleFailures sampleJournaled).1.isError = true ∧
      sampleTakenBack.context.bbsJournal = some sampleTakenBack.live ∧
      ((legacyBootBootTargetGetLegacyBootArguments sampleTakenBack).run
        fun _ => sampleAnswer).isOk = true ∧
      ¬ PlanInTable sampleTakenBack := by
  have hdiscover : BootTargetStep sampleStart sampleDiscovered :=
    ⟨.discover sampleRequest, fun _ => sampleAnswer, by rw [sampleDiscovered, BootTargetCall.exec]⟩
  have hjournal : BootTargetStep sampleDiscovered sampleJournaled :=
    ⟨.transaction .journalAndValidate, fun _ => sampleAnswer, by
      rw [sampleJournaled, BootTargetCall.exec, TransactionCall.exec]⟩
  have happly : BootTargetStep sampleJournaled sampleTakenBack :=
    ⟨.transaction .apply, sampleFailures, by
      rw [sampleTakenBack, BootTargetCall.exec, TransactionCall.exec]⟩
  exact ⟨((Relation.ReflTransGen.single hdiscover).tail hjournal).tail happly, by decide +kernel⟩

/-- An apply whose body returns has no rollback. -/
theorem argumentStep_of_returned {answers : Nat → FirmwareAnswer} {status : EfiStatus}
    (h : (applyBody.run answers s).1 = .returned status) :
    ArgumentStep s (legacyBootBootPriorityApply.run answers s).2 := by
  refine argumentStep_of_call (.transaction .apply) ?_
  simp only [BootTargetCall.SoundRollbacks]
  rcases hrun : applyBody.run answers s with ⟨exit, s'⟩
  rw [hrun] at h
  obtain rfl : exit = .returned status := h
  trivial

theorem legacyBootArguments_lawful_sample :
    PlanInTable (legacyBootBootPriorityApply.run (fun _ => sampleAnswer) sampleJournaled).2 := by
  have hdiscover : ArgumentStep sampleStart sampleDiscovered := by
    rw [sampleDiscovered]
    exact argumentStep_of_call (.discover sampleRequest) trivial
  have hjournal : ArgumentStep sampleDiscovered sampleJournaled := by
    rw [sampleJournaled]
    exact argumentStep_of_call (.transaction .journalAndValidate) trivial
  obtain ⟨hreturned, hok⟩ : (applyBody.run (fun _ => sampleAnswer) sampleJournaled).1 =
        .returned .success ∧
      (legacyBootBootTargetGetLegacyBootArguments
        (legacyBootBootPriorityApply.run (fun _ => sampleAnswer) sampleJournaled).2).run
          (fun _ => sampleAnswer) = .ok (samplePath, []) := by
    decide +kernel
  have happly : ArgumentStep sampleJournaled
      (legacyBootBootPriorityApply.run (fun _ => sampleAnswer) sampleJournaled).2 :=
    argumentStep_of_returned hreturned
  have hrun := ((Relation.ReflTransGen.single hdiscover).tail hjournal).tail happly
  exact (legacyBootArguments_lawful rfl hrun _ hok).1

end CsmVgaSelector
