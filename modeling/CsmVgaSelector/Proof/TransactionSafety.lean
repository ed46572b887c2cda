import CsmVgaSelector.Proof.Discovery

/-!
# Transaction safety over runs

Whatever the calls of a discovered target are answered, and in whatever order they are made: the live
table stays within what the policy allows, the marks stay set while it may differ from the journal, an
apply that succeeds has put exactly the plan there, and the journal is not freed too early.
-/

namespace CsmVgaSelector

variable {s s' : BootState} {journal : List BbsTable}

/-- The live table differs from the journal in priorities only, and only on eligible rows. -/
def WithinPolicy (s : BootState) (journal : List BbsTable) : Prop :=
  s.live.length = journal.length ∧
    ∀ index < journal.length,
      s.live[index]! = journal[index]!.withPriority s.live[index]!.bootPriority ∧
        (legacyBootBbsIndexIsTransactionEligible s.rom s.context index = false →
          s.live[index]! = journal[index]!)

/-- The live table is the journal with exactly the planned priorities substituted. -/
def PlanApplied (s : BootState) : Prop :=
  ∃ journal planned, s.context.bbsJournal = some journal ∧
    s.context.plannedPriorities = some planned ∧ s.live = withPriorities journal planned

theorem Journaled.withinPolicy (h : Journaled s journal) : WithinPolicy s journal := by
  refine ⟨h.length_live, fun index hindex => ?_⟩
  have hrow := (identities_eq_iff h.length_live).mp h.identities index hindex
  refine ⟨BbsTable.eq_withPriority_of_sameIdentity hrow, fun hineligible => ?_⟩
  refine BbsTable.eq_of_sameIdentity hrow (h.preserved index ?_)
  simp [Eligible, hineligible]

theorem Journaled.planApplied {planned : List UInt16} (h : Journaled s journal)
    (hplanned : s.context.plannedPriorities = some planned) (hmatches : LiveMatches s planned) :
    PlanApplied s := by
  obtain ⟨planned', hplanned', hlength⟩ := h.planned
  obtain rfl : planned' = planned := Option.some.inj (hplanned'.symm.trans hplanned)
  obtain ⟨journal', hjournal', hrows⟩ := hmatches
  obtain rfl : journal' = journal := Option.some.inj (hjournal'.symm.trans h.bbsJournal)
  refine ⟨journal', planned', h.bbsJournal, hplanned, eq_of_identities_of_priorities ?_ ?_⟩
  · rw [h.identities, identities_withPriorities hlength]
  · rw [priorities_withPriorities hlength]
    funext index
    by_cases hindex : index < s.context.bbsCount
    · have hrow := hrows index hindex
      simp only [rowAsExpected, Bool.and_eq_true, beq_iff_eq] at hrow
      exact hrow.2
    · rw [h.count] at hindex
      rw [priorities_of_length_le (by rw [h.length_live]; omega),
        List.getElem!_eq_getElem?_getD, List.getElem?_eq_none (by omega)]
      rfl

theorem Safe.planApplied (h : Safe s) {answers : Nat → FirmwareAnswer}
    (hsuccess : (legacyBootBootPriorityApply.run answers s).1.isError = false) :
    PlanApplied (legacyBootBootPriorityApply.run answers s).2 := by
  have hwp : legacyBootBootPriorityApply.Wp (fun _ => True)
      (fun status s' => status.isError = false → PlanApplied s') s := by
    cases h with
    | discovered h =>
        simp only [legacyBootBootPriorityApply, applyBody, Prog.wp_bind, Prog.wp_get,
          h.journalComplete, Bool.not_false, or_true, if_true]
        exact fun hstatus => by simp [EfiStatus.isError] at hstatus
    | journaled h =>
        refine (wp_legacyBootBootPriorityApply_journaled h).mono fun status s' h' hstatus => ?_
        obtain ⟨planned, hplanned, hmatches⟩ := h'.2 hstatus
        exact h'.1.planApplied hplanned hmatches
    | released h =>
        simp only [legacyBootBootPriorityApply, applyBody, Prog.wp_bind, Prog.wp_get, h.1]
        exact fun hstatus => by simp [EfiStatus.isError] at hstatus
  exact hwp.runAny answers hsuccess

/-- A release that is not refused finds the journal in the live table. -/
theorem Safe.live_of_release (h : Safe s) {answers : Nat → FirmwareAnswer}
    (hcomplete : s.context.journalComplete = true)
    (hsuccess : (legacyBootBootTargetRelease.run answers s).1.isError = false) :
    s.context.bbsJournal = some s.live := by
  have hrelease := (wp_legacyBootBootTargetRelease (s := s)).runAny answers
  cases h with
  | discovered h => simp [h.journalComplete] at hcomplete
  | journaled h =>
      rcases hrelease with ⟨hstatus, -⟩ | ⟨-, -, hmarks⟩
      · simp [hstatus, EfiStatus.isError] at hsuccess
      · rw [h.bbsJournal, (h.clean (hmarks h.signature).1).2]
  | released h => simp [h.1] at hcomplete

/-- A discovery that succeeds starts a transaction. -/
theorem discovered_of_discover {start : BootState} {request : DiscoverRequest}
    {answers : Nat → FirmwareAnswer}
    (hsuccess : ((legacyBootBootTargetDiscover request).run answers start).1.isError = false) :
    Discovered ((legacyBootBootTargetDiscover request).run answers start).2 ∧
      ((legacyBootBootTargetDiscover request).run answers start).2.historyFull =
        start.historyFull := by
  have houtcome : DiscoverOutcome start
      ((legacyBootBootTargetDiscover request).run answers start).1
      ((legacyBootBootTargetDiscover request).run answers start).2 :=
    wp_legacyBootBootTargetDiscover.runAny answers
  generalize (legacyBootBootTargetDiscover request).run answers start = result at hsuccess houtcome
  obtain ⟨status, s⟩ := result
  cases houtcome with
  | refused herror => simp [herror] at hsuccess
  | failed herror => simp [herror] at hsuccess
  | complete _ huntouched hfull hsignature hcomplete hcount hbound =>
      exact ⟨huntouched.discovered hsignature hcomplete hcount hbound, hfull⟩

/-- **Transaction safety.** In every state a discovered target reaches: a complete journal differs from
the live table in the priorities of eligible rows at most, and not at all while no mark is set; no write
has found the history full; an apply that succeeds leaves the journal with the plan substituted; and a
release frees a complete journal only when it is the live table. -/
theorem transaction_safe {start : BootState} {request : DiscoverRequest}
    {answers : Nat → FirmwareAnswer} (hfull : start.historyFull = false)
    (hdiscover : ((legacyBootBootTargetDiscover request).run answers start).1.isError = false)
    (hrun : TransactionRun ((legacyBootBootTargetDiscover request).run answers start).2 s) :
    (s.context.journalComplete = true → ∃ journal, s.context.bbsJournal = some journal ∧
      WithinPolicy s journal ∧
      (s.context.priorityTransactionDirty = false → s.context.priorityWrites.length = 0 →
        s.live = journal)) ∧
    s.historyFull = false ∧
    (∀ answers, (legacyBootBootPriorityApply.run answers s).1.isError = false →
      PlanApplied (legacyBootBootPriorityApply.run answers s).2) ∧
    (∀ answers, s.context.journalComplete = true →
      (legacyBootBootTargetRelease.run answers s).1.isError = false →
        s.context.bbsJournal = some s.live) ∧
    ∀ answers, (legacyBootBootTargetRelease.run answers s).1.isError = true →
      (legacyBootBootTargetRelease.run answers s).2 = s := by
  obtain ⟨hdiscovered, hkept⟩ := discovered_of_discover hdiscover
  have hsafe : Safe s := (Safe.discovered hdiscovered (hkept.trans hfull)).run hrun
  refine ⟨fun hcomplete => ?_, ?_, fun answers => hsafe.planApplied,
    fun answers => hsafe.live_of_release, fun answers herror => ?_⟩
  · cases hsafe with
    | discovered h => simp [h.journalComplete] at hcomplete
    | journaled h =>
        exact ⟨_, h.bbsJournal, h.withinPolicy, fun hdirty _ => (h.clean hdirty).2⟩
    | released h => simp [h.1] at hcomplete
  · cases hsafe with
    | discovered _ hfull => exact hfull
    | journaled h => exact h.notFull
    | released h => exact h.2
  · rcases (wp_legacyBootBootTargetRelease (s := s)).runAny answers with ⟨-, hs⟩ | ⟨hstatus, -⟩
    · exact hs
    · simp [hstatus] at herror

/-! ### A concrete target -/

/-- One hard disk, not first in the boot order. -/
def sampleRow : BbsTable :=
  { (default : BbsTable) with bootPriority := 1, deviceType := bbsHardDisk, statusFlags := 0x500 }

/-- A BBS node without a description, and the end of the path. -/
def samplePath : List UInt8 := [5, 1, 9, 0, 2, 0, 0, 0, 0, 0x7F, 0xFF, 4, 0]

/-- Firmware that grants everything, has no LegacyDevOrder, and reports one disk. -/
def sampleAnswer : FirmwareAnswer where
  status := .success
  granted := true
  memory := { readableBytes := fun _ => 0, byte := fun _ => 0 }
  variableRead := .error .notFound
  stored := none
  bbsInfo := { hddCount := 0, hddInfo := 0, bbsTable := 0x1000, table := [sampleRow] }
  rom := .reset
  candidate :=
    { isLegacy := true
      isActive := true
      number := 0
      attributes := loadOptionActive
      description := some [0x48, 0]
      devicePath := some samplePath
      devicePathCrc32 := legacyBootCrc32 samplePath
      bbsDeviceType := bbsTypeHarddrive
      bbsStatusFlag := 0
      bbsDescription := []
      optionalData := none
      optionalDataCrc32 := legacyBootCrc32 [] }

def sampleRequest : DiscoverRequest where
  target :=
    { targetBus := 0, targetDevice := 0, targetFunction := 0, targetDescription := [] }
  legacyOptionDescription := [0x48]
  excludeDescription := [0x49]

def sampleStart : BootState where
  context := {}
  live := []
  rom := .reset

/-- The state after a discovery that meets no failure. -/
def sampleDiscovered : BootState :=
  ((legacyBootBootTargetDiscover sampleRequest).run (fun _ => sampleAnswer) sampleStart).2

/-- The state after a discovery and a journal that meet no failure. -/
def sampleJournaled : BootState :=
  (legacyBootBootTargetJournalAndValidate.run (fun _ => sampleAnswer) sampleDiscovered).2

theorem sampleDiscover_success : ((legacyBootBootTargetDiscover sampleRequest).run
    (fun _ => sampleAnswer) sampleStart).1.isError = false := by
  decide +kernel

theorem transaction_safe_sample :
    (legacyBootBootPriorityApply.run (fun _ => sampleAnswer) sampleJournaled).1 = .success ∧
      PlanApplied (legacyBootBootPriorityApply.run (fun _ => sampleAnswer) sampleJournaled).2 := by
  have happly : (legacyBootBootPriorityApply.run (fun _ => sampleAnswer) sampleJournaled).1 =
      .success := by decide +kernel
  have hrun : TransactionRun sampleDiscovered sampleJournaled :=
    .single ⟨.journalAndValidate, fun _ => sampleAnswer, by rw [sampleJournaled, TransactionCall.exec]⟩
  have hsafe := transaction_safe rfl sampleDiscover_success hrun
  exact ⟨happly, hsafe.2.2.1 _ (by rw [happly]; rfl)⟩

end CsmVgaSelector
