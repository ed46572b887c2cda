import CsmVgaSelector.Proof.Rollback
import CsmVgaSelector.Proof.TransactionSafety

/-!
# Rollback over histories

Every history that writes can build, with the last write possibly failing, and every number of
rollbacks after it: as long as the table's range is writable and stores take effect, each rollback ends
with the journal in the live table, and one that meets no error also clears the transaction's marks.
-/

namespace CsmVgaSelector

variable {start s s' : BootState} {journal : List BbsTable}

/-- A complete journal of the live table, before the first write. -/
structure JournalReady (s : BootState) (journal : List BbsTable) : Prop where
  journalComplete : s.context.journalComplete = true
  bbsJournal : s.context.bbsJournal = some journal
  bbsJournalCrc32 : s.context.bbsJournalCrc32 = legacyBootCrc32 (tableBytes journal)
  count : s.context.bbsCount = journal.length
  live : s.live = journal
  expectedPriorities : s.context.expectedPriorities = some (journal.map BbsTable.bootPriority)
  verifiable : Verifiable s
  priorityWrites : s.context.priorityWrites = []

/-- Journaling that completes a journal makes it ready. -/
theorem JournalReady.of_outcome (h : Discovered s) (houtcome : JournalOutcome s .success s')
    (hcomplete : s'.context.journalComplete = true) : JournalReady s' s'.live := by
  cases houtcome with
  | incomplete houtline =>
      have hincomplete : s'.context.journalComplete = s.context.journalComplete :=
        congrArg (·.context.journalComplete) houtline
      simp [hincomplete, h.journalComplete] at hcomplete
  | complete houtline hplanned hcrc hattempted hverifiable =>
      have hlive : s'.live = s.live :=
        show s'.live = s.journaled.live from live_of_outline houtline
      have hcount : s'.context.bbsCount = s.context.bbsCount :=
        congrArg (·.context.bbsCount) houtline
      exact { journalComplete := hcomplete
              bbsJournal := hplanned.bbsJournal
              bbsJournalCrc32 := hcrc
              count := by rw [hcount, h.count, hlive]
              live := rfl
              expectedPriorities := hplanned.expectedPriorities
              verifiable := hverifiable
              priorityWrites := (congrArg (·.context.priorityWrites) houtline).trans h.clean.2 }

theorem JournalReady.settled (h : JournalReady s journal) : Settled s journal := by
  have hexpected : ExpectedExcept s fun _ => False :=
    ⟨_, h.expectedPriorities, by simp [h.live], fun index _ => by
      rw [h.live]
      exact getElem!_map_bootPriority index⟩
  exact { journalComplete := h.journalComplete
          bbsJournal := h.bbsJournal
          bbsJournalCrc32 := h.bbsJournalCrc32
          count := h.count
          identities := by rw [h.live]
          verifiable := h.verifiable
          inRange := fun record hrecord => by simp [h.priorityWrites] at hrecord
          undoes := by
            rw [h.priorityWrites, h.live]
            rfl
          expected := hexpected.imp fun _ hrows =>
            ⟨hrows.1, hrows.2.1, fun row _ => hrows.2.2 row id⟩
          settled := hexpected }

/-- The states that a sequence of successful writes builds. -/
inductive WriteHistory (start : BootState) : BootState → Prop
  | start : WriteHistory start start
  | write {s : BootState} {index : Nat} {priority : UInt16} {answers : Nat → FirmwareAnswer}
      (h : WriteHistory start s)
      (hsuccess : ((legacyBootWritePriority index priority).run answers s).1.isError = false) :
      WriteHistory start ((legacyBootWritePriority index priority).run answers s).2

/-- The states that writes build when the last of them may fail in any way. -/
inductive BuiltHistory (start : BootState) : BootState → Prop
  | successful {s : BootState} (h : WriteHistory start s) : BuiltHistory start s
  | lastWrite {s : BootState} (h : WriteHistory start s) (index : Nat) (priority : UInt16)
      (answers : Nat → FirmwareAnswer) :
      BuiltHistory start ((legacyBootWritePriority index priority).run answers s).2

/-- One write from a settled state, to a row of the table or to none. -/
theorem Settled.wp_write {A : FirmwareAnswer → Prop} (h : Settled s journal) {index : Nat}
    {priority : UInt16} :
    (legacyBootWritePriority index priority).Wp A
      (fun status s' => Restorable s' journal ∧ (status.isError = false → Settled s' journal)) s := by
  by_cases hindex : index < journal.length
  · exact (wp_legacyBootWritePriority (h.length_live ▸ hindex)).mono
      fun _ _ houtcome => h.write hindex houtcome
  · obtain ⟨expected, hexpected, -⟩ := h.settled
    have hrange : index ≥ s.context.bbsCount := by
      rw [h.count]
      omega
    unfold legacyBootWritePriority
    simp only [Prog.wp_bind, Prog.wp_get, hexpected, h.bbsJournal, hrange, decide_true,
      Bool.or_true, if_true]
    exact ⟨h.toRestorable, fun _ => h⟩

theorem WriteHistory.settled (hstart : JournalReady start journal) (h : WriteHistory start s) :
    Settled s journal := by
  induction h with
  | start => exact hstart.settled
  | write h hsuccess ih => exact (ih.wp_write.runAny _).2 hsuccess

theorem BuiltHistory.restorable (hstart : JournalReady start journal) (h : BuiltHistory start s) :
    Restorable s journal := by
  cases h with
  | successful h => exact (h.settled hstart).toRestorable
  | lastWrite h index priority answers => exact ((h.settled hstart).wp_write.runAny answers).1

/-- The firmware table's range validates as writable, and every store takes effect. -/
structure StoresTakeEffect (s : BootState) (answers : Nat → FirmwareAnswer) : Prop where
  range : ((legacyBootValidateFirmwareBbsRange true s).run answers).isError = false
  stores : ∀ n, (answers n).stored = none

/-- A rollback whose stores take effect. -/
def RollbackStep (s s' : BootState) : Prop :=
  ∃ answers, StoresTakeEffect s answers ∧ s' = (legacyBootRollbackInternal.run answers s).2

/-- A rollback whose stores take effect restores the journal and can be repeated. -/
theorem Restorable.rollback (h : Restorable s journal) {answers : Nat → FirmwareAnswer}
    (heffective : StoresTakeEffect s answers) :
    (legacyBootRollbackInternal.run answers s).2.live = journal ∧
      Restorable (legacyBootRollbackInternal.run answers s).2 journal := by
  rw [run_legacyBootRollbackInternal h.journalComplete heffective.range]
  have hexact := wp_restoreJournal_exact (A := fun answer => answer.stored = none)
    (fun _ hstored => hstored) h ((legacyBootValidateFirmwareBbsRange true s).run answers)
  have hrest := Ask.runRest_forall (A := fun answer => answer.stored = none)
    (legacyBootValidateFirmwareBbsRange true s) heffective.stores
  have hresult := hexact.run hrest
  exact ⟨hresult.1, hresult.2.toRestorable⟩

theorem Restorable.rollbacks (h : Restorable s journal)
    (hrun : Relation.ReflTransGen RollbackStep s s') : Restorable s' journal := by
  induction hrun with
  | refl => exact h
  | tail _ hstep ih =>
      obtain ⟨answers, heffective, rfl⟩ := hstep
      exact (ih.rollback heffective).2

/-- **Rollback is exact and repeatable.** After any history of writes and any number of rollbacks whose
stores took effect, one more such rollback ends with the journal in the live table, whatever it
returns; and if it meets no error it succeeds and clears every mark. -/
theorem rollback_exact {built : BootState} (hstart : JournalReady start journal)
    (hbuilt : BuiltHistory start built) (hrun : Relation.ReflTransGen RollbackStep built s)
    {answers : Nat → FirmwareAnswer} (heffective : StoresTakeEffect s answers) :
    (legacyBootRollbackInternal.run answers s).2.live = journal ∧
      ((∀ n, MeetsNoError s (answers n)) →
        (legacyBootRollbackInternal.run answers s).1.isError = false ∧
        ((∀ n, (answers n).status = .success) →
          (legacyBootRollbackInternal.run answers s).1 = .success) ∧
        (legacyBootRollbackInternal.run answers s).2.context.priorityTransactionDirty = false ∧
        (legacyBootRollbackInternal.run answers s).2.context.prioritiesApplied = false ∧
        (legacyBootRollbackInternal.run answers s).2.context.priorityWrites.length = 0) := by
  have hrestorable : Restorable s journal := (hbuilt.restorable hstart).rollbacks hrun
  refine ⟨(hrestorable.rollback heffective).1, fun hnoError => ?_⟩
  have hwp := wp_legacyBootRollbackInternal_noError
    (A := fun answer => ∃ n, answer = answers n) (by rintro _ ⟨n, rfl⟩; exact hnoError n) hrestorable
  obtain ⟨⟨answer, ⟨n, rfl⟩, hstatus⟩, hs⟩ := hwp.run fun n => ⟨n, rfl⟩
  rw [hstatus, hs]
  exact ⟨(hnoError n).status, fun hsuccess => hsuccess n, rfl, rfl, rfl⟩

/-- After a journal, two writes and no failure, the rollback finds its way back. -/
theorem rollback_exact_sample :
    (legacyBootRollbackInternal.run (fun _ => sampleAnswer)
      ((legacyBootWritePriority 0 0).run (fun _ => sampleAnswer)
        ((legacyBootWritePriority 0 bbsUnprioritizedEntry).run (fun _ => sampleAnswer)
          sampleJournaled).2).2).2.live = [sampleRow] := by
  obtain ⟨hstatus, hlive, hcomplete, hneutral, hassigned, hrange⟩ :
      (legacyBootBootTargetJournalAndValidate.run (fun _ => sampleAnswer) sampleDiscovered).1 =
        .success ∧
      sampleJournaled.live = [sampleRow] ∧ sampleJournaled.context.journalComplete = true ∧
      ((legacyBootWritePriority 0 bbsUnprioritizedEntry).run (fun _ => sampleAnswer)
        sampleJournaled).1.isError = false ∧
      ((legacyBootWritePriority 0 0).run (fun _ => sampleAnswer)
        ((legacyBootWritePriority 0 bbsUnprioritizedEntry).run (fun _ => sampleAnswer)
          sampleJournaled).2).1.isError = false ∧
      ((legacyBootValidateFirmwareBbsRange true
        ((legacyBootWritePriority 0 0).run (fun _ => sampleAnswer)
          ((legacyBootWritePriority 0 bbsUnprioritizedEntry).run (fun _ => sampleAnswer)
            sampleJournaled).2).2).run fun _ => sampleAnswer).isError = false := by
    decide +kernel
  have hready : JournalReady sampleJournaled [sampleRow] := by
    have houtcome : JournalOutcome sampleDiscovered
        (legacyBootBootTargetJournalAndValidate.run (fun _ => sampleAnswer) sampleDiscovered).1
        sampleJournaled :=
      wp_legacyBootBootTargetJournalAndValidate.runAny _
    rw [hstatus] at houtcome
    rw [← hlive]
    exact .of_outcome (discovered_of_discover sampleDiscover_success).1 houtcome hcomplete
  have hwrites : WriteHistory sampleJournaled
      ((legacyBootWritePriority 0 0).run (fun _ => sampleAnswer)
        ((legacyBootWritePriority 0 bbsUnprioritizedEntry).run (fun _ => sampleAnswer)
          sampleJournaled).2).2 := .write (.write .start hneutral) hassigned
  exact (rollback_exact hready (.successful hwrites) .refl ⟨hrange, fun _ => rfl⟩).1

end CsmVgaSelector
