import CsmVgaSelector.Bbs.Discover
import CsmVgaSelector.Bbs.TableView

/-!
# What one write can do

A write and a restoration each have a handful of outcomes: refused with the state as it was, stored and
read back wrong, or stored and read back right. Every invariant of the transaction is a case analysis
over these outcomes, so they are derived from the programs here, once.
-/

namespace CsmVgaSelector

variable {A : FirmwareAnswer → Prop} {s : BootState}

/-! ### Queries -/

theorem wp_logFailure {flushResult : Bool} {status : EfiStatus} {Q : EfiStatus → Prop}
    (h : Q status) : Query.Wp A (logFailure flushResult status) Q s := by
  unfold logFailure
  simp only [Query.wp_bind]
  exact Query.wp_of_forall fun _ => Query.wp_of_forall fun _ => h

section Answers

variable {Q : EfiStatus → Prop}

@[simp] theorem wp_logPrint :
    Query.Wp A logPrint Q s ↔ ∀ answer, A answer → Q answer.status :=
  Iff.rfl

@[simp] theorem wp_logFlush :
    Query.Wp A logFlush Q s ↔ ∀ answer, A answer → Q answer.status :=
  Iff.rfl

@[simp] theorem wp_memoryMapCapture {Q : EfiStatus × FarMemory → Prop} :
    Query.Wp A memoryMapCapture Q s ↔ ∀ answer, A answer → Q (answer.status, answer.memory) :=
  Iff.rfl

@[simp] theorem wp_memoryMapRangeIsReadable {Q : Bool → Prop} :
    Query.Wp A memoryMapRangeIsReadable Q s ↔ ∀ answer, A answer → Q answer.granted :=
  Iff.rfl

@[simp] theorem wp_memoryMapRangeIsWritable {Q : Bool → Prop} :
    Query.Wp A memoryMapRangeIsWritable Q s ↔ ∀ answer, A answer → Q answer.granted :=
  Iff.rfl

end Answers

/-- Every row is as the journal and the vector of expected priorities say. -/
def LiveMatches (s : BootState) (expected : List UInt16) : Prop :=
  ∃ journal, s.context.bbsJournal = some journal ∧
    ∀ index < s.context.bbsCount, rowAsExpected s.live[index]! journal[index]! expected[index]!

/-- What a verification needs of the context. -/
structure Verifiable (s : BootState) : Prop where
  verificationScratch : s.context.verificationScratch = true
  firmwareBbsTable : s.context.firmwareBbsTable ≠ 0
  bbsTableBytes : s.context.bbsTableBytes ≠ 0
  strings : ∃ strings, s.context.bbsJournalStrings = some strings ∧
    stringsCrc32 strings = s.context.bbsJournalStringsCrc32

theorem wp_legacyBootValidateFirmwareBbsRange {writable : Bool} :
    Query.Wp A (legacyBootValidateFirmwareBbsRange writable)
      (fun status => status.isError = false →
        s.context.firmwareBbsTable ≠ 0 ∧ s.context.bbsTableBytes ≠ 0) s := by
  unfold legacyBootValidateFirmwareBbsRange
  simp only [Query.wp_bind, Query.wp_read]
  split
  case isTrue => exact fun h => by simp [EfiStatus.isError] at h
  case isFalse hrange =>
    exact Query.wp_of_forall fun _ _ => by simpa using hrange

theorem wp_legacyBootVerifyLiveBbsStrings {flushResult : Bool} :
    Query.Wp A (legacyBootVerifyLiveBbsStrings flushResult)
      (fun status => status.isError = false →
        ∃ strings, s.context.bbsJournalStrings = some strings ∧
          stringsCrc32 strings = s.context.bbsJournalStringsCrc32) s := by
  unfold legacyBootVerifyLiveBbsStrings
  simp only [Query.wp_bind, Query.wp_read]
  split
  case h_1 => exact fun h => by simp [EfiStatus.isError] at h
  case h_2 strings hstrings =>
    split
    case isTrue => exact wp_logFailure fun h => by simp [EfiStatus.isError] at h
    case isFalse hcrc =>
      exact Query.wp_of_forall fun _ _ => ⟨strings, hstrings, by simpa using hcrc⟩

/-- A verification that does not fail has found every row as expected. -/
theorem wp_legacyBootVerifyLiveAgainstPriorities {expected : Option (List UInt16)}
    {writable flushResult : Bool} :
    Query.Wp A (legacyBootVerifyLiveAgainstPriorities expected writable flushResult)
      (fun status => status.isError = false →
        Verifiable s ∧ ∃ priorities, expected = some priorities ∧ LiveMatches s priorities) s := by
  unfold legacyBootVerifyLiveAgainstPriorities
  simp only [Query.wp_bind, Query.wp_read]
  split
  case h_2 => simp [EfiStatus.isError]
  case h_1 priorities journal hjournal hscratch =>
    simp only [Query.wp_bind]
    refine wp_legacyBootValidateFirmwareBbsRange.mono fun status hrange => ?_
    split
    case isTrue herror => exact wp_logFailure fun h => by simp [herror] at h
    split
    case isTrue => exact wp_logFailure fun h => by simp [EfiStatus.isError] at h
    case isFalse hvalid hrows =>
      simp only [Query.wp_bind]
      refine wp_legacyBootVerifyLiveBbsStrings.mono fun status hstrings => ?_
      split
      case isTrue herror =>
        simp only [Query.wp_bind, Query.wp_pure]
        exact Query.wp_of_forall fun _ h => by simp [herror] at h
      case isFalse hverified =>
        obtain ⟨htable, hbytes⟩ := hrange (by simpa using hvalid)
        refine Query.wp_of_forall fun _ _ =>
          ⟨⟨hscratch, htable, hbytes, hstrings (by simpa using hverified)⟩,
            priorities, rfl, journal, hjournal, ?_⟩
        simpa using hrows

/-- An original validation that does not fail has found the transaction's marks clear. -/
theorem wp_legacyBootBootTargetValidateOriginal :
    Query.Wp A legacyBootBootTargetValidateOriginal
      (fun status => status.isError = false →
        s.context.prioritiesApplied = false ∧ s.context.priorityTransactionDirty = false) s := by
  unfold legacyBootBootTargetValidateOriginal
  simp only [Query.wp_bind, Query.wp_read]
  split
  case isTrue => exact fun h => by simp [EfiStatus.isError] at h
  case isFalse hmarks =>
    refine Query.wp_of_forall fun _ _ => ?_
    simp only [Bool.or_eq_true, not_or, Bool.not_eq_true] at hmarks
    exact ⟨hmarks.1.2, hmarks.2⟩

/-- An applied validation that does not fail has found every row as planned. -/
theorem wp_legacyBootBootTargetValidateApplied :
    Query.Wp A legacyBootBootTargetValidateApplied
      (fun status => status.isError = false →
        ∃ planned, s.context.plannedPriorities = some planned ∧ LiveMatches s planned) s := by
  unfold legacyBootBootTargetValidateApplied
  simp only [Query.wp_bind, Query.wp_read]
  split
  case isTrue => simp [EfiStatus.isError]
  simp only [Query.wp_bind]
  refine Query.wp_of_forall fun status => ?_
  split
  case isTrue herror => simp [herror]
  simp only [Query.wp_bind]
  refine Query.wp_of_forall fun status => ?_
  split
  case isTrue herror => simp [herror]
  simp only [Query.wp_bind]
  refine wp_legacyBootVerifyLiveAgainstPriorities.mono fun status hverified => ?_
  split
  case isTrue herror => simp [herror]
  case isFalse herror =>
    exact Query.wp_of_forall fun _ _ => (hverified (by simpa using herror)).2

/-! ### Writing one priority -/

namespace BootState

/-- The state with a write recorded in the history. -/
def recordWrite (s : BootState) (index : Nat) (requestedPriority : UInt16) : BootState :=
  { s with
    context :=
      { s.context with
        priorityWrites := s.context.priorityWrites ++
          [{ index, oldPriority := s.live[index]!.bootPriority, requestedPriority }]
        priorityTransactionDirty := true } }

/-- The state with a value in the priority field of a live row. -/
def storeRow (s : BootState) (index : Nat) (priority : UInt16) : BootState :=
  { s with live := s.live.modify index (·.withPriority priority) }

/-- The state with the expected priority of a row replaced. -/
def expectRow (s : BootState) (index : Nat) (priority : UInt16) : BootState :=
  { s with
    context :=
      { s.context with
        expectedPriorities := s.context.expectedPriorities.map (·.set index priority) } }

end BootState

/-- What `LegacyBootWritePriority` can do to the state, with the status it returns. -/
inductive WriteOutcome (s : BootState) (index : Nat) (priority : UInt16) :
    EfiStatus → BootState → Prop
  | refused {status : EfiStatus} (herror : status.isError = true) :
      WriteOutcome s index priority status s
  | full (hfull : maxPriorityWrites ≤ s.context.priorityWrites.length) :
      WriteOutcome s index priority .outOfResources { s with historyFull := true }
  | already (hpriority : priorities s.live index = priority) :
      WriteOutcome s index priority .success s
  | misread {stored : UInt16} :
      WriteOutcome s index priority .deviceError
        ((s.recordWrite index priority).storeRow index stored)
  | written {status : EfiStatus} :
      WriteOutcome s index priority status
        (((s.recordWrite index priority).storeRow index priority).expectRow index priority)

/-- **The outcomes of a write.** -/
theorem wp_legacyBootWritePriority {index : Nat} {priority : UInt16}
    (hindex : index < s.live.length) :
    (legacyBootWritePriority index priority).Wp A (WriteOutcome s index priority) s := by
  unfold legacyBootWritePriority
  simp only [Prog.wp_bind, Prog.wp_get]
  split
  case h_2 => exact .refused rfl
  case h_1 =>
    split
    case isTrue => exact .refused rfl
    split
    case isTrue => exact Prog.wp_lift.mpr (wp_logFailure (.refused rfl))
    split
    case isTrue hpriority => exact .already hpriority
    split
    case isTrue hfull => exact .full hfull
    simp only [Prog.wp_bind, Prog.wp_lift]
    refine Query.wp_of_forall fun status => ?_
    split
    case isTrue herror => exact .refused herror
    simp only [Prog.wp_bind, Prog.wp_lift]
    refine Query.wp_of_forall fun status => ?_
    split
    case isTrue herror => exact .refused herror
    simp only [Prog.wp_bind, Prog.wp_get]
    split
    case isTrue => exact Prog.wp_lift.mpr (wp_logFailure (.refused rfl))
    simp only [updateContext, storePriority, Prog.wp_bind, Prog.wp_modify, Prog.wp_call,
      Prog.wp_get]
    intro answer _
    split
    case isTrue => exact Prog.wp_lift.mpr (wp_logFailure .misread)
    case isFalse hread =>
      have hstored : answer.stored.getD priority = priority := by
        simpa [getElem!_modify_self hindex, rowAsExpected] using hread
      simp only [hstored, Prog.wp_bind, Prog.wp_modify, Prog.wp_lift, Prog.wp_get]
      refine Query.wp_of_forall fun status => ?_
      split
      case isTrue =>
        simp only [Prog.wp_bind, Prog.wp_lift]
        exact Query.wp_of_forall fun _ => .written
      simp only [Prog.wp_bind, Prog.wp_lift]
      refine Query.wp_of_forall fun status => ?_
      split
      case isTrue => exact .written
      exact Prog.wp_lift.mpr (Query.wp_of_forall fun _ => .written)

/-! ### Restoring one priority -/

@[simp] theorem isError_firstError {overall status : EfiStatus} :
    (firstError overall status).isError = (overall.isError || status.isError) := by
  cases hoverall : overall.isError <;> cases hstatus : status.isError <;>
    simp [firstError, hoverall, hstatus]

/-- What the restoration of one record can do to the state, with the overall status after it. -/
inductive RestoreOutcome (A : FirmwareAnswer → Prop) (s : BootState) (record : PriorityWrite)
    (overallStatus : EfiStatus) : EfiStatus → BootState → Prop
  | refused {status : EfiStatus} (herror : status.isError = true)
      (hidentity : s.live[record.index]!.sameIdentity
        (s.context.bbsJournal.getD [])[record.index]! = false) :
      RestoreOutcome A s record overallStatus status s
  | misread {answer : FirmwareAnswer} (hanswer : A answer)
      (hstored : answer.stored.getD record.oldPriority ≠ record.oldPriority) :
      RestoreOutcome A s record overallStatus .deviceError
        (s.storeRow record.index (answer.stored.getD record.oldPriority))
  | restored {status : EfiStatus} (herror : overallStatus.isError = true → status.isError = true) :
      RestoreOutcome A s record overallStatus status
        ((s.storeRow record.index record.oldPriority).expectRow record.index record.oldPriority)

/-- **The outcomes of a restoration.** -/
theorem wp_rollbackRecord {record : PriorityWrite} {overallStatus : EfiStatus}
    (hindex : record.index < s.live.length) :
    (rollbackRecord record overallStatus).Wp A (RestoreOutcome A s record overallStatus) s := by
  unfold rollbackRecord
  simp only [Prog.wp_bind, Prog.wp_get]
  split
  case isTrue hidentity =>
    exact Prog.wp_lift.mpr (wp_logFailure (.refused rfl (by simpa using hidentity)))
  simp only [Prog.wp_bind, Prog.wp_lift, Prog.wp_get]
  refine Query.wp_of_forall fun printed => Query.wp_of_forall fun flushed => ?_
  split
  case isTrue hidentity =>
    exact Prog.wp_lift.mpr (wp_logFailure (.refused rfl (by simpa using hidentity)))
  simp only [updateContext, storePriority, Prog.wp_bind, Prog.wp_modify, Prog.wp_call,
    Prog.wp_get]
  intro answer hanswer
  split
  case isTrue hread =>
    refine Prog.wp_lift.mpr (wp_logFailure (.misread hanswer fun hstored => ?_))
    simp [getElem!_modify_self hindex, rowAsExpected, hstored] at hread
  case isFalse hread =>
    have hstored : answer.stored.getD record.oldPriority = record.oldPriority := by
      simpa [getElem!_modify_self hindex, rowAsExpected] using hread
    simp only [hstored, Prog.wp_bind, Prog.wp_modify, Prog.wp_lift, Prog.wp_get, Prog.wp_pure]
    refine Query.wp_of_forall fun verified => Query.wp_of_forall fun printed' =>
      Query.wp_of_forall fun flushed' => .restored fun herror => ?_
    simp [herror]

/-- What every restoration keeps, the replay of a list of records keeps. -/
theorem wp_rollbackRecords {I : BootState → Prop} {records : List PriorityWrite}
    (hrecord : ∀ record ∈ records, ∀ overallStatus s, I s →
      (rollbackRecord record overallStatus).Wp A (fun _ s' => I s') s)
    {overallStatus : EfiStatus} (hI : I s) :
    (rollbackRecords records overallStatus).Wp A (fun _ s' => I s') s := by
  induction records generalizing overallStatus s with
  | nil => exact hI
  | cons record rest ih =>
      simp only [rollbackRecords, Prog.wp_bind]
      refine (hrecord record (List.mem_cons_self ..) _ s hI).mono fun _ s' hI' => ?_
      exact ih (fun other hother => hrecord other (List.mem_cons_of_mem _ hother)) hI'

/-- A replay of the history that does not fail ends with the journal in the live table. -/
theorem wp_replayHistory {Q : BootState → Prop} {status : EfiStatus}
    (hrecords : ∀ overallStatus, (rollbackRecords s.context.priorityWrites.reverse
      overallStatus).Wp A (fun _ s' => Q s') s) :
    (replayHistory status).Wp A (fun result s' => Q s' ∧
      (result.isError = false → s'.context.bbsJournal = some s'.live)) s := by
  unfold replayHistory
  simp only [Prog.wp_bind, Prog.wp_lift, Prog.wp_get]
  refine Query.wp_of_forall fun printed => Query.wp_of_forall fun flushed => ?_
  refine (hrecords _).mono fun overallStatus s' hQ => ?_
  refine Query.wp_of_forall fun verified => ?_
  split
  case isTrue hrestored =>
    exact ⟨hQ, fun _ => by simpa using (Bool.and_eq_true_iff.mp hrestored).1⟩
  case isFalse => exact Prog.wp_lift.mpr (wp_logFailure ⟨hQ, fun h => by simp [EfiStatus.isError] at h⟩)

/-- The state with the transaction's marks cleared. -/
def BootState.cleared (s : BootState) : BootState :=
  { s with
    context :=
      { s.context with
        priorityTransactionDirty := false
        prioritiesApplied := false
        priorityWrites := [] } }

/-- A replay is kept with its marks, or the journal is in place and the marks are cleared. -/
theorem wp_restoreJournal {Q : BootState → Prop} {status : EfiStatus}
    (hrecords : ∀ overallStatus, (rollbackRecords s.context.priorityWrites.reverse
      overallStatus).Wp A (fun _ s' => Q s') s) :
    (restoreJournal status).Wp A (fun result s' =>
      result.isError = true ∧ Q s' ∨
        ∃ restored, Q restored ∧ restored.context.bbsJournal = some restored.live ∧
          s' = restored.cleared) s := by
  unfold restoreJournal
  refine Prog.Wp.bind (wp_replayHistory hrecords) fun overallStatus s' hs' => ?_
  refine .ite (fun herror => .pure (.inl ⟨herror, hs'.1⟩)) fun herror => ?_
  simp only [updateContext, Prog.wp_bind, Prog.wp_modify, Prog.wp_lift]
  refine Query.wp_of_forall fun _ => Query.wp_of_forall fun _ => .inr ?_
  exact ⟨s', hs'.1, hs'.2 (by simpa using herror), rfl⟩

/-- **The outcomes of a rollback.** The table is left alone, or replayed with the marks kept, or
replayed with the journal in place and the marks cleared. -/
theorem wp_legacyBootRollbackInternal {Q : BootState → Prop} (hs : Q s)
    (hrecords : ∀ overallStatus, (rollbackRecords s.context.priorityWrites.reverse
      overallStatus).Wp A (fun _ s' => Q s') s) :
    legacyBootRollbackInternal.Wp A (fun status s' =>
      status.isError = true ∧ Q s' ∨
        ∃ restored, Q restored ∧ restored.context.bbsJournal = some restored.live ∧
          s' = restored.cleared) s := by
  unfold legacyBootRollbackInternal
  refine .bind_get (.ite (fun _ => .pure (.inl ⟨rfl, hs⟩)) fun _ => .bind_query fun status => ?_)
  refine .ite (fun herror => Prog.wp_lift.mpr (wp_logFailure (.inl ⟨herror, hs⟩))) fun _ => ?_
  exact wp_restoreJournal hrecords

end CsmVgaSelector
