import CsmVgaSelector.Lib.UndoLog
import CsmVgaSelector.Proof.Discovery

/-!
# Rollback is exact

The history of a transaction is an undo log of the live priorities. A write extends it, whether or not
the write can be read back; a replay puts the journal's priorities in place whatever the cells of the
log hold by then, so a rollback whose log failed can be repeated.

The expected priorities follow the live ones with one exception: after a write that could not be read
back, they still hold what its row had before. The replay starts with that row.
-/

namespace CsmVgaSelector

variable {A : FirmwareAnswer → Prop} {s s' : BootState} {journal : List BbsTable}

/-- The history as an undo log of the live priorities. -/
def undoLog (writes : List PriorityWrite) : List (Nat × UInt16) :=
  writes.map fun record => (record.index, record.oldPriority)

/-- The expected priorities are the live ones, except on the given rows. -/
def ExpectedExcept (s : BootState) (rows : Nat → Prop) : Prop :=
  ∃ expected, s.context.expectedPriorities = some expected ∧
    expected.length = s.live.length ∧ ∀ index, ¬ rows index → expected[index]! = priorities s.live index

/-- A state whose history undoes everything that separates the live table from the journal. -/
structure Restorable (s : BootState) (journal : List BbsTable) : Prop where
  journalComplete : s.context.journalComplete = true
  bbsJournal : s.context.bbsJournal = some journal
  bbsJournalCrc32 : s.context.bbsJournalCrc32 = legacyBootCrc32 (tableBytes journal)
  count : s.context.bbsCount = journal.length
  identities : identities s.live = identities journal
  verifiable : Verifiable s
  inRange : ∀ record ∈ s.context.priorityWrites, record.index < journal.length
  undoes : UndoLog.Undoes (undoLog s.context.priorityWrites) (priorities journal) (priorities s.live)
  expected : ExpectedExcept s fun index =>
    ∃ record, s.context.priorityWrites.getLast? = some record ∧ record.index = index

/-- A restorable state whose expected priorities are the live ones. -/
structure Settled (s : BootState) (journal : List BbsTable) : Prop extends Restorable s journal where
  settled : ExpectedExcept s fun _ => False

namespace Restorable

theorem length_live (h : Restorable s journal) : s.live.length = journal.length :=
  length_eq_of_identities h.identities

end Restorable

/-! ### Writes -/

/-- A write to a row of a settled state: settled again, or left with one row to read again. -/
theorem Settled.write {index : Nat} {priority : UInt16} {status : EfiStatus}
    (h : Settled s journal) (hindex : index < journal.length)
    (houtcome : WriteOutcome s index priority status s') :
    Restorable s' journal ∧ (status.isError = false → Settled s' journal) := by
  obtain ⟨expected, hexpected, hlength, hrows⟩ := h.settled
  have hlive : index < s.live.length := h.length_live ▸ hindex
  have hinRange : ∀ record ∈ (s.recordWrite index priority).context.priorityWrites,
      record.index < journal.length := fun record hrecord => by
    rcases List.mem_append.mp hrecord with hold | hnew
    · exact h.inRange record hold
    · obtain rfl := List.mem_singleton.mp hnew
      exact hindex
  have hundoes (stored : UInt16) :
      UndoLog.Undoes (undoLog (s.recordWrite index priority).context.priorityWrites)
        (priorities journal) (priorities (s.live.modify index (·.withPriority stored))) := by
    rw [priorities_modify hlive]
    simpa [undoLog, BootState.recordWrite, priorities] using h.undoes.write index stored
  cases houtcome with
  | refused => exact ⟨h.toRestorable, fun _ => h⟩
  | full =>
      exact ⟨{ h.toRestorable with verifiable := { h.verifiable with } }, fun hstatus => by simp [EfiStatus.isError] at hstatus⟩
  | already => exact ⟨h.toRestorable, fun _ => h⟩
  | misread =>
      refine ⟨?_, fun hstatus => by simp [EfiStatus.isError] at hstatus⟩
      exact { h.toRestorable with
        identities := identities_modify.trans h.identities
        verifiable := { h.verifiable with }
        inRange := hinRange
        undoes := hundoes _
        expected := by
          refine ⟨expected, hexpected, by simpa [BootState.storeRow, BootState.recordWrite], ?_⟩
          intro row hrow
          have hne : row ≠ index := fun heq => hrow ⟨_, List.getLast?_concat, heq.symm⟩
          show _ = priorities (s.live.modify index _) row
          rw [priorities_modify hlive, Function.update_of_ne hne]
          exact hrows row id }
  | written =>
      have hsettled : ExpectedExcept (((s.recordWrite index priority).storeRow index
          priority).expectRow index priority) fun _ => False := by
        refine ⟨expected.set index priority, by simp [BootState.expectRow, BootState.storeRow,
          BootState.recordWrite, hexpected], by simpa [BootState.expectRow, BootState.storeRow,
          BootState.recordWrite], fun row _ => ?_⟩
        show _ = priorities (s.live.modify index _) row
        rw [priorities_modify hlive]
        by_cases hne : row = index
        · subst hne
          rw [Function.update_self, getElem!_set_self (hlength ▸ hlive)]
        · rw [Function.update_of_ne hne, getElem!_set_of_ne (Ne.symm hne)]
          exact hrows row id
      have hrestorable : Restorable (((s.recordWrite index priority).storeRow index
          priority).expectRow index priority) journal :=
        { h.toRestorable with
          identities := identities_modify.trans h.identities
          verifiable := { h.verifiable with }
          inRange := hinRange
          undoes := hundoes _
          expected := hsettled.imp fun _ hrows => ⟨hrows.1, hrows.2.1, fun row _ => hrows.2.2 row id⟩ }
      exact ⟨hrestorable, fun _ => { hrestorable with settled := hsettled }⟩

/-! ### Replays -/

/-- One record put back. -/
def restoreRow (record : PriorityWrite) (s : BootState) : BootState :=
  (s.storeRow record.index record.oldPriority).expectRow record.index record.oldPriority

/-- The records put back, the last one first. -/
def restoreRows (writes : List PriorityWrite) (s : BootState) : BootState :=
  writes.foldr restoreRow s

/-- With every store taking effect, a replay puts back one record after another. -/
theorem wp_rollbackRecords_foldl (hstores : ∀ answer, A answer → answer.stored = none)
    {records : List PriorityWrite} {overallStatus : EfiStatus}
    (hjournal : s.context.bbsJournal = some journal)
    (hidentities : identities s.live = identities journal)
    (hinRange : ∀ record ∈ records, record.index < journal.length) :
    (rollbackRecords records overallStatus).Wp A
      (fun _ s' => s' = records.foldl (fun s record => restoreRow record s) s) s := by
  induction records generalizing s overallStatus with
  | nil => rfl
  | cons record records ih =>
      have hlength := length_eq_of_identities hidentities
      have hrecord : record.index < journal.length := hinRange record (List.mem_cons_self ..)
      refine Prog.Wp.bind (wp_rollbackRecord (hlength ▸ hrecord)) fun status s₁ houtcome => ?_
      cases houtcome with
      | refused _ hidentity =>
          have hrow := (identities_eq_iff hlength).mp hidentities record.index hrecord
          rw [hjournal, Option.getD_some, hrow] at hidentity
          exact absurd hidentity (by decide)
      | misread hanswer hstored => simp [hstores _ hanswer] at hstored
      | restored =>
          exact ih hjournal (identities_modify.trans hidentities) fun other hother =>
            hinRange other (List.mem_cons_of_mem _ hother)

theorem identities_restoreRows (writes : List PriorityWrite) :
    identities (restoreRows writes s).live = identities s.live := by
  induction writes with
  | nil => rfl
  | cons record writes ih => exact identities_modify.trans ih

theorem priorities_restoreRows {writes : List PriorityWrite}
    (hinRange : ∀ record ∈ writes, record.index < s.live.length) :
    priorities (restoreRows writes s).live = UndoLog.replay (undoLog writes) (priorities s.live) := by
  induction writes with
  | nil => rfl
  | cons record writes ih =>
      have hlength := length_eq_of_identities (identities_restoreRows (s := s) writes)
      show priorities ((restoreRows writes s).live.modify record.index _) = _
      rw [priorities_modify (hlength ▸ hinRange record (List.mem_cons_self ..)),
        ih fun other hother => hinRange other (List.mem_cons_of_mem _ hother)]
      rfl

/-- A restoration settles the row it restores. -/
theorem ExpectedExcept.restoreRow {rows : Nat → Prop} (h : ExpectedExcept s rows)
    {record : PriorityWrite} (hindex : record.index < s.live.length) :
    ExpectedExcept (restoreRow record s) fun index => rows index ∧ record.index ≠ index := by
  obtain ⟨expected, hexpected, hlength, hrows⟩ := h
  refine ⟨expected.set record.index record.oldPriority, ?_, ?_, fun index hindex' => ?_⟩
  · simp [CsmVgaSelector.restoreRow, BootState.expectRow, BootState.storeRow, hexpected]
  · simpa [CsmVgaSelector.restoreRow, BootState.expectRow, BootState.storeRow]
  · show _ = priorities (s.live.modify record.index _) index
    rw [priorities_modify hindex]
    by_cases hne : index = record.index
    · subst hne
      rw [Function.update_self, getElem!_set_self (hlength ▸ hindex)]
    · rw [Function.update_of_ne hne, getElem!_set_of_ne (Ne.symm hne)]
      exact hrows index fun hrow => hindex' ⟨hrow, Ne.symm hne⟩

theorem ExpectedExcept.restoreRows {rows : Nat → Prop} (h : ExpectedExcept s rows)
    {writes : List PriorityWrite} (hinRange : ∀ record ∈ writes, record.index < s.live.length) :
    ExpectedExcept (restoreRows writes s) fun index =>
      rows index ∧ ∀ record ∈ writes, record.index ≠ index := by
  induction writes with
  | nil => exact h.imp fun _ hrows => ⟨hrows.1, hrows.2.1, fun index hindex =>
      hrows.2.2 index fun hrow => hindex ⟨hrow, fun _ hmem => nomatch hmem⟩⟩
  | cons record writes ih =>
      have hlength := length_eq_of_identities (identities_restoreRows (s := s) writes)
      have hrest := ih fun other hother => hinRange other (List.mem_cons_of_mem _ hother)
      have hrecord := hrest.restoreRow (hlength ▸ hinRange record (List.mem_cons_self ..))
      refine hrecord.imp fun _ hrows => ⟨hrows.1, hrows.2.1, fun index hindex =>
        hrows.2.2 index fun hrow => hindex ⟨hrow.1.1, fun other hother => ?_⟩⟩
      rcases List.mem_cons.mp hother with rfl | hother
      · exact hrow.2
      · exact hrow.1.2 other hother

/-- Putting rows back changes the live table and the expected priorities only. -/
theorem restoreRows_eq (writes : List PriorityWrite) :
    ∃ live expected, restoreRows writes s =
      { s with live := live, context := { s.context with expectedPriorities := expected } } := by
  induction writes with
  | nil => exact ⟨s.live, s.context.expectedPriorities, rfl⟩
  | cons record writes ih =>
      obtain ⟨live, expected, hrest⟩ := ih
      have hcons : restoreRows (record :: writes) s = restoreRow record (restoreRows writes s) := rfl
      rw [hcons, hrest]
      exact ⟨_, _, rfl⟩

/-- **A whole replay restores the journal**, and settles what is expected. -/
theorem Restorable.restored (h : Restorable s journal) :
    (restoreRows s.context.priorityWrites s).live = journal ∧
      Settled (restoreRows s.context.priorityWrites s) journal := by
  have hinRange : ∀ record ∈ s.context.priorityWrites, record.index < s.live.length :=
    fun record hrecord => h.length_live ▸ h.inRange record hrecord
  have hidentities := (identities_restoreRows (s := s) s.context.priorityWrites).trans h.identities
  have hpriorities : priorities (restoreRows s.context.priorityWrites s).live =
      priorities journal := (priorities_restoreRows hinRange).trans h.undoes
  have hlive := eq_of_identities_of_priorities hidentities hpriorities
  have hexpected := h.expected.restoreRows hinRange
  have hsettled : ExpectedExcept (restoreRows s.context.priorityWrites s) fun _ => False := by
    refine hexpected.imp fun _ hrows => ⟨hrows.1, hrows.2.1, fun index _ => hrows.2.2 index ?_⟩
    rintro ⟨⟨record, hlast, rfl⟩, hother⟩
    exact hother record (List.mem_of_getLast? hlast) rfl
  refine ⟨hlive, ?_⟩
  obtain ⟨live, expected, heq⟩ := restoreRows_eq (s := s) s.context.priorityWrites
  rw [heq] at hidentities hpriorities hsettled ⊢
  exact { h with
    identities := hidentities
    verifiable := { h.verifiable with }
    undoes := by
      show UndoLog.Undoes _ _ (priorities live)
      rw [show priorities live = priorities journal from hpriorities]
      exact h.undoes.of_original
    expected := hsettled.imp fun _ hrows => ⟨hrows.1, hrows.2.1, fun row _ => hrows.2.2 row id⟩
    settled := hsettled }

/-! ### Rollbacks -/

/-- A rollback whose stores take effect ends with the journal in the live table, whatever else it is
answered. -/
theorem wp_restoreJournal_exact (hstores : ∀ answer, A answer → answer.stored = none)
    (h : Restorable s journal) (status : EfiStatus) :
    (restoreJournal status).Wp A (fun _ s' => s'.live = journal ∧ Settled s' journal) s := by
  have hrecords (overallStatus : EfiStatus) :
      (rollbackRecords s.context.priorityWrites.reverse overallStatus).Wp A
        (fun _ s' => s'.live = journal ∧ Settled s' journal) s := by
    refine (wp_rollbackRecords_foldl hstores h.bbsJournal h.identities fun record hrecord =>
      h.inRange record (List.mem_reverse.mp hrecord)).mono ?_
    rintro - s' rfl
    rw [List.foldl_reverse]
    exact h.restored
  refine (wp_restoreJournal hrecords).mono ?_
  rintro result s' (⟨-, h'⟩ | ⟨restored, ⟨hlive, hsettled⟩, -, rfl⟩)
  · exact h'
  · refine ⟨hlive, ?_⟩
    have hexact : ExpectedExcept restored.cleared fun _ => False := hsettled.settled
    exact { hsettled with
      verifiable := { hsettled.verifiable with }
      inRange := fun record hrecord => by simp [BootState.cleared] at hrecord
      undoes := congrArg priorities hlive
      expected := hexact.imp fun _ hrows => ⟨hrows.1, hrows.2.1, fun row _ => hrows.2.2 row id⟩
      settled := hexact }

/-- A rollback of a writable range is what restores the journal, on the answers that are left. -/
theorem run_legacyBootRollbackInternal {answers : Nat → FirmwareAnswer}
    (hcomplete : s.context.journalComplete = true)
    (hrange : ((legacyBootValidateFirmwareBbsRange true s).run answers).isError = false) :
    legacyBootRollbackInternal.run answers s =
      (restoreJournal ((legacyBootValidateFirmwareBbsRange true s).run answers)).run
        ((legacyBootValidateFirmwareBbsRange true s).runRest answers).2 s := by
  unfold legacyBootRollbackInternal
  rw [Prog.run_bind_get]
  simp only [hcomplete, Bool.not_true, Bool.false_eq_true, if_false]
  rw [Prog.run_bind_query]
  simp only [hrange, Bool.false_eq_true, if_false]

/-! ### Rollbacks that meet no error -/

/-- An answer that is no error: the call succeeds, what is asked for is granted, a store takes effect,
and the strings of the table's rows read as the journal has them. -/
structure MeetsNoError (s : BootState) (answer : FirmwareAnswer) : Prop where
  status : answer.status.isError = false
  granted : answer.granted = true
  stored : answer.stored = none
  strings : ∀ table, identities table = identities s.live →
    some (table.map (currentStrings s.rom answer.memory)) = s.context.bbsJournalStrings

theorem MeetsNoError.of_eq {answer : FirmwareAnswer} (h : MeetsNoError s answer)
    (hidentities : identities s'.live = identities s.live) (hrom : s'.rom = s.rom)
    (hstrings : s'.context.bbsJournalStrings = s.context.bbsJournalStrings) :
    MeetsNoError s' answer :=
  { h with
    strings := fun table htable => by
      rw [hrom, hstrings]
      exact h.strings table (htable.trans hidentities) }

section NoError

variable (hA : ∀ answer, A answer → MeetsNoError s answer)

include hA

theorem wp_flushIf_noError {flushResult : Bool} :
    Query.Wp A (flushIf flushResult) (fun status => status.isError = false) s := by
  unfold flushIf
  split
  · exact fun answer hanswer => (hA answer hanswer).status
  · rfl

theorem wp_legacyBootValidateFirmwareBbsRange_noError {writable : Bool} (h : Verifiable s) :
    Query.Wp A (legacyBootValidateFirmwareBbsRange writable)
      (fun status => status.isError = false) s := by
  unfold legacyBootValidateFirmwareBbsRange
  simp only [Query.wp_bind, Query.wp_read, h.firmwareBbsTable, h.bbsTableBytes, or_self, if_false,
    wp_memoryMapCapture]
  intro captured hcaptured
  have hvalid (answer : FirmwareAnswer) (hanswer : A answer) :
      (if answer.granted then EfiStatus.success else .securityViolation).isError = false := by
    simp [(hA _ hanswer).granted]
  cases writable <;> simpa [(hA _ hcaptured).status] using hvalid

theorem wp_legacyBootVerifyLiveBbsStrings_noError {flushResult : Bool} (h : Verifiable s) :
    Query.Wp A (legacyBootVerifyLiveBbsStrings flushResult)
      (fun status => status.isError = false) s := by
  obtain ⟨strings, hstrings, hcrc⟩ := h.strings
  unfold legacyBootVerifyLiveBbsStrings
  simp only [Query.wp_bind, Query.wp_read, hstrings, hcrc, ne_eq, not_true_eq_false, if_false,
    wp_memoryMapCapture]
  intro captured hcaptured
  have hcurrent : s.live.map (currentStrings s.rom captured.memory) = strings :=
    Option.some.inj (((hA _ hcaptured).strings s.live rfl).trans hstrings)
  simp only [(hA _ hcaptured).status, Bool.false_eq_true, if_false, hcurrent, Query.wp_bind,
    wp_memoryMapRangeIsReadable]
  intro readable hreadable
  simp only [(hA _ hreadable).granted, Bool.not_true, Bool.false_eq_true, if_false,
    not_true_eq_false, Query.wp_bind, wp_logPrint]
  intro printed hprinted
  simp only [(hA _ hprinted).status, Bool.false_eq_true, if_false, hcrc, not_true_eq_false]
  exact wp_flushIf_noError hA

theorem wp_legacyBootVerifyLiveAgainstPriorities_noError {expected : List UInt16}
    {writable flushResult : Bool} (h : Verifiable s) (hmatches : LiveMatches s expected) :
    Query.Wp A (legacyBootVerifyLiveAgainstPriorities (some expected) writable flushResult)
      (fun status => status.isError = false) s := by
  obtain ⟨journal, hjournal, hrows⟩ := hmatches
  unfold legacyBootVerifyLiveAgainstPriorities
  simp only [Query.wp_bind, Query.wp_read, hjournal, h.verificationScratch]
  refine (wp_legacyBootValidateFirmwareBbsRange_noError hA h).mono fun status hstatus => ?_
  have hall : (List.range s.context.bbsCount).all (fun index =>
      rowAsExpected s.live[index]! journal[index]! expected[index]!) = true := by
    simpa using hrows
  simp only [hstatus, hall, Bool.false_eq_true, if_false, Bool.not_true, Query.wp_bind]
  refine (wp_legacyBootVerifyLiveBbsStrings_noError hA h).mono fun status hstatus => ?_
  simp only [hstatus, Bool.false_eq_true, if_false, ne_eq, not_true_eq_false, Query.wp_bind,
    Query.wp_read, wp_logPrint]
  intro printed hprinted
  simp only [(hA _ hprinted).status, Bool.false_eq_true, if_false]
  exact wp_flushIf_noError hA

end NoError

/-- What is expected is what the live table has, row by row. -/
theorem liveMatches_of_expected (hjournal : s.context.bbsJournal = some journal)
    (hcount : s.context.bbsCount = journal.length)
    (hidentities : identities s.live = identities journal)
    (h : ExpectedExcept s fun _ => False) :
    ∃ expected, s.context.expectedPriorities = some expected ∧ LiveMatches s expected := by
  obtain ⟨expected, hexpected, -, hrows⟩ := h
  refine ⟨expected, hexpected, journal, hjournal, fun index hindex => ?_⟩
  have hrow := (identities_eq_iff (length_eq_of_identities hidentities)).mp hidentities index
    (hcount ▸ hindex)
  simp only [rowAsExpected, hrow, Bool.true_and, beq_iff_eq]
  exact (hrows index id).symm

/-- The state has what a rollback without errors needs. -/
structure Ready (s : BootState) (journal : List BbsTable) : Prop extends Verifiable s where
  bbsJournal : s.context.bbsJournal = some journal
  count : s.context.bbsCount = journal.length
  identities : identities s.live = identities journal

theorem Ready.restoreRow {record : PriorityWrite} (h : Ready s journal) :
    Ready (restoreRow record s) journal :=
  { h with identities := identities_modify.trans h.identities }

theorem wp_rollbackRecord_noError (hA : ∀ answer, A answer → MeetsNoError s answer)
    {record : PriorityWrite} {overallStatus : EfiStatus} (hoverall : overallStatus.isError = false)
    (h : Ready s journal) (hindex : record.index < journal.length)
    (hexpected : ExpectedExcept s (record.index = ·)) :
    (rollbackRecord record overallStatus).Wp A
      (fun status s' => status.isError = false ∧ s' = restoreRow record s) s := by
  have hlength := length_eq_of_identities h.identities
  have hlive : record.index < s.live.length := hlength ▸ hindex
  have hidentity := (identities_eq_iff hlength).mp h.identities record.index hindex
  have hA' (answer : FirmwareAnswer) (hanswer : A answer) :
      MeetsNoError (CsmVgaSelector.restoreRow record s) answer :=
    (hA answer hanswer).of_eq identities_modify rfl rfl
  have hsettled : ExpectedExcept (CsmVgaSelector.restoreRow record s) fun _ => False :=
    (hexpected.restoreRow hlive).imp fun _ hrows => ⟨hrows.1, hrows.2.1, fun row _ =>
      hrows.2.2 row fun hrow => hrow.2 hrow.1⟩
  obtain ⟨expected, hsome, hmatches⟩ := liveMatches_of_expected h.restoreRow.bbsJournal
    h.restoreRow.count h.restoreRow.identities hsettled
  have hread : rowAsExpected (s.live.modify record.index
      (·.withPriority record.oldPriority))[record.index]! s.live[record.index]!
      record.oldPriority = true := by
    simp [rowAsExpected, getElem!_modify_self hlive]
  unfold rollbackRecord
  simp only [Prog.wp_bind, Prog.wp_get, Prog.wp_lift, h.bbsJournal, Option.getD_some, hidentity,
    Bool.not_true, Bool.false_eq_true, if_false, wp_logPrint, wp_logFlush]
  intro printed hprinted flushed hflushed
  simp only [updateContext, storePriority, Prog.wp_bind, Prog.wp_modify, Prog.wp_call]
  intro answer hanswer
  simp only [(hA _ hanswer).stored, Option.getD_none, hread, Bool.not_true, Bool.false_eq_true,
    if_false, Prog.wp_bind, Prog.wp_modify, Prog.wp_get, Prog.wp_lift, Prog.wp_pure, wp_logPrint,
    wp_logFlush]
  have hverified : Query.Wp A (legacyBootVerifyLiveAgainstPriorities (some expected) true false)
      (fun status => status.isError = false) (CsmVgaSelector.restoreRow record s) :=
    wp_legacyBootVerifyLiveAgainstPriorities_noError hA' h.restoreRow.toVerifiable hmatches
  rw [← hsome] at hverified
  refine hverified.mono fun status hstatus printed' hprinted' flushed' hflushed' => ⟨?_, rfl⟩
  simp [hoverall, hstatus, (hA _ hprinted).status, (hA _ hflushed).status,
    (hA _ hprinted').status, (hA _ hflushed').status]

theorem wp_rollbackRecords_noError {records : List PriorityWrite} {overallStatus : EfiStatus}
    (hA : ∀ answer, A answer → MeetsNoError s answer) (hoverall : overallStatus.isError = false)
    (h : Ready s journal) (hinRange : ∀ record ∈ records, record.index < journal.length)
    (hexpected : ExpectedExcept s fun index => ∃ record, records.head? = some record ∧
      record.index = index) :
    (rollbackRecords records overallStatus).Wp A (fun status s' => status.isError = false ∧
      s' = records.foldl (fun s record => restoreRow record s) s) s := by
  induction records generalizing s overallStatus with
  | nil => exact ⟨hoverall, rfl⟩
  | cons record records ih =>
      have hindex := hinRange record (List.mem_cons_self ..)
      have hlive : record.index < s.live.length := length_eq_of_identities h.identities ▸ hindex
      have hrow : ExpectedExcept s (record.index = ·) :=
        hexpected.imp fun _ hrows => ⟨hrows.1, hrows.2.1, fun row hne =>
          hrows.2.2 row fun ⟨other, hhead, heq⟩ => hne (by simp_all)⟩
      refine Prog.Wp.bind (wp_rollbackRecord_noError hA hoverall h hindex hrow) ?_
      rintro status s₁ ⟨hstatus, rfl⟩
      refine ih (fun answer hanswer => (hA answer hanswer).of_eq identities_modify rfl rfl) hstatus
        h.restoreRow (fun other hother => hinRange other (List.mem_cons_of_mem _ hother)) ?_
      exact (hrow.restoreRow hlive).imp fun _ hrows => ⟨hrows.1, hrows.2.1, fun row _ =>
        hrows.2.2 row fun hrow => hrow.2 hrow.1⟩

theorem Restorable.ready (h : Restorable s journal) : Ready s journal :=
  { h.verifiable with bbsJournal := h.bbsJournal, count := h.count, identities := h.identities }

theorem wp_replayHistory_noError {status : EfiStatus}
    (hA : ∀ answer, A answer → MeetsNoError s answer) (hstatus : status.isError = false)
    (h : Restorable s journal) :
    (replayHistory status).Wp A (fun result s' => result.isError = false ∧
      s' = restoreRows s.context.priorityWrites s) s := by
  obtain ⟨hlive, hsettled⟩ := h.restored
  obtain ⟨hrom, hstrings⟩ : (restoreRows s.context.priorityWrites s).rom = s.rom ∧
      (restoreRows s.context.priorityWrites s).context.bbsJournalStrings =
        s.context.bbsJournalStrings := by
    obtain ⟨live, expected, heq⟩ := restoreRows_eq (s := s) s.context.priorityWrites
    rw [heq]
    exact ⟨rfl, rfl⟩
  have hA₁ (answer : FirmwareAnswer) (hanswer : A answer) :
      MeetsNoError (restoreRows s.context.priorityWrites s) answer :=
    (hA answer hanswer).of_eq (identities_restoreRows _) hrom hstrings
  obtain ⟨values, hsome, hmatches⟩ := liveMatches_of_expected hsettled.bbsJournal hsettled.count
    hsettled.identities hsettled.settled
  have hrecords (overallStatus : EfiStatus) (hoverall : overallStatus.isError = false) :
      (rollbackRecords s.context.priorityWrites.reverse overallStatus).Wp A (fun status s' =>
        status.isError = false ∧ s' = restoreRows s.context.priorityWrites s) s := by
    have hreplay := wp_rollbackRecords_noError hA hoverall h.ready
      (fun record hrecord => h.inRange record (List.mem_reverse.mp hrecord))
      (by simpa only [List.head?_reverse] using h.expected)
    rwa [List.foldl_reverse] at hreplay
  unfold replayHistory
  simp only [Prog.wp_bind, Prog.wp_lift, Prog.wp_get, wp_logPrint, wp_logFlush]
  intro printed hprinted flushed hflushed
  refine (hrecords _ (by simp [hstatus, (hA _ hprinted).status, (hA _ hflushed).status])).mono ?_
  rintro overallStatus s₁ ⟨hoverall, rfl⟩
  rw [hsome]
  refine (wp_legacyBootVerifyLiveAgainstPriorities_noError hA₁ hsettled.verifiable hmatches).mono
    fun verified hverified => ?_
  have hrestored : ((restoreRows s.context.priorityWrites s).context.bbsJournal ==
      some (restoreRows s.context.priorityWrites s).live &&
      legacyBootCrc32 (tableBytes (restoreRows s.context.priorityWrites s).live) ==
        (restoreRows s.context.priorityWrites s).context.bbsJournalCrc32) = true := by
    simp [hsettled.bbsJournal, hsettled.bbsJournalCrc32, hlive]
  rw [if_pos hrestored]
  exact ⟨by simp [hoverall, hverified], rfl⟩

/-- A rollback that meets no error ends without one, with the journal in place and the marks cleared. -/
theorem wp_restoreJournal_noError {status : EfiStatus}
    (hA : ∀ answer, A answer → MeetsNoError s answer) (hstatus : status.isError = false)
    (h : Restorable s journal) :
    (restoreJournal status).Wp A (fun result s' => (∃ answer, A answer ∧ result = answer.status) ∧
      s' = (restoreRows s.context.priorityWrites s).cleared) s := by
  unfold restoreJournal
  refine Prog.Wp.bind (wp_replayHistory_noError hA hstatus h) ?_
  rintro overallStatus s₁ ⟨hoverall, rfl⟩
  simp only [hoverall, Bool.false_eq_true, if_false, updateContext, Prog.wp_bind, Prog.wp_modify,
    Prog.wp_lift, wp_logPrint, wp_logFlush]
  exact fun _ _ answer hanswer => ⟨⟨answer, hanswer, rfl⟩, rfl⟩

theorem wp_legacyBootRollbackInternal_noError (hA : ∀ answer, A answer → MeetsNoError s answer)
    (h : Restorable s journal) :
    legacyBootRollbackInternal.Wp A (fun result s' =>
      (∃ answer, A answer ∧ result = answer.status) ∧
        s' = (restoreRows s.context.priorityWrites s).cleared) s := by
  unfold legacyBootRollbackInternal
  simp only [Prog.wp_bind, Prog.wp_get, Prog.wp_lift, h.journalComplete, Bool.not_true,
    Bool.false_eq_true, if_false]
  refine (wp_legacyBootValidateFirmwareBbsRange_noError hA h.verifiable).mono fun status hstatus => ?_
  simp only [hstatus, Bool.false_eq_true, if_false]
  exact wp_restoreJournal_noError hA hstatus h

end CsmVgaSelector
