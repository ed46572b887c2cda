import CsmVgaSelector.Bbs.System
import CsmVgaSelector.Proof.Plan

/-!
# Transaction safety

Once the journal is complete, the live table has the journal's identities, rows that the transaction
may not touch keep the journal's priorities, and the marks are set while anything may differ. A write,
a restoration and a clearing each keep this, so every call does, and so every run.
-/

namespace CsmVgaSelector

variable {A : FirmwareAnswer → Prop} {s s' : BootState} {journal : List BbsTable}

/-- The transaction may touch the row. -/
def Eligible (s : BootState) (index : Nat) : Prop :=
  legacyBootBbsIndexIsTransactionEligible s.rom s.context index = true

/-- The policy reads the same in both states. -/
structure SamePolicy (s s' : BootState) : Prop where
  rom : s'.rom = s.rom
  inputs : s'.context.policyInputs = s.context.policyInputs
  planned : s'.context.plannedPriorities = s.context.plannedPriorities

theorem SamePolicy.refl (s : BootState) : SamePolicy s s := ⟨rfl, rfl, rfl⟩

theorem SamePolicy.trans {s₁ s₂ s₃ : BootState} (h : SamePolicy s₁ s₂) (h' : SamePolicy s₂ s₃) :
    SamePolicy s₁ s₃ :=
  ⟨h'.rom.trans h.rom, h'.inputs.trans h.inputs, h'.planned.trans h.planned⟩

theorem SamePolicy.eligible_iff (h : SamePolicy s s') {index : Nat} :
    Eligible s' index ↔ Eligible s index := by
  rw [Eligible, Eligible, eligible_congr h.inputs, h.rom]

/-- The journal is complete, and the live table differs from it only where and while it may. -/
structure Journaled (s : BootState) (journal : List BbsTable) : Prop where
  signature : s.context.signature = bootTargetSignature
  discoveryComplete : s.context.discoveryComplete = true
  journalAttempted : s.context.journalAttempted = true
  journalComplete : s.context.journalComplete = true
  bbsJournal : s.context.bbsJournal = some journal
  count : s.context.bbsCount = journal.length
  bound : journal.length ≤ maxBbsEntries
  planned : ∃ planned, s.context.plannedPriorities = some planned ∧
    planned.length = journal.length
  identities : identities s.live = identities journal
  preserved : ∀ index, ¬ Eligible s index → priorities s.live index = priorities journal index
  recorded : ∀ record ∈ s.context.priorityWrites, Eligible s record.index
  clean : s.context.priorityTransactionDirty = false →
    s.context.priorityWrites = [] ∧ s.live = journal
  notFull : s.historyFull = false

namespace Journaled

theorem length_live (h : Journaled s journal) : s.live.length = journal.length :=
  length_eq_of_identities h.identities

theorem lt_length_of_eligible (h : Journaled s journal) {index : Nat} (hindex : Eligible s index) :
    index < s.live.length := by
  rw [h.length_live, ← h.count]
  exact lt_bbsCount_of_eligible hindex

/-- A store to a row the transaction may touch, under a set mark. -/
theorem storeRow (h : Journaled s journal) {index : Nat} {priority : UInt16}
    (hindex : Eligible s index) (hdirty : s.context.priorityTransactionDirty = true) :
    Journaled (s.storeRow index priority) journal :=
  { h with
    identities := identities_modify.trans h.identities
    preserved := fun row hrow => by
      have hne : row ≠ index := fun heq => hrow (heq ▸ hindex)
      show priorities (s.live.modify index _) row = _
      rw [priorities_modify (h.lt_length_of_eligible hindex), Function.update_of_ne hne]
      exact h.preserved row hrow
    clean := fun hclean => by
      rw [show s.context.priorityTransactionDirty = false from hclean] at hdirty
      simp at hdirty }

theorem expectRow (h : Journaled s journal) (index : Nat) (priority : UInt16) :
    Journaled (s.expectRow index priority) journal :=
  { h with }

theorem recordWrite (h : Journaled s journal) {index : Nat} (priority : UInt16)
    (hindex : Eligible s index) : Journaled (s.recordWrite index priority) journal :=
  { h with
    recorded := fun record hrecord => by
      rcases List.mem_append.mp hrecord with hold | hnew
      · exact h.recorded record hold
      · obtain rfl := List.mem_singleton.mp hnew
        exact hindex
    clean := fun hclean => by simp [BootState.recordWrite] at hclean }

theorem cleared (h : Journaled s journal) (hlive : s.context.bbsJournal = some s.live) :
    Journaled s.cleared journal :=
  { h with
    recorded := fun record hrecord => by simp [BootState.cleared] at hrecord
    clean := fun _ => ⟨rfl, Option.some.inj (hlive.symm.trans h.bbsJournal)⟩ }

/-- A write adds at most one record, and keeps the journal's claims while there is room for it. -/
theorem write (h : Journaled s journal) {index : Nat} {priority : UInt16} {status : EfiStatus}
    (hindex : Eligible s index) (hroom : s.context.priorityWrites.length < maxPriorityWrites)
    (houtcome : WriteOutcome s index priority status s') :
    Journaled s' journal ∧ SamePolicy s s' ∧
      s'.context.priorityWrites.length ≤ s.context.priorityWrites.length + 1 := by
  cases houtcome with
  | refused => exact ⟨h, .refl s, by omega⟩
  | full hfull => omega
  | already => exact ⟨h, .refl s, by omega⟩
  | misread =>
      refine ⟨(h.recordWrite priority hindex).storeRow hindex rfl, ⟨rfl, rfl, rfl⟩, ?_⟩
      simp [BootState.storeRow, BootState.recordWrite]
  | written =>
      refine ⟨((h.recordWrite priority hindex).storeRow hindex rfl).expectRow _ _,
        ⟨rfl, rfl, rfl⟩, ?_⟩
      simp [BootState.expectRow, BootState.storeRow, BootState.recordWrite]

end Journaled

/-! ### The rollback -/

theorem wp_rollbackRecords_journaled {records : List PriorityWrite} {overallStatus : EfiStatus}
    (h : Journaled s journal) (hrecords : ∀ record ∈ records, Eligible s record.index)
    (hdirty : s.context.priorityTransactionDirty = true) :
    (rollbackRecords records overallStatus).Wp A (fun _ s' => Journaled s' journal) s := by
  let I (s' : BootState) : Prop :=
    Journaled s' journal ∧ SamePolicy s s' ∧ s'.context.priorityTransactionDirty = true
  refine (wp_rollbackRecords (I := I) ?_ ⟨h, .refl s, hdirty⟩).mono fun _ _ hI => hI.1
  rintro record hrecord _ s₁ ⟨h₁, hpolicy, hdirty₁⟩
  have hindex : Eligible s₁ record.index := hpolicy.eligible_iff.mpr (hrecords record hrecord)
  refine (wp_rollbackRecord (h₁.lt_length_of_eligible hindex)).mono fun _ s₂ h₂ => ?_
  cases h₂ with
  | refused => exact ⟨h₁, hpolicy, hdirty₁⟩
  | misread => exact ⟨h₁.storeRow hindex hdirty₁, hpolicy.trans ⟨rfl, rfl, rfl⟩, hdirty₁⟩
  | restored =>
      exact ⟨(h₁.storeRow hindex hdirty₁).expectRow _ _, hpolicy.trans ⟨rfl, rfl, rfl⟩, hdirty₁⟩

theorem wp_legacyBootRollbackInternal_journaled (h : Journaled s journal) :
    legacyBootRollbackInternal.Wp A (fun _ s' => Journaled s' journal) s := by
  have hrecords (overallStatus : EfiStatus) :
      (rollbackRecords s.context.priorityWrites.reverse overallStatus).Wp A
        (fun _ s' => Journaled s' journal) s := by
    cases hdirty : s.context.priorityTransactionDirty with
    | false =>
        rw [(h.clean hdirty).1]
        exact h
    | true =>
        refine wp_rollbackRecords_journaled h (fun record hrecord => ?_) hdirty
        exact h.recorded record (List.mem_reverse.mp hrecord)
  refine (wp_legacyBootRollbackInternal h hrecords).mono fun _ s' h' => ?_
  rcases h' with ⟨-, h'⟩ | ⟨restored, hrestored, hlive, rfl⟩
  · exact h'
  · exact hrestored.cleared hlive

/-! ### The apply -/

/-- A list of steps that each add at most one record, with room for all of them. -/
theorem wp_untilError_journaled {steps : List (Boot EfiStatus)}
    (hsteps : ∀ step ∈ steps, ∀ s₁, Journaled s₁ journal → SamePolicy s s₁ →
      s₁.context.priorityWrites.length < maxPriorityWrites →
      step.Wp A (fun _ s₂ => Journaled s₂ journal ∧ SamePolicy s₁ s₂ ∧
        s₂.context.priorityWrites.length ≤ s₁.context.priorityWrites.length + 1) s₁)
    {s₁ : BootState} (h : Journaled s₁ journal) (hpolicy : SamePolicy s s₁)
    (hroom : s₁.context.priorityWrites.length + steps.length ≤ maxPriorityWrites) :
    (untilError steps).Wp A (fun _ s₂ => Journaled s₂ journal ∧ SamePolicy s s₂ ∧
      s₂.context.priorityWrites.length ≤ s₁.context.priorityWrites.length + steps.length) s₁ := by
  induction steps generalizing s₁ with
  | nil => exact ⟨h, hpolicy, Nat.le_refl _⟩
  | cons step rest ih =>
      rw [List.length_cons] at hroom ⊢
      refine Prog.Wp.bind (hsteps step (List.mem_cons_self ..) s₁ h hpolicy (by omega)) ?_
      rintro status s₂ ⟨h₂, hpolicy₂, hcount₂⟩
      split
      case isTrue => exact ⟨h₂, hpolicy.trans hpolicy₂, by dsimp only; omega⟩
      case isFalse =>
        have hrest := ih (fun other hother => hsteps other (List.mem_cons_of_mem _ hother)) h₂
          (hpolicy.trans hpolicy₂) (by omega)
        exact hrest.mono fun _ s₃ h₃ => ⟨h₃.1, h₃.2.1, by omega⟩

theorem length_eligibleRows_le : (eligibleRows s).length ≤ s.context.bbsCount := by
  simpa [eligibleRows] using
    List.length_filter_le (legacyBootBbsIndexIsTransactionEligible s.rom s.context)
      (List.range s.context.bbsCount)

theorem eligible_of_mem_eligibleRows {index : Nat} (h : index ∈ eligibleRows s) :
    Eligible s index :=
  (List.mem_filter.mp h).2

theorem SamePolicy.eligibleRows_eq (h : SamePolicy s s') : eligibleRows s' = eligibleRows s := by
  have hcount : s'.context.bbsCount = s.context.bbsCount := congrArg (·.2.1) h.inputs
  rw [eligibleRows, eligibleRows, eligible_congr h.inputs, h.rom, hcount]

theorem wp_assignPriority_journaled {priority : Nat} (h : Journaled s journal)
    (hroom : s.context.priorityWrites.length < maxPriorityWrites) :
    (assignPriority priority).Wp A (fun _ s' => Journaled s' journal ∧ SamePolicy s s' ∧
      s'.context.priorityWrites.length ≤ s.context.priorityWrites.length + 1) s := by
  unfold assignPriority
  simp only [Prog.wp_bind, Prog.wp_get]
  split
  case h_1 => exact ⟨h, .refl s, by dsimp only; omega⟩
  case h_2 index hfind =>
    have hindex : Eligible s index := eligible_of_mem_eligibleRows (List.mem_of_find?_eq_some hfind)
    exact (wp_legacyBootWritePriority (h.lt_length_of_eligible hindex)).mono
      fun _ s' h' => h.write hindex hroom h'

/-- Both phases fit into the history: one record a row in each. -/
theorem wp_writePlan_journaled (h : Journaled s journal) (hempty : s.context.priorityWrites = []) :
    writePlan.Wp A (fun _ s' => Journaled s' journal ∧ SamePolicy s s') s := by
  have hrows : (eligibleRows s).length ≤ maxBbsEntries :=
    Nat.le_trans length_eligibleRows_le (h.count ▸ h.bound)
  unfold writePlan
  simp only [Prog.wp_bind, Prog.wp_get]
  refine (wp_untilError_journaled (s := s) ?_ h (.refl s) ?_).mono ?_
  rotate_left
  · simp only [hempty, List.length_nil, List.length_map, maxPriorityWrites]
    omega
  · rintro status s₁ ⟨h₁, hpolicy₁, hcount₁⟩
    split
    case isTrue => exact ⟨h₁, hpolicy₁⟩
    simp only [Prog.wp_bind, Prog.wp_get]
    simp only [hempty, List.length_nil, List.length_map, Nat.zero_add] at hcount₁
    refine (wp_untilError_journaled (s := s) ?_ h₁ hpolicy₁ ?_).mono fun _ s₂ h₂ => ⟨h₂.1, h₂.2.1⟩
    · intro step hstep s₂ h₂ _ hroom
      obtain ⟨priority, -, rfl⟩ := List.mem_map.mp hstep
      exact wp_assignPriority_journaled h₂ hroom
    · simp only [hpolicy₁.eligibleRows_eq, List.length_map, List.length_range, maxPriorityWrites]
      omega
  · intro step hstep s₁ h₁ hpolicy hroom
    obtain ⟨index, hmem, rfl⟩ := List.mem_map.mp hstep
    have hindex : Eligible s₁ index := hpolicy.eligible_iff.mpr (eligible_of_mem_eligibleRows hmem)
    exact (wp_legacyBootWritePriority (h₁.lt_length_of_eligible hindex)).mono
      fun _ s₂ h₂ => h₁.write hindex hroom h₂

/-- What the exit of an apply's body promises. -/
def ApplyExit.Ends (s : BootState) : ApplyExit → Prop
  | .returned status => status.isError = true ∨
      ∃ planned, s.context.plannedPriorities = some planned ∧ LiveMatches s planned
  | .failed status => status.isError = true

theorem wp_applyBody_journaled (h : Journaled s journal) :
    applyBody.Wp A (fun exit s' => Journaled s' journal ∧ exit.Ends s') s := by
  unfold applyBody
  simp only [Prog.wp_bind, Prog.wp_get]
  split
  case isTrue => exact ⟨h, .inl rfl⟩
  split
  case isTrue => exact ⟨h, .inl rfl⟩
  refine Prog.Wp.bind (P := fun _ s' => Journaled s' journal) { h with } fun _ s₁ h₁ => ?_
  simp only [Prog.wp_bind, Prog.wp_lift]
  refine wp_legacyBootBootTargetValidateOriginal.mono fun status hmarks => ?_
  split
  case isTrue herror => exact ⟨h₁, .inl herror⟩
  case isFalse hvalid =>
    have hempty : s₁.context.priorityWrites = [] :=
      (h₁.clean (hmarks (by simpa using hvalid)).2).1
    simp only [Prog.wp_bind, Prog.wp_lift]
    refine Query.wp_of_forall fun _ => Query.wp_of_forall fun status => ?_
    split
    case isTrue herror => exact ⟨h₁, .inl herror⟩
    simp only [Prog.wp_bind, Prog.wp_lift]
    refine Query.wp_of_forall fun status => ?_
    split
    case isTrue herror => exact ⟨h₁, .inl herror⟩
    refine Prog.Wp.bind (wp_writePlan_journaled h₁ hempty) fun status s₂ hwritten => ?_
    have h₂ : Journaled s₂ journal := hwritten.1
    split
    case isTrue herror => exact ⟨h₂, herror⟩
    refine Prog.Wp.bind (P := fun _ s' => Journaled s' journal) { h₂ with } fun _ s₃ h₃ => ?_
    simp only [Prog.wp_bind, Prog.wp_lift]
    refine wp_legacyBootBootTargetValidateApplied.mono fun status hplanned => ?_
    split
    case isTrue herror => exact ⟨h₃, herror⟩
    case isFalse hvalid' =>
      simp only [Prog.wp_bind, Prog.wp_lift]
      refine Query.wp_of_forall fun _ => Query.wp_of_forall fun status => ?_
      split
      case isTrue herror => exact ⟨h₃, herror⟩
      case isFalse => exact ⟨h₃, .inr (hplanned (by simpa using hvalid'))⟩

theorem wp_applyFailed_journaled {status : EfiStatus} (h : Journaled s journal)
    (hstatus : status.isError = true) :
    (applyFailed status).Wp A (fun result s' => Journaled s' journal ∧ result.isError = true) s := by
  unfold applyFailed
  simp only [Prog.wp_bind, Prog.wp_lift, Prog.wp_get]
  refine Query.wp_of_forall fun _ => Query.wp_of_forall fun _ => ?_
  split
  case isFalse => exact ⟨h, hstatus⟩
  simp only [Prog.wp_bind]
  refine (wp_legacyBootRollbackInternal_journaled h).mono fun rollbackStatus s' h' => ?_
  split
  case isTrue herror => exact Prog.wp_lift.mpr (wp_logFailure ⟨h', herror⟩)
  case isFalse => exact ⟨h', hstatus⟩

/-- An apply keeps what is claimed of the journal, and succeeds only with the plan in the table. -/
theorem wp_legacyBootBootPriorityApply_journaled (h : Journaled s journal) :
    legacyBootBootPriorityApply.Wp A (fun status s' => Journaled s' journal ∧
      (status.isError = false →
        ∃ planned, s'.context.plannedPriorities = some planned ∧ LiveMatches s' planned)) s := by
  unfold legacyBootBootPriorityApply
  refine Prog.Wp.bind (wp_applyBody_journaled h) fun exit s₁ ⟨h₁, hends⟩ => ?_
  cases exit with
  | returned status =>
      refine ⟨h₁, fun hstatus => hends.resolve_left ?_⟩
      simp [hstatus]
  | failed status =>
      refine (wp_applyFailed_journaled h₁ hends).mono fun _ s' h' => ⟨h'.1, fun hstatus => ?_⟩
      simp [h'.2] at hstatus

/-! ### Every call -/

theorem wp_legacyBootBootPriorityRollback_journaled (h : Journaled s journal) :
    legacyBootBootPriorityRollback.Wp A (fun _ s' => Journaled s' journal) s := by
  unfold legacyBootBootPriorityRollback
  simp only [Prog.wp_bind, Prog.wp_get]
  split
  case isTrue => exact h
  split
  case isTrue => exact Prog.wp_lift.mpr (Query.wp_of_forall fun _ => h)
  case isFalse => exact wp_legacyBootRollbackInternal_journaled h

/-- Discovery is complete and the journal is not. -/
structure Discovered (s : BootState) : Prop where
  signature : s.context.signature = bootTargetSignature
  discoveryComplete : s.context.discoveryComplete = true
  journalComplete : s.context.journalComplete = false
  clean : s.context.priorityTransactionDirty = false ∧ s.context.priorityWrites = []
  count : s.context.bbsCount = s.live.length
  bound : s.live.length ≤ maxBbsEntries

/-- Everything discovery promises is kept by what a journal leaves alone. -/
theorem Discovered.of_outline (h : Discovered s) (houtline : s'.outline = s.outline) :
    Discovered s' where
  signature := (congrArg (·.context.signature) houtline).trans h.signature
  discoveryComplete := (congrArg (·.context.discoveryComplete) houtline).trans h.discoveryComplete
  journalComplete := (congrArg (·.context.journalComplete) houtline).trans h.journalComplete
  clean := ⟨(congrArg (·.context.priorityTransactionDirty) houtline).trans h.clean.1,
    (congrArg (·.context.priorityWrites) houtline).trans h.clean.2⟩
  count := by
    rw [live_of_outline houtline, ← h.count]
    exact congrArg (·.context.bbsCount) houtline
  bound := live_of_outline houtline ▸ h.bound

/-- A journal that is complete starts its transaction. -/
theorem Discovered.journaled {planned : List UInt16} (h : Discovered s)
    (hfull : s.historyFull = false) (houtline : s'.outline = s.journaled.outline) (hplanned : Planned s' s'.live planned)
    (hattempted : s'.context.journalAttempted = true) : Journaled s' s'.live := by
  have hlive : s'.live = s.live :=
    show s'.live = s.journaled.live from live_of_outline houtline
  have hcount : s'.context.bbsCount = s'.live.length := by
    rw [hlive, ← h.count]
    exact congrArg (·.context.bbsCount) houtline
  exact {
    signature := (congrArg (·.context.signature) houtline).trans h.signature
    discoveryComplete := (congrArg (·.context.discoveryComplete) houtline).trans h.discoveryComplete
    journalAttempted := hattempted
    journalComplete := congrArg (·.context.journalComplete) houtline
    bbsJournal := hplanned.bbsJournal
    count := hcount
    bound := hlive ▸ h.bound
    planned := ⟨planned, hplanned.plannedPriorities,
      (soundPlan_of_priorityPlan hplanned.liveBbsIndex hplanned.plan).length.trans hcount⟩
    identities := rfl
    preserved := fun _ _ => rfl
    recorded := fun record hrecord => by
      have hempty : s'.context.priorityWrites = [] :=
        (congrArg (·.context.priorityWrites) houtline).trans h.clean.2
      simp [hempty] at hrecord
    clean := fun _ => ⟨(congrArg (·.context.priorityWrites) houtline).trans h.clean.2, rfl⟩
    notFull := (congrArg BootState.historyFull houtline).trans hfull }

/-- A released target: nothing is left of the context. -/
def Released (s : BootState) : Prop := s.context = {} ∧ s.historyFull = false

/-- The states of a transaction. -/
inductive Safe (s : BootState) : Prop
  | discovered (h : Discovered s) (hfull : s.historyFull = false)
  | journaled {journal : List BbsTable} (h : Journaled s journal)
  | released (h : Released s)

/-- The state after a release. -/
def BootState.freed (s : BootState) : BootState := { s with context := {}, rom := .reset }

/-- **The outcomes of a release.** -/
theorem wp_legacyBootBootTargetRelease :
    legacyBootBootTargetRelease.Wp A (fun status s' =>
      status = .accessDenied ∧ s' = s ∨
        status = .success ∧ s' = s.freed ∧ (s.context.signature = bootTargetSignature →
          s.context.priorityTransactionDirty = false ∧ s.context.priorityWrites = [])) s := by
  unfold legacyBootBootTargetRelease
  simp only [Prog.wp_bind, Prog.wp_get]
  split
  case isTrue => exact .inl ⟨rfl, rfl⟩
  case isFalse hmarks =>
    refine .inr ⟨rfl, rfl, fun hsignature => ?_⟩
    simpa [hsignature] using hmarks

theorem wp_exec_of_discovered (h : Discovered s) (hfull : s.historyFull = false)
    (call : TransactionCall) :
    call.exec.Wp A (fun _ s' => Safe s') s := by
  cases call with
  | prepare =>
      exact wp_legacyBootBootTargetPrepare.mono fun _ s' hkept =>
        .discovered (h.of_outline (outline_of_kept hkept))
          ((congrArg BootState.historyFull hkept).trans hfull)
  | journalAndValidate =>
      refine wp_legacyBootBootTargetJournalAndValidate.mono fun status s' houtcome => ?_
      cases houtcome with
      | incomplete houtline =>
          exact .discovered (h.of_outline houtline)
            ((congrArg BootState.historyFull houtline).trans hfull)
      | complete houtline hplanned _ hattempted =>
          exact .journaled (h.journaled hfull houtline hplanned hattempted)
  | apply =>
      simp only [TransactionCall.exec, legacyBootBootPriorityApply, applyBody, Prog.wp_bind,
        Prog.wp_get, h.journalComplete, Bool.not_false, or_true, if_true]
      exact .discovered h hfull
  | rollback =>
      simp only [TransactionCall.exec, legacyBootBootPriorityRollback, Prog.wp_bind, Prog.wp_get,
        h.journalComplete, Bool.not_false, or_true, if_true]
      exact .discovered h hfull
  | release =>
      refine wp_legacyBootBootTargetRelease.mono fun _ s' h' => ?_
      rcases h' with ⟨-, rfl⟩ | ⟨-, rfl, -⟩
      · exact .discovered h hfull
      · exact .released ⟨rfl, hfull⟩

theorem wp_exec_of_journaled (h : Journaled s journal) (call : TransactionCall) :
    call.exec.Wp A (fun _ s' => Safe s') s := by
  cases call with
  | prepare =>
      simp only [TransactionCall.exec, legacyBootBootTargetPrepare, Prog.wp_bind, Prog.wp_get,
        h.journalAttempted, Bool.or_true, if_true]
      exact .journaled h
  | journalAndValidate =>
      simp only [TransactionCall.exec, legacyBootBootTargetJournalAndValidate, Prog.wp_bind,
        Prog.wp_get, h.signature, h.discoveryComplete, h.journalAttempted]
      exact .journaled h
  | apply =>
      exact (wp_legacyBootBootPriorityApply_journaled h).mono fun _ s' h' => .journaled h'.1
  | rollback =>
      exact (wp_legacyBootBootPriorityRollback_journaled h).mono fun _ s' h' => .journaled h'
  | release =>
      refine wp_legacyBootBootTargetRelease.mono fun _ s' h' => ?_
      rcases h' with ⟨-, rfl⟩ | ⟨-, rfl, -⟩
      · exact .journaled h
      · exact .released ⟨rfl, h.notFull⟩

theorem wp_exec_of_released (h : Released s) (call : TransactionCall) :
    call.exec.Wp A (fun _ s' => Safe s') s := by
  have hcontext : s.context = {} := h.1
  cases call <;>
    simp only [TransactionCall.exec, legacyBootBootTargetPrepare,
      legacyBootBootTargetJournalAndValidate, legacyBootBootPriorityApply, applyBody,
      legacyBootBootPriorityRollback, legacyBootBootTargetRelease, Prog.wp_bind, Prog.wp_get,
      hcontext]
  case release => exact .released ⟨rfl, h.2⟩
  all_goals exact .released h

/-- One call keeps the transaction safe. -/
theorem Safe.exec (h : Safe s) (call : TransactionCall) :
    call.exec.Wp A (fun _ s' => Safe s') s := by
  cases h with
  | discovered h hfull => exact wp_exec_of_discovered h hfull call
  | journaled h => exact wp_exec_of_journaled h call
  | released h => exact wp_exec_of_released h call

/-- A run keeps the transaction safe. -/
theorem Safe.run (h : Safe s) (hrun : TransactionRun s s') : Safe s' := by
  induction hrun with
  | refl => exact h
  | tail _ hstep ih =>
      obtain ⟨call, answers, rfl⟩ := hstep
      exact (ih.exec call).runAny answers

end CsmVgaSelector
