import CsmVgaSelector.Proof.Safety

/-!
# What discovery leaves

Discovery starts from an empty context and fills in what it finds; it never touches the transaction's
own fields. A discovery that succeeds has counted the rows of the live table.
-/

namespace CsmVgaSelector

open Prog (Keeps)

variable {A : FirmwareAnswer → Prop} {s s' : BootState}

/-- The live table and the transaction's own fields. -/
def BootState.marks (s : BootState) :=
  (s.live, s.historyFull, s.context.signature, s.context.bbsCount, s.context.discoveryComplete,
    s.context.journalAttempted, s.context.journalComplete, s.context.priorityTransactionAttempted,
    s.context.priorityTransactionDirty, s.context.prioritiesApplied, s.context.priorityWrites)

theorem keeps_correlateRow (memory : FarMemory) (target : DiskTarget) (index : Nat)
    (counts : MatchCounts) : Keeps BootState.marks (correlateRow memory target index counts) := by
  unfold correlateRow
  refine .bind .get fun state => .bind (.lift _) fun logged => .ite (.pure _) ?_
  refine .bind (.modify fun _ => rfl) fun _ => .bind (.lift _) fun _ => ?_
  refine .bind (.modify fun s => ?_) fun _ => .bind (.lift _) fun _ => .ite (.pure _) (.pure _)
  dsimp only
  split <;> rfl

theorem keeps_correlateRows (memory : FarMemory) (target : DiskTarget) (rows : List Nat)
    (counts : MatchCounts) : Keeps BootState.marks (correlateRows memory target rows counts) := by
  induction rows generalizing counts with
  | nil => exact .pure _
  | cons index rest ih =>
      unfold correlateRows
      refine .bind (keeps_correlateRow memory target index counts) fun result => ?_
      split
      · exact .pure _
      · exact ih _

theorem keeps_legacyBootLogAndCorrelateLiveBbs (memory : FarMemory) (target : DiskTarget) :
    Keeps BootState.marks (legacyBootLogAndCorrelateLiveBbs memory target) := by
  unfold legacyBootLogAndCorrelateLiveBbs
  refine .bind .get fun _ => .ite (.pure _) ?_
  refine .bind (keeps_correlateRows memory target _ _) fun result => ?_
  split
  · exact .pure _
  refine .bind (.lift _) fun _ => .ite (.bind (.lift _) fun _ => .pure _) ?_
  refine .ite (.ite (.bind (.lift _) fun _ => .pure _) (.pure _)) (.ite (.pure _) ?_)
  exact .bind .get fun _ => .ite (.bind (.lift _) fun _ => .ite (.pure _) (.pure _)) (.pure _)

theorem keeps_legacyBootMoveCandidateToContext (candidate : BootCandidate) :
    Keeps BootState.marks (legacyBootMoveCandidateToContext candidate) := by
  unfold legacyBootMoveCandidateToContext
  refine .bind .get fun _ => .ite (.pure _) (.ite (.bind (.lift _) fun _ => .pure _) ?_)
  refine .bind (.modify fun _ => rfl) fun _ => .bind (.lift _) fun _ => .bind (.lift _) fun _ => ?_
  exact .ite (.pure _) (.lift _)

theorem keeps_snapshotAndCorrelate (target : DiskTarget) (info : BbsInfo)
    (candidate : BootCandidate) :
    Keeps BootState.marks (snapshotAndCorrelate target info candidate) := by
  have hsnapshot : Keeps BootState.marks (takeSnapshot info) := by
    unfold takeSnapshot
    refine .bind (.lift _) fun _ => .bind (.lift _) fun _ => .bind (.modify fun _ => rfl) fun _ => ?_
    exact .ite (.pure _) (.bind (.modify fun _ => rfl) fun _ => .bind (.lift _) fun _ => .pure _)
  have hcorrelated (memory : FarMemory) :
      Keeps BootState.marks (correlateSnapshot memory target) := by
    unfold correlateSnapshot
    refine .bind (keeps_legacyBootLogAndCorrelateLiveBbs memory target) fun _ => .ite (.pure _) ?_
    refine .bind (.modify fun _ => rfl) fun _ => .bind (.lift _) fun _ => .bind .get fun _ => ?_
    exact .ite (.bind (.lift _) fun _ => .pure _) (.pure _)
  unfold snapshotAndCorrelate
  refine .bind (.lift _) fun _ => .ite (.pure _) (.bind (.lift _) fun _ => .ite (.lift _) ?_)
  refine .bind hsnapshot fun _ => .ite (.pure _) (.bind (hcorrelated _) fun _ => ?_)
  refine .ite (.bind (.lift _) fun _ => .pure _) ?_
  refine .bind (keeps_legacyBootMoveCandidateToContext _) fun _ => ?_
  exact .ite (.bind (.lift _) fun _ => .pure _) (.pure _)

/-- Nothing of a transaction has begun. -/
structure Untouched (s : BootState) : Prop where
  journalAttempted : s.context.journalAttempted = false
  journalComplete : s.context.journalComplete = false
  attempted : s.context.priorityTransactionAttempted = false
  dirty : s.context.priorityTransactionDirty = false
  applied : s.context.prioritiesApplied = false
  writes : s.context.priorityWrites = []

theorem Untouched.of_marks (h : Untouched s) (hmarks : s'.marks = s.marks) : Untouched s' := by
  simp only [BootState.marks, Prod.mk.injEq] at hmarks
  obtain ⟨-, -, -, -, -, hattempted, hcomplete, hstarted, hdirty, happlied, hwrites⟩ := hmarks
  exact ⟨hattempted.trans h.1, hcomplete.trans h.2, hstarted.trans h.3, hdirty.trans h.4,
    happlied.trans h.5, hwrites.trans h.6⟩

theorem Untouched.discovered (h : Untouched s) (hsignature : s.context.signature = bootTargetSignature)
    (hcomplete : s.context.discoveryComplete = true) (hcount : s.context.bbsCount = s.live.length)
    (hbound : s.live.length ≤ maxBbsEntries) : Discovered s where
  signature := hsignature
  discoveryComplete := hcomplete
  journalComplete := h.journalComplete
  clean := ⟨h.dirty, h.writes⟩
  count := hcount
  bound := hbound

/-- What a discovery can do to the state, with the status it returns. -/
inductive DiscoverOutcome (s : BootState) : EfiStatus → BootState → Prop
  | refused {status : EfiStatus} (herror : status.isError = true) : DiscoverOutcome s status s
  | failed {status : EfiStatus} {s' : BootState} (herror : status.isError = true)
      (huntouched : Untouched s') (hfull : s'.historyFull = s.historyFull)
      (hincomplete : s'.context.discoveryComplete = false) : DiscoverOutcome s status s'
  | complete {status : EfiStatus} {s' : BootState} (hsuccess : status.isError = false)
      (huntouched : Untouched s') (hfull : s'.historyFull = s.historyFull)
      (hsignature : s'.context.signature = bootTargetSignature)
      (hcomplete : s'.context.discoveryComplete = true)
      (hcount : s'.context.bbsCount = s'.live.length) (hbound : s'.live.length ≤ maxBbsEntries) :
      DiscoverOutcome s status s'

theorem wp_completeDiscovery :
    completeDiscovery.Wp A (fun status s' => s' =
      { s with context := { s.context with discoveryComplete := !status.isError } }) s := by
  unfold completeDiscovery
  simp only [Prog.wp_bind, updateContext, Prog.wp_modify, Prog.wp_lift, Prog.wp_pure]
  exact Query.wp_of_forall fun _ => trivial

/-- A discovery that has begun and is not complete. -/
structure Begun (s s' : BootState) : Prop where
  untouched : Untouched s'
  historyFull : s'.historyFull = s.historyFull
  signature : s'.context.signature = bootTargetSignature
  incomplete : s'.context.discoveryComplete = false

theorem Begun.of_marks {s₁ : BootState} (h : Begun s s₁) (hmarks : s'.marks = s₁.marks) :
    Begun s s' where
  untouched := h.untouched.of_marks hmarks
  historyFull := (congrArg (·.2.1) hmarks).trans h.historyFull
  signature := (congrArg (·.2.2.1) hmarks).trans h.signature
  incomplete := (congrArg (·.2.2.2.2.1) hmarks).trans h.incomplete

theorem Begun.failed {status : EfiStatus} (h : Begun s s') (herror : status.isError = true) :
    DiscoverOutcome s status s' :=
  .failed herror h.untouched h.historyFull h.incomplete

/-- **The outcomes of a discovery.** -/
theorem wp_legacyBootBootTargetDiscover {request : DiscoverRequest} :
    (legacyBootBootTargetDiscover request).Wp A (DiscoverOutcome s) s := by
  unfold legacyBootBootTargetDiscover
  refine .ite (fun _ => .pure (.refused rfl)) fun _ => .bind_get ?_
  refine .ite (fun _ => .pure (.refused rfl)) fun _ => ?_
  refine Prog.Wp.bind (P := fun _ => Begun s) ⟨⟨rfl, rfl, rfl, rfl, rfl, rfl⟩, rfl, rfl, rfl⟩ ?_
  intro _ s₁ h₁
  refine .bind_query fun candidate => .ite (fun herror => .pure (h₁.failed herror)) fun _ => ?_
  refine .bind_query fun _ => .ite (fun _ => .bind_query fun _ => .pure (h₁.failed rfl)) fun _ => ?_
  refine .bind_query fun _ => .ite (fun _ => .bind_query fun _ => .pure (h₁.failed rfl)) fun _ => ?_
  refine .bind_query fun _ => .bind_query fun status => ?_
  refine .ite (fun herror => .pure (h₁.failed herror)) fun _ => ?_
  refine Prog.Wp.bind (P := fun _ => Begun s)
    { h₁ with untouched := { h₁.untouched with } } fun _ s₂ h₂ => ?_
  refine Prog.Wp.bind (P := fun result s' => Begun s s' ∧ s'.live = result.2.table)
    (fun answer _ => ⟨{ h₂ with untouched := { h₂.untouched with } }, rfl⟩) fun result s₃ h₃ => ?_
  refine Prog.Wp.bind (P := fun _ s' => Begun s s' ∧ s'.live = result.2.table)
    ⟨{ h₃.1 with untouched := { h₃.1.untouched with } }, h₃.2⟩ fun _ s₄ h₄ => ?_
  refine .bind_query fun _ => .bind_query fun flushStatus => ?_
  refine .ite (fun herror => .pure (h₄.1.failed herror)) fun _ => ?_
  refine .ite (fun herror => .pure (h₄.1.failed herror)) fun _ => ?_
  refine .ite (fun _ => Prog.wp_lift.mpr (wp_logFailure (h₄.1.failed rfl))) fun hformed => ?_
  refine Prog.Wp.bind (P := fun _ s' => Begun s s' ∧ s'.live = result.2.table)
    (fun answer _ => ⟨{ h₄.1 with untouched := { h₄.1.untouched with } }, h₄.2⟩) ?_
  intro status s₅ h₅
  refine .ite (fun herror => .pure (h₅.1.failed herror)) fun _ => ?_
  refine Prog.Wp.bind (P := fun _ s' => (Begun s s' ∧ s'.live = result.2.table) ∧
    s'.context.bbsCount = result.2.table.length)
    ⟨⟨{ h₅.1 with untouched := { h₅.1.untouched with } }, h₅.2⟩, rfl⟩ fun _ s₆ h₆ => ?_
  refine Prog.Wp.bind ((keeps_snapshotAndCorrelate _ _ _).wp s₆) fun status s₇ hmarks => ?_
  have h₇ : Begun s s₇ := h₆.1.1.of_marks hmarks
  refine .ite (fun herror => .pure (h₇.failed herror)) fun _ => ?_
  refine wp_completeDiscovery.mono ?_
  rintro status s' rfl
  cases hstatus : status.isError with
  | true => exact .failed hstatus { h₇.untouched with } h₇.historyFull (by simp)
  | false =>
      have hlive : s₇.live = result.2.table := (congrArg (·.1) hmarks).trans h₆.1.2
      have hcount : s₇.context.bbsCount = result.2.table.length :=
        (congrArg (·.2.2.2.1) hmarks).trans h₆.2
      simp only [BbsInfo.wellFormed, Bool.not_eq_true', Bool.not_eq_false, Bool.and_eq_true,
        decide_eq_true_eq] at hformed
      exact .complete hstatus { h₇.untouched with } h₇.historyFull h₇.signature (by simp)
        (by rw [hlive]; exact hcount) (by rw [hlive]; exact hformed.1.2)

end CsmVgaSelector
