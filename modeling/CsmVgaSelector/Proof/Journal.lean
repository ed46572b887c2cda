import CsmVgaSelector.Proof.Write

/-!
# From discovery to a complete journal

The preflight and the journaling fill in the journal, the plan and the LegacyDevOrder capture, and
leave everything else as it was. When journaling succeeds, the journal is the live table, the expected
priorities are its priorities, and the plan is the one the policy gives for it.
-/

namespace CsmVgaSelector

variable {A : FirmwareAnswer → Prop} {s s' : BootState}

/-! ### What the calls before the first write leave alone -/

namespace BootState

/-- The state without the journal's arrays, the plan and the LegacyDevOrder capture. -/
def kept (s : BootState) : BootState :=
  { s with
    context :=
      { s.context with
        legacyDevOrderPresent := false
        legacyDevOrderUsable := false
        legacyDevOrderAttributes := 0
        legacyDevOrderData := none
        legacyDevOrderCrc32 := 0
        legacyDevOrderRanks := none
        legacyDevOrderDisabled := none
        bbsJournal := none
        bbsJournalStrings := none
        plannedPriorities := none
        expectedPriorities := none
        verificationScratch := false
        bbsJournalStringsCrc32 := 0
        plannedPriorityCrc32 := 0 } }

/-- And without the checksums of the journal and the mark that it was attempted. -/
def outline (s : BootState) : BootState :=
  { s.kept with
    context :=
      { s.kept.context with
        bbsJournalCrc32 := 0
        bbsIdentityCrc32 := 0
        bbsPriorityCrc32 := 0
        journalAttempted := false } }

/-- The state with its journal complete. -/
def journaled (s : BootState) : BootState :=
  { s with context := { s.context with journalComplete := true } }

end BootState

theorem outline_of_kept (h : s'.kept = s.kept) : s'.outline = s.outline := by
  rw [BootState.outline, BootState.outline, h]

theorem live_of_outline (h : s'.outline = s.outline) : s'.live = s.live :=
  show s'.outline.live = s.outline.live from congrArg BootState.live h

theorem wp_legacyBootReserveJournal :
    legacyBootReserveJournal.Wp A (fun _ s' => s'.kept = s.kept) s := by
  unfold legacyBootReserveJournal
  simp only [Prog.wp_bind, Prog.wp_get]
  split
  case isTrue => rfl
  split
  case isTrue => rfl
  simp only [updateContext, Prog.wp_bind, Prog.wp_lift, Prog.wp_modify]
  refine Query.wp_of_forall fun _ => Query.wp_of_forall fun _ => Query.wp_of_forall fun _ =>
    Query.wp_of_forall fun _ => Query.wp_of_forall fun _ => ?_
  split <;> rfl

theorem wp_legacyDevOrderFallback :
    legacyDevOrderFallback.Wp A (fun _ s' =>
      s'.kept = s.kept ∧ s'.context.bbsJournal = s.context.bbsJournal) s := by
  simp only [legacyDevOrderFallback, updateContext, Prog.wp_bind, Prog.wp_modify, Prog.wp_lift]
  exact Query.wp_of_forall fun _ => ⟨rfl, trivial⟩

theorem wp_legacyBootCaptureLegacyDevOrder :
    legacyBootCaptureLegacyDevOrder.Wp A (fun _ s' =>
      s'.kept = s.kept ∧ s'.context.bbsJournal = s.context.bbsJournal) s := by
  unfold legacyBootCaptureLegacyDevOrder
  simp only [Prog.wp_bind, Prog.wp_get]
  split
  case h_1 => exact ⟨rfl, rfl⟩
  split
  case isTrue => exact ⟨rfl, rfl⟩
  simp only [Prog.wp_bind, Prog.wp_lift]
  refine Query.wp_of_forall fun answer => ?_
  split
  case h_1 => exact wp_legacyDevOrderFallback
  split
  case isTrue => exact wp_legacyDevOrderFallback
  simp only [Prog.wp_bind, Prog.wp_lift]
  refine Query.wp_of_forall fun _ => Query.wp_of_forall fun _ => ?_
  split
  case isTrue => exact ⟨rfl, rfl⟩
  simp only [Prog.wp_bind, Prog.wp_lift]
  refine Query.wp_of_forall fun parsed => ?_
  split
  case h_1 => exact wp_legacyDevOrderFallback
  simp only [updateContext, Prog.wp_bind, Prog.wp_modify, Prog.wp_lift]
  refine Query.wp_of_forall fun _ => ?_
  split
  · exact ⟨rfl, rfl⟩
  · exact Prog.wp_lift.mpr (Query.wp_of_forall fun _ => ⟨rfl, rfl⟩)

theorem wp_revalidateLegacyDevOrder :
    revalidateLegacyDevOrder.Wp A (fun _ s' =>
      s'.kept = s.kept ∧ s'.context.bbsJournal = s.context.bbsJournal) s := by
  unfold revalidateLegacyDevOrder
  simp only [Prog.wp_bind, Prog.wp_get]
  split
  · exact Prog.wp_lift.mpr (Query.wp_of_forall fun _ => ⟨rfl, rfl⟩)
  · exact wp_legacyBootCaptureLegacyDevOrder

/-- The fields that the policy and the plan read. -/
def BootTargetContext.policyInputs (context : BootTargetContext) :=
  (context.bbsJournal, context.bbsCount, context.liveBbsIndex, context.legacyDevOrderUsable,
    context.legacyDevOrderRanks, context.legacyDevOrderDisabled)

theorem eligible_congr {rom : RomEvidence} {context context' : BootTargetContext}
    (h : context'.policyInputs = context.policyInputs) :
    legacyBootBbsIndexIsTransactionEligible rom context' =
      legacyBootBbsIndexIsTransactionEligible rom context := by
  simp only [BootTargetContext.policyInputs, Prod.mk.injEq] at h
  obtain ⟨hjournal, hcount, hlive, husable, -, hdisabled⟩ := h
  funext index
  simp only [legacyBootBbsIndexIsTransactionEligible, hjournal, hcount, hlive, husable, hdisabled]

/-- The plan in the context is the one the policy gives for the journal. -/
structure Planned (s : BootState) (journal : List BbsTable) (planned : List UInt16) : Prop where
  bbsJournal : s.context.bbsJournal = some journal
  expectedPriorities : s.context.expectedPriorities = some (journal.map BbsTable.bootPriority)
  plannedPriorities : s.context.plannedPriorities = some planned
  liveBbsIndex : s.context.liveBbsIndex < s.context.bbsCount
  plan : priorityPlan s.rom s.context journal = (.success, planned)

/-- The status of a plan is success or an error. -/
theorem priorityPlan_status {rom : RomEvidence} {context : BootTargetContext}
    {journal : List BbsTable} {status : EfiStatus} {planned : List UInt16}
    (h : priorityPlan rom context journal = (status, planned)) (hstatus : status.isError = false) :
    status = .success := by
  unfold priorityPlan at h
  split at h
  · cases h
    simp [EfiStatus.isError] at hstatus
  split at h
  split at h
  · cases h
    simp_all
  split at h
  split at h
  · cases h
    simp_all
  split at h
  · cases h
    simp [EfiStatus.isError] at hstatus
  · cases h
    rfl

theorem rankPass_congr {rom : RomEvidence} {context context' : BootTargetContext}
    {journal : List BbsTable} {pass turns : Nat} {state : PlanState}
    (h : context'.policyInputs = context.policyInputs) :
    rankPass rom context' journal pass turns state = rankPass rom context journal pass turns state := by
  have hfind : findBest rom context' journal pass = findBest rom context journal pass := by
    have heligible := @eligible_congr rom _ _ h
    simp only [BootTargetContext.policyInputs, Prod.mk.injEq] at h
    obtain ⟨-, -, -, husable, hranks, -⟩ := h
    have hrank : candidateOrderRank context' = candidateOrderRank context := by
      funext index
      simp only [candidateOrderRank, husable, hranks]
    funext ranked rows best
    induction rows generalizing best with
    | nil => rfl
    | cons index rest ih =>
        simp only [findBest, planCandidate, betterCandidate, heligible, hrank, husable, ih]
        cases best <;> rfl
  simp only [BootTargetContext.policyInputs, Prod.mk.injEq] at h
  obtain ⟨-, hcount, -⟩ := h
  induction turns generalizing state with
  | zero => rfl
  | succ turns ih => simp only [rankPass, hfind, hcount, ih]

theorem priorityPlan_congr {rom : RomEvidence} {context context' : BootTargetContext}
    {journal : List BbsTable} (h : context'.policyInputs = context.policyInputs) :
    priorityPlan rom context' journal = priorityPlan rom context journal := by
  have heligible := @eligible_congr rom _ _ h
  have hpass (pass turns : Nat) (state : PlanState) :=
    @rankPass_congr rom _ _ journal pass turns state h
  simp only [priorityPlan, selectedPlan, initialPlan, planHasOtherZero, heligible, hpass]
  simp only [BootTargetContext.policyInputs, Prod.mk.injEq] at h
  obtain ⟨-, hcount, hlive, -⟩ := h
  simp only [hcount, hlive]
  rfl

theorem wp_legacyBootBuildPriorityPlan :
    legacyBootBuildPriorityPlan.Wp A (fun status s' =>
      s'.kept = s.kept ∧ s'.context.bbsJournal = s.context.bbsJournal ∧
        (status.isError = false → ∃ journal planned, Planned s' journal planned)) s := by
  unfold legacyBootBuildPriorityPlan
  simp only [Prog.wp_bind, Prog.wp_get]
  split
  case h_1 => exact ⟨rfl, rfl, fun h => by simp [EfiStatus.isError] at h⟩
  case h_2 journal hjournal =>
    split
    case isTrue => exact ⟨rfl, rfl, fun h => by simp [EfiStatus.isError] at h⟩
    case isFalse hguard =>
      simp only [updateContext, Prog.wp_bind, Prog.wp_modify, Prog.wp_pure]
      refine ⟨rfl, trivial, fun hstatus => ⟨journal, (priorityPlan s.rom s.context journal).2, ?_⟩⟩
      have hplan : priorityPlan s.rom s.context journal =
          (.success, (priorityPlan s.rom s.context journal).2) :=
        Prod.ext (priorityPlan_status rfl hstatus) rfl
      refine { bbsJournal := hjournal, expectedPriorities := rfl, plannedPriorities := rfl,
               liveBbsIndex := ?_, plan := ?_ }
      · simp at hguard
        exact hguard.1.2
      · rw [← hplan]
        exact priorityPlan_congr rfl

theorem Planned.transfer {journal : List BbsTable} {planned : List UInt16}
    (h : Planned s journal planned) (hrom : s'.rom = s.rom)
    (hpolicy : s'.context.policyInputs = s.context.policyInputs)
    (hexpected : s'.context.expectedPriorities = s.context.expectedPriorities)
    (hplanned : s'.context.plannedPriorities = s.context.plannedPriorities) :
    Planned s' journal planned := by
  have hplan := (priorityPlan_congr hpolicy).trans h.plan
  simp only [BootTargetContext.policyInputs, Prod.mk.injEq] at hpolicy
  obtain ⟨hjournal, hcount, hlive, -⟩ := hpolicy
  exact { bbsJournal := hjournal.trans h.bbsJournal
          expectedPriorities := hexpected.trans h.expectedPriorities
          plannedPriorities := hplanned.trans h.plannedPriorities
          liveBbsIndex := by rw [hlive, hcount]; exact h.liveBbsIndex
          plan := hrom ▸ hplan }

/-- Journaling the strings changes the journal's strings and their checksum only. -/
def OnlyStringsChange (s s' : BootState) : Prop :=
  ∃ strings crc, s' =
    { s with
      context := { s.context with bbsJournalStrings := strings, bbsJournalStringsCrc32 := crc } }

theorem OnlyStringsChange.kept (h : OnlyStringsChange s s') : s'.kept = s.kept := by
  obtain ⟨strings, crc, rfl⟩ := h
  rfl

theorem wp_journalLiveStrings : journalLiveStrings.Wp A (fun _ s' => OnlyStringsChange s s') s := by
  unfold journalLiveStrings
  simp only [Prog.wp_bind, Prog.wp_lift]
  refine Query.wp_of_forall fun captured => ?_
  split
  case isTrue => exact ⟨_, _, rfl⟩
  simp only [Prog.wp_bind, Prog.wp_lift]
  refine Query.wp_of_forall fun readable => ?_
  split
  case isTrue => exact ⟨_, _, rfl⟩
  simp only [Prog.wp_bind, Prog.wp_lift]
  refine Query.wp_of_forall fun _ => Query.wp_of_forall fun _ => Query.wp_of_forall fun _ => ?_
  split
  case isTrue => exact ⟨_, _, rfl⟩
  simp only [updateContext, Prog.wp_bind, Prog.wp_get, Prog.wp_lift, Prog.wp_modify]
  refine Query.wp_of_forall fun read => ?_
  split
  case isTrue => exact ⟨_, _, rfl⟩
  simp only [Prog.wp_bind, Prog.wp_lift, Prog.wp_modify]
  refine Query.wp_of_forall fun _ => ?_
  split
  case isTrue => exact ⟨_, _, rfl⟩
  simp only [Prog.wp_bind, Prog.wp_get]
  split <;> exact Prog.wp_lift.mpr (Query.wp_of_forall fun _ => ⟨_, _, rfl⟩)

/-- What journaling can do to the state, with the status it returns. -/
inductive JournalOutcome (s : BootState) : EfiStatus → BootState → Prop
  | incomplete {status : EfiStatus} {s' : BootState} (houtline : s'.outline = s.outline) :
      JournalOutcome s status s'
  | complete {s' : BootState} {planned : List UInt16}
      (houtline : s'.outline = s.journaled.outline) (hplanned : Planned s' s'.live planned)
      (hcrc : s'.context.bbsJournalCrc32 = legacyBootCrc32 (tableBytes s'.live))
      (hattempted : s'.context.journalAttempted = true) (hverifiable : Verifiable s') :
      JournalOutcome s .success s'

theorem wp_legacyBootBootTargetPrepare :
    legacyBootBootTargetPrepare.Wp A (fun _ s' => s'.kept = s.kept) s := by
  unfold legacyBootBootTargetPrepare
  simp only [Prog.wp_bind, Prog.wp_get]
  split
  case isTrue => rfl
  simp only [Prog.wp_bind, Prog.wp_lift]
  refine Query.wp_of_forall fun _ => ?_
  split
  case isTrue => rfl
  simp only [Prog.wp_bind]
  refine wp_legacyBootReserveJournal.mono fun _ s₁ h₁ => ?_
  split
  case isTrue => exact h₁
  simp only [updateContext, Prog.wp_bind, Prog.wp_modify]
  refine wp_legacyBootCaptureLegacyDevOrder.mono fun _ s₂ h₂ => ?_
  split
  case isTrue => exact h₂.1.trans h₁
  simp only [Prog.wp_bind]
  refine wp_legacyBootBuildPriorityPlan.mono fun _ s₃ h₃ => ?_
  split
  · exact h₃.1.trans (h₂.1.trans h₁)
  · exact Prog.wp_lift.mpr (Query.wp_of_forall fun _ => h₃.1.trans (h₂.1.trans h₁))

/-- The journal holds the live table and its checksum. -/
structure JournalTaken (s : BootState) : Prop where
  bbsJournal : s.context.bbsJournal = some s.live
  bbsJournalCrc32 : s.context.bbsJournalCrc32 = legacyBootCrc32 (tableBytes s.live)

theorem JournalTaken.of_kept (h : JournalTaken s) (hkept : s'.kept = s.kept)
    (hjournal : s'.context.bbsJournal = s.context.bbsJournal) : JournalTaken s' := by
  have hlive : s'.live = s.live := live_of_outline (outline_of_kept hkept)
  have hcrc : s'.kept.context.bbsJournalCrc32 = s.kept.context.bbsJournalCrc32 := by rw [hkept]
  exact { bbsJournal := by rw [hjournal, h.bbsJournal, hlive]
          bbsJournalCrc32 := by rw [hlive]; exact hcrc.trans h.bbsJournalCrc32 }

/-- The journal is taken from the live table, with its checksum and its plan. -/
theorem wp_takeJournal :
    takeJournal.Wp A (fun status s' =>
      s'.outline = s.outline ∧ s'.context.journalAttempted = s.context.journalAttempted ∧
        (status.isError = false → JournalTaken s' ∧
          ∃ planned, Planned s' s'.live planned)) s := by
  unfold takeJournal
  refine Prog.Wp.bind wp_legacyBootReserveJournal fun _ s₁ h₁ => ?_
  have hattempted : s₁.context.journalAttempted = s.context.journalAttempted :=
    congrArg (·.context.journalAttempted) h₁
  have houtline : s₁.outline = s.outline := outline_of_kept h₁
  split
  case isTrue herror => exact ⟨houtline, hattempted, fun h => by simp [herror] at h⟩
  let Taken (s' : BootState) : Prop := s'.outline = s.outline ∧
    s'.context.journalAttempted = s.context.journalAttempted ∧ JournalTaken s'
  refine Prog.Wp.bind (P := fun _ => Taken) ?_ fun _ s₂ h₂ => ?_
  · exact ⟨houtline, hattempted, rfl, rfl⟩
  refine Prog.Wp.bind (P := fun _ => Taken) ?_ fun status s₃ h₃ => ?_
  · refine wp_revalidateLegacyDevOrder.mono fun _ s' h' => ?_
    exact ⟨(outline_of_kept h'.1).trans h₂.1,
      (congrArg (·.context.journalAttempted) h'.1).trans h₂.2.1, h₂.2.2.of_kept h'.1 h'.2⟩
  split
  case isTrue herror => exact ⟨h₃.1, h₃.2.1, fun h => by simp [herror] at h⟩
  refine wp_legacyBootBuildPriorityPlan.mono fun status s' ⟨hkept, hjournal, hplanned⟩ => ?_
  have htaken : JournalTaken s' := h₃.2.2.of_kept hkept hjournal
  refine ⟨(outline_of_kept hkept).trans h₃.1,
    (congrArg (·.context.journalAttempted) hkept).trans h₃.2.1, fun hstatus => ⟨htaken, ?_⟩⟩
  obtain ⟨journal, planned, hplanned⟩ := hplanned hstatus
  obtain rfl : journal = s'.live :=
    Option.some.inj (hplanned.bbsJournal.symm.trans htaken.bbsJournal)
  exact ⟨planned, hplanned⟩

theorem wp_confirmJournal (hincomplete : s.context.journalComplete = false) :
    confirmJournal.Wp A (fun status s' => s' = s ∨
      status = .success ∧ s' = s.journaled ∧ Verifiable s') s := by
  have hrestored : s.journaled.context.journalComplete = true ∧
      { s.journaled with context := { s.journaled.context with journalComplete := false } } = s := by
    constructor
    · rfl
    · conv_rhs => rw [show s = { s with context :=
        { s.context with journalComplete := s.context.journalComplete } } from rfl, hincomplete]
      rfl
  unfold confirmJournal
  simp only [Prog.wp_bind, Prog.wp_lift]
  refine Query.wp_of_forall fun _ => ?_
  split
  case isTrue => exact .inl rfl
  simp only [Prog.wp_bind, Prog.wp_get]
  split
  case isTrue => exact Prog.wp_lift.mpr (wp_logFailure (.inl rfl))
  simp only [Prog.wp_bind, Prog.wp_lift]
  refine Query.wp_of_forall fun _ => ?_
  split
  case isTrue => exact .inl rfl
  refine Prog.Wp.bind (P := fun _ s' => s' = s.journaled) rfl fun _ s' hs' => ?_
  subst hs'
  simp only [Prog.wp_bind, Prog.wp_lift]
  refine wp_legacyBootVerifyLiveAgainstPriorities.mono fun status hverified => ?_
  split
  case isTrue => exact .inl hrestored.2
  case isFalse herror => exact .inr ⟨rfl, rfl, (hverified (by simpa using herror)).1⟩

/-- **The outcomes of journaling.** -/
theorem wp_legacyBootBootTargetJournalAndValidate :
    legacyBootBootTargetJournalAndValidate.Wp A (JournalOutcome s) s := by
  unfold legacyBootBootTargetJournalAndValidate
  simp only [Prog.wp_bind, Prog.wp_get]
  split
  case isTrue => exact .incomplete rfl
  split
  case isTrue => exact .incomplete rfl
  case isFalse hstarted =>
    have hincomplete : s.context.journalComplete = false := by
      simp only [Bool.or_eq_true, not_or, Bool.not_eq_true] at hstarted
      exact hstarted.1.2
    refine Prog.Wp.bind (P := fun _ s' => s'.outline = s.outline ∧
      s'.context.journalAttempted = true) ⟨rfl, rfl⟩ fun _ s₁ h₁ => ?_
    simp only [Prog.wp_bind, Prog.wp_lift]
    refine Query.wp_of_forall fun _ => ?_
    split
    case isTrue => exact .incomplete h₁.1
    simp only [Prog.wp_bind, Prog.wp_lift]
    refine Query.wp_of_forall fun _ => ?_
    split
    case isTrue => exact .incomplete h₁.1
    simp only [Prog.wp_bind, Prog.wp_lift]
    refine Query.wp_of_forall fun _ => ?_
    split
    case isTrue => exact Prog.wp_lift.mpr (wp_logFailure (.incomplete h₁.1))
    simp only [Prog.wp_bind, Prog.wp_get]
    split
    case isTrue => exact Prog.wp_lift.mpr (wp_logFailure (.incomplete h₁.1))
    refine Prog.Wp.bind wp_takeJournal fun status s₂ h₂ => ?_
    have houtline₂ : s₂.outline = s.outline := h₂.1.trans h₁.1
    split
    case isTrue => exact .incomplete houtline₂
    case isFalse herror =>
      obtain ⟨htaken, planned, hplanned⟩ := h₂.2.2 (by simpa using herror)
      refine Prog.Wp.bind wp_journalLiveStrings fun _ s₃ h₃ => ?_
      have houtline₃ : s₃.outline = s.outline := (outline_of_kept h₃.kept).trans houtline₂
      split
      case isTrue => exact .incomplete houtline₃
      have hincomplete₃ : s₃.context.journalComplete = false :=
        (congrArg (·.context.journalComplete) houtline₃).trans hincomplete
      refine (wp_confirmJournal hincomplete₃).mono fun status s' h' => ?_
      rcases h' with rfl | ⟨rfl, rfl, hverifiable⟩
      · exact .incomplete houtline₃
      · have hjournaled : s₃.journaled.outline = s.journaled.outline :=
          congrArg BootState.journaled houtline₃
        obtain ⟨strings, crc, rfl⟩ := h₃
        exact .complete hjournaled (hplanned.transfer rfl rfl rfl rfl) htaken.bbsJournalCrc32
          (h₂.2.1.trans h₁.2) hverifiable

end CsmVgaSelector
