import CsmVgaSelector.Proof.RomGuard
import CsmVgaSelector.Rom.Check
import Mathlib.Data.List.Induction

/-!
# What a check leaves behind

A check succeeds when nothing stands in the way of the planned copy, and offers a recovery when the first
conflict is a ROM or the disk handler and no hardware has been written (`romGuardCheck_exact`). Over any run
of checks and resets a plan is retained with the snapshots of the survey that cleared it and with no recovery
pending, or there is no plan, no snapshot, and at most the recovery of a conflict that was met
(`romState_run`).

The limit that a recovery is assessed by lies before the first conflict and inside the active ROM, so a copy
within it meets no other ROM. The disk handler is looked for last: it is the one thing that a copy within the
limit can still meet.
-/

namespace CsmVgaSelector

section

variable {shadow valid : Nat → UInt8} {activeVendor activeDevice : UInt16}
  {activeBytes copyBytes copyBytes' diskHandler offset : Nat} {result result' : LegacyRomGuardResult}

/-! ### The guard, once more -/

theorem judgeHeader_activeBytes
    (h : judgeHeader shadow valid activeVendor activeDevice activeBytes offset = some result) :
    result.activeBytes = activeBytes := by
  unfold judgeHeader at h
  dsimp only at h
  split_ifs at h <;> cases h <;> rfl

theorem scanShadow_activeBytes
    (h : scanShadow shadow valid activeVendor activeDevice activeBytes copyBytes offset = some result) :
    result.activeBytes = activeBytes := by
  fun_induction scanShadow shadow valid activeVendor activeDevice activeBytes copyBytes offset with
  | case1 offset hlt found hjudge =>
      cases h
      exact judgeHeader_activeBytes hjudge
  | case2 offset hlt hjudge ih => exact ih h
  | case3 offset hend => cases h

/-- What is known of shadow memory once the guard looks at the headers. -/
structure IdentifiedRom (shadow valid : Nat → UInt8) (copyBytes : Nat) (activeVendor activeDevice : UInt16)
    (activeBytes : Nat) : Prop where
  size : CopySize copyBytes
  readable : ∀ block, block * blockBytes < copyBytes → valid block = 1
  active : ActiveRom shadow valid activeVendor activeDevice activeBytes

theorem identified_of_reason
    (hresult : legacyRomGuardInspect shadow valid copyBytes activeVendor activeDevice diskHandler = result)
    (hlayout : result.reason ≠ .unknownLayout) (hunread : result.reason ≠ .unreadable) :
    IdentifiedRom shadow valid copyBytes activeVendor activeDevice result.activeBytes := by
  unfold legacyRomGuardInspect at hresult
  split at hresult
  case isTrue =>
    subst hresult
    exact absurd rfl hlayout
  case isFalse hguard =>
  simp only [not_or, not_not] at hguard
  have hsize : CopySize copyBytes :=
    ⟨Nat.pos_of_ne_zero hguard.1, Nat.not_lt.mp hguard.2.1, hguard.2.2.1⟩
  split at hresult
  case isTrue =>
    subst hresult
    exact absurd rfl hunread
  case isFalse hreadable =>
  dsimp only at hresult
  split at hresult
  case isTrue =>
    subst hresult
    exact absurd rfl hlayout
  case isFalse hactive =>
  simp only [Bool.or_eq_true, not_or, Bool.not_eq_true, Bool.not_eq_false', bne_iff_ne, not_not]
    at hreadable hactive
  obtain ⟨⟨⟨hextent, hidentified⟩, hvendor⟩, hdevice⟩ := hactive
  have hrom : ActiveRom shadow valid activeVendor activeDevice (romExtent shadow valid 0).2 :=
    ⟨extentAt_of_romExtent hextent,
      romIdentity_iff.mp (Prod.ext hidentified (Prod.ext hvendor hdevice))⟩
  have hbytes : result.activeBytes = (romExtent shadow valid 0).2 := by
    split at hresult
    case h_1 found hscan =>
      subst hresult
      exact scanShadow_activeBytes hscan
    case h_2 =>
      split at hresult
      all_goals
        subst hresult
        rfl
  rw [hbytes]
  exact ⟨hsize, (validRange_copy hsize.pos hsize.fits).mp (blocksReadable_iff.mp hreadable), hrom⟩

/-- Of two offending blocks with none before them, neither comes first. -/
theorem first_unique {first first' : Nat} (hblock : BlockFrom blockBytes copyBytes first)
    (hoffends : Offends shadow valid activeVendor activeDevice activeBytes first)
    (hearlier' : ∀ earlier, BlockFrom blockBytes first' earlier →
      ¬ Offends shadow valid activeVendor activeDevice activeBytes earlier) : first' ≤ first :=
  Nat.not_lt.mp fun hlt => hearlier' first ⟨hblock.aligned, hblock.from_, hlt⟩ hoffends

/-- The first conflict is one place, for one reason. -/
theorem FirstConflict.unique
    (h : FirstConflict shadow valid copyBytes activeVendor activeDevice diskHandler activeBytes result)
    (h' : FirstConflict shadow valid copyBytes activeVendor activeDevice diskHandler activeBytes result') :
    result.address = result'.address ∧ result.reason = result'.reason := by
  cases h with
  | header first hblock hoffends hearlier hreports =>
      cases h' with
      | header first' hblock' hoffends' hearlier' hreports' =>
          obtain rfl : first = first' :=
            Nat.le_antisymm (first_unique hblock' hoffends' hearlier)
              (first_unique hblock hoffends hearlier')
          refine ⟨hreports.address.trans hreports'.address.symm, ?_⟩
          rcases hreports.reason with ⟨-, hnone, hreason⟩ | ⟨hextent, hreason⟩
          · obtain ⟨-, -, hreason'⟩ := hreports'.reason.resolve_right fun hright => hnone hright.1
            rw [hreason, hreason']
          · obtain ⟨-, hreason'⟩ := hreports'.reason.resolve_left fun hleft => hleft.2.1 hextent
            rw [hreason, hreason']
      | handler hnone => exact absurd hoffends (hnone first hblock)
  | handler hnone hinside hreason haddress =>
      cases h' with
      | header first' hblock' hoffends' => exact absurd hoffends' (hnone first' hblock')
      | handler _ _ hreason' haddress' =>
          exact ⟨haddress.trans haddress'.symm, hreason.trans hreason'.symm⟩

/-- It is in the way of the copy. -/
theorem FirstConflict.inside
    (h : FirstConflict shadow valid copyBytes activeVendor activeDevice diskHandler activeBytes result) :
    shadowBase ≤ result.address ∧ result.address < shadowBase + copyBytes := by
  cases h with
  | header first hblock _ _ hreports =>
      rw [hreports.address]
      exact ⟨Nat.le_add_right _ _, Nat.add_lt_add_left hblock.inside _⟩
  | handler _ hinside _ haddress =>
      rw [haddress]
      exact hinside

/-- No header that ends before the first conflict stands in the way. -/
theorem FirstConflict.not_offends_before
    (h : FirstConflict shadow valid copyBytes activeVendor activeDevice diskHandler activeBytes result)
    (hbefore : shadowBase + copyBytes' ≤ result.address) (hblock : BlockFrom blockBytes copyBytes' offset) :
    ¬ Offends shadow valid activeVendor activeDevice activeBytes offset := by
  have hupper := h.inside.2
  have hinside := hblock.inside
  cases h with
  | header first _ _ hearlier hreports =>
      rw [hreports.address] at hbefore
      exact hearlier offset ⟨hblock.aligned, hblock.from_, by omega⟩
  | handler hnone => exact hnone offset ⟨hblock.aligned, hblock.from_, by omega⟩

/-- A copy that ends before the first conflict meets the disk handler or nothing. -/
theorem FirstConflict.clear_before
    (h : FirstConflict shadow valid copyBytes activeVendor activeDevice diskHandler activeBytes result)
    (hidentified : IdentifiedRom shadow valid copyBytes activeVendor activeDevice activeBytes)
    (hsize : CopySize copyBytes') (hbefore : shadowBase + copyBytes' ≤ result.address) :
    (legacyRomGuardInspect shadow valid copyBytes' activeVendor activeDevice diskHandler).reason = .clear ↔
      ¬ HandlerInside copyBytes' diskHandler := by
  have hupper := h.inside.2
  refine (clear_iff hsize).trans ⟨NoConflict.handler, fun hhandler => ?_⟩
  exact ⟨fun block hblock => hidentified.readable block (by omega),
    ⟨activeBytes, hidentified.active,
      fun offset hblock => not_offends.mp (h.not_offends_before hbefore hblock)⟩, hhandler⟩

/-- One that reaches beyond it is refused. -/
theorem FirstConflict.refused_beyond
    (h : FirstConflict shadow valid copyBytes activeVendor activeDevice diskHandler activeBytes result)
    (hactive : ActiveRom shadow valid activeVendor activeDevice activeBytes)
    (hsize : CopySize copyBytes') (hbeyond : result.address < shadowBase + copyBytes') :
    (legacyRomGuardInspect shadow valid copyBytes' activeVendor activeDevice diskHandler).reason ≠
      .clear := by
  intro hclear
  obtain ⟨-, ⟨activeBytes', hactive', hharmless⟩, hhandler⟩ := (clear_iff hsize).mp hclear
  obtain rfl := hactive.unique hactive'
  cases h with
  | header first hblock hoffends _ hreports =>
      rw [hreports.address] at hbeyond
      have hinside : BlockFrom blockBytes copyBytes' first := ⟨hblock.aligned, hblock.from_, by omega⟩
      exact not_offends.mpr (hharmless first hinside) hoffends
  | handler _ hinside _ haddress => exact hhandler ⟨hinside.1, haddress ▸ hbeyond⟩

end

/-! ### One check -/

section

variable {survey : RomSurvey} {plan : RomPlan} {state : RomState} {recovery : RomRecovery}
  {result : LegacyRomGuardResult}

/-- The check comes to look at shadow memory. -/
structure RomSurvey.Sees (survey : RomSurvey) : Prop where
  shadow : survey.shadowGranted = true
  map : survey.mapStatus.isError = false
  vector : (survey.map.memoryMapRangeIsReadable diskVector 4 false).1 = true

def RomPlan.Untouched (plan : RomPlan) : Prop :=
  plan.routeDirty = false ∧ plan.endpointWriteAttempted = false ∧ plan.endpointWriteApplied = false

/-- The guard's verdict on the planned copy. -/
def RomSurvey.verdict (survey : RomSurvey) (plan : RomPlan) : LegacyRomGuardResult :=
  survey.inspect plan.selectedRomSize plan.activeVendor plan.activeDevice

/-- Nothing stands in the way of the planned copy. -/
structure RomSurvey.Clears (survey : RomSurvey) (plan : RomPlan) : Prop where
  size : CopySize plan.selectedRomSize
  free : NoConflict survey.shadow survey.validBlocks plan.selectedRomSize plan.activeVendor plan.activeDevice
    survey.diskHandler

/-- Another ROM, or the disk handler, is the first thing in the way of the planned copy, in the window that a
copy of the largest ROM fills. -/
structure RomSurvey.Blocks (survey : RomSurvey) (plan : RomPlan) (result : LegacyRomGuardResult) : Prop where
  identified : ∃ activeBytes,
    IdentifiedRom survey.shadow survey.validBlocks plan.selectedRomSize plan.activeVendor plan.activeDevice
      activeBytes ∧
    FirstConflict survey.shadow survey.validBlocks plan.selectedRomSize plan.activeVendor plan.activeDevice
      survey.diskHandler activeBytes result
  known : result.reason ≠ .unknownLayout
  window : result.address < shadowBase + recoveryWindow

theorem RomSurvey.clears_iff : survey.Clears plan ↔ (survey.verdict plan).reason = .clear := by
  constructor
  · exact fun h => (clear_iff h.size).mpr h.free
  · intro h
    have hidentified : IdentifiedRom survey.shadow survey.validBlocks plan.selectedRomSize plan.activeVendor
        plan.activeDevice (survey.verdict plan).activeBytes :=
      identified_of_reason rfl (by rw [h]; decide) (by rw [h]; decide)
    exact ⟨hidentified.size, (clear_iff hidentified.size).mp h⟩

/-- The reasons that a recovery is recorded for. -/
def IsConflict (reason : LegacyRomGuardReason) : Prop := reason = .overlap ∨ reason = .diskHandlerOverlap

theorem verdict_conflict (h : IsConflict (survey.verdict plan).reason) :
    IdentifiedRom survey.shadow survey.validBlocks plan.selectedRomSize plan.activeVendor plan.activeDevice
        (survey.verdict plan).activeBytes ∧
      FirstConflict survey.shadow survey.validBlocks plan.selectedRomSize plan.activeVendor
        plan.activeDevice survey.diskHandler (survey.verdict plan).activeBytes (survey.verdict plan) := by
  have hidentified : IdentifiedRom survey.shadow survey.validBlocks plan.selectedRomSize plan.activeVendor
      plan.activeDevice (survey.verdict plan).activeBytes := by
    refine identified_of_reason rfl ?_ ?_
    all_goals
      rcases h with h | h
      all_goals
        rw [h]
        decide
  refine ⟨hidentified, ?_⟩
  rcases inspect_of_active hidentified.size hidentified.readable hidentified.active rfl with
    ⟨-, hconflict⟩ | ⟨hclear, -⟩
  · exact hconflict
  · exact absurd h (by simp [RomSurvey.verdict, RomSurvey.inspect, hclear, IsConflict])

/-- The verdict is the one conflict that blocks the plan. -/
theorem RomSurvey.Blocks.verdict (h : survey.Blocks plan result) :
    IsConflict (survey.verdict plan).reason ∧ (survey.verdict plan).address = result.address := by
  obtain ⟨activeBytes, hidentified, hconflict⟩ := h.identified
  rcases inspect_of_active hidentified.size hidentified.readable hidentified.active rfl with
    ⟨-, hfound⟩ | ⟨-, hnone, hhandler⟩
  · obtain ⟨haddress, hreason⟩ := hfound.unique hconflict
    refine ⟨?_, haddress⟩
    rw [show (survey.verdict plan).reason = result.reason from hreason]
    cases hconflict with
    | header first _ _ _ hreports =>
        rcases hreports.reason with ⟨-, -, hunknown⟩ | ⟨-, hoverlap⟩
        · exact absurd hunknown h.known
        · exact .inl hoverlap
    | handler _ _ hhandler => exact .inr hhandler
  · cases hconflict with
    | header first hblock hoffends => exact absurd hoffends (hnone first hblock)
    | handler _ hinside => exact absurd hinside hhandler

theorem RomSurvey.Clears.not_conflict (h : survey.Clears plan) : ¬ IsConflict (survey.verdict plan).reason := by
  rw [IsConflict, RomSurvey.clears_iff.mp h]
  simp

theorem mayRecover_iff :
    RomState.mayRecover plan (survey.verdict plan) = true ↔
      plan.Untouched ∧ survey.Blocks plan (survey.verdict plan) := by
  simp only [RomState.mayRecover, Bool.and_eq_true, Bool.not_eq_true', Bool.or_eq_true, beq_iff_eq,
    decide_eq_true_eq, bne_iff_ne]
  constructor
  · rintro ⟨⟨⟨⟨⟨⟨⟨hroute, hattempted⟩, happlied⟩, hreason⟩, -⟩, hwindow⟩, -⟩, -⟩
    refine ⟨⟨hroute, hattempted, happlied⟩, ⟨_, verdict_conflict hreason⟩, ?_, hwindow⟩
    rcases hreason with h | h
    all_goals
      rw [h]
      decide
  · rintro ⟨⟨hroute, hattempted, happlied⟩, hblocks⟩
    obtain ⟨hreason, -⟩ := hblocks.verdict
    obtain ⟨hidentified, hconflict⟩ := verdict_conflict hreason
    have hextent := hidentified.active.extent
    have hinside := hextent.inside
    exact ⟨⟨⟨⟨⟨⟨⟨hroute, hattempted⟩, happlied⟩, hreason⟩, hconflict.inside.1⟩, hblocks.window⟩,
      Nat.ne_of_gt hextent.pos⟩, by omega⟩

/-! ### What it leaves -/

/-- The state behind a check that came out clear. -/
def preparedState (survey : RomSurvey) (plan : RomPlan) : RomState where
  preflightPlan := some plan
  storageRom := some
    { snapshot := survey.shadow
      valid := survey.validBlocks
      devices := copyLegacyPciIdentities plan.inventory }
  firmwareDisk := (legacyFirmwareDiskCapture survey plan.inventory).toOption

/-- The facts of the planned ROM, where it was validated. -/
def readFacts (plan : RomPlan) : NcvRomPlacementFacts :=
  if RomState.selectedRomIsValidated plan then ncvRomPlacementReadFacts plan.selectedRom else {}

/-- The recovery recorded for the verdict. -/
def recordedRecovery (survey : RomSurvey) (plan : RomPlan) : RomRecovery where
  conflictAddress := (survey.verdict plan).address
  conflictBytes := (survey.verdict plan).bytes
  runtimeLimit := min (survey.verdict plan).activeBytes ((survey.verdict plan).address - shadowBase)
  facts := readFacts plan

/-- The allocations of the storage snapshot. -/
def RomSurvey.Grants (survey : RomSurvey) (plan : RomPlan) : Prop :=
  survey.stateGranted = true ∧ (plan.inventory = [] ∨ survey.devicesGranted = true)

/-- The three ends of a check. -/
inductive CheckOutcome (survey : RomSurvey) (plan : RomPlan) : EfiStatus × RomState → Prop
  | clear (hsees : survey.Sees) (hclear : survey.Clears plan) (hgrants : survey.Grants plan) :
      CheckOutcome survey plan (.success, preparedState survey plan)
  | conflict (hsees : survey.Sees) (huntouched : plan.Untouched)
      (hblocks : survey.Blocks plan (survey.verdict plan)) :
      CheckOutcome survey plan (.unsupported, { recovery := some (recordedRecovery survey plan) })
  | refused (status : EfiStatus) (hstatus : status.isError = true)
      (hclear : ¬ (survey.Sees ∧ survey.Clears plan ∧ survey.Grants plan))
      (hconflict : ¬ (survey.Sees ∧ plan.Untouched ∧ survey.Blocks plan (survey.verdict plan))) :
      CheckOutcome survey plan (status, {})

theorem legacyStorageRomPrepare_eq :
    legacyStorageRomPrepare survey.stateGranted survey.devicesGranted survey.shadow survey.validBlocks
        plan.inventory = .error .outOfResources ∧ ¬ survey.Grants plan ∨
      (∃ storageRom, legacyStorageRomPrepare survey.stateGranted survey.devicesGranted survey.shadow
        survey.validBlocks plan.inventory = .ok storageRom ∧
          some storageRom = (preparedState survey plan).storageRom) ∧ survey.Grants plan := by
  unfold legacyStorageRomPrepare RomSurvey.Grants
  split
  case isTrue hstate =>
    refine .inl ⟨rfl, fun hgrants => ?_⟩
    simp [hgrants.1] at hstate
  case isFalse hstate =>
  split
  case isTrue hdevices =>
    refine .inl ⟨rfl, fun hgrants => ?_⟩
    simp [hgrants.2.resolve_left hdevices.1] at hdevices
  case isFalse hdevices =>
    refine .inr ⟨⟨_, rfl, rfl⟩, by simpa using hstate, ?_⟩
    by_cases hempty : plan.inventory = []
    · exact .inl hempty
    · exact .inr (by simpa [hempty] using hdevices)

/-- The recovery is recorded, or the conflict is refused like any other verdict. -/
theorem outcome_of_conflict (hsees : survey.Sees) (hreason : IsConflict (survey.verdict plan).reason) :
    CheckOutcome survey plan
      (.unsupported, RomState.romRecoveryRecord {} plan (survey.verdict plan)) := by
  have hclears : ¬ survey.Clears plan := fun hclears => hclears.not_conflict hreason
  unfold RomState.romRecoveryRecord
  dsimp only [RomState.romRecoveryReset]
  split
  case isTrue hrefused =>
    refine .refused _ rfl (fun h => hclears h.2.1) fun h => ?_
    rw [mayRecover_iff.mpr h.2] at hrefused
    simp at hrefused
  case isFalse hrecorded =>
    obtain ⟨huntouched, hblocks⟩ := mayRecover_iff.mp (by simpa using hrecorded)
    exact .conflict hsees huntouched hblocks

theorem outcome_of_layout (hclear : (survey.verdict plan).reason ≠ .clear)
    (hconflict : ¬ IsConflict (survey.verdict plan).reason) :
    CheckOutcome survey plan (.compromisedData, {}) :=
  .refused _ rfl (fun h => hclear (RomSurvey.clears_iff.mp h.2.1)) fun h => hconflict h.2.2.verdict.1

theorem check_outcome (state : RomState) :
    CheckOutcome survey plan (state.legacyRomGuardCheck survey plan) := by
  unfold RomState.legacyRomGuardCheck
  dsimp only [RomState.romRecoveryReset, RomState.legacyRomGuardReset]
  have hblind : ¬ survey.Sees → ∀ status : EfiStatus, status.isError = true →
      CheckOutcome survey plan (status, {}) := fun hblind status hstatus =>
    .refused status hstatus (fun h => hblind h.1) fun h => hblind h.1
  split
  case isTrue hshadow => exact hblind (fun hsees => by simp [hsees.shadow] at hshadow) _ rfl
  case isFalse hshadow =>
  split
  case isTrue hmap => exact hblind (fun hsees => by simp [hsees.map] at hmap) _ hmap
  case isFalse hmap =>
  split
  case isTrue hvector => exact hblind (fun hsees => by simp [hsees.vector] at hvector) _ rfl
  case isFalse hvector =>
  have hsees : survey.Sees := ⟨by simpa using hshadow, by simpa using hmap, by simpa using hvector⟩
  split
  case h_1 hreason =>
    change (survey.verdict plan).reason = .clear at hreason
    have hclears : survey.Clears plan := RomSurvey.clears_iff.mpr hreason
    rcases @legacyStorageRomPrepare_eq survey plan with
      ⟨hprepare, hgrants⟩ | ⟨⟨storageRom, hprepare, heq⟩, hgrants⟩
    · rw [hprepare]
      exact .refused _ rfl (fun h => hgrants h.2.2) fun h => hclears.not_conflict h.2.2.verdict.1
    · rw [hprepare]
      dsimp only
      rw [heq]
      exact .clear hsees hclears hgrants
  case h_2 hreason => exact outcome_of_conflict hsees (.inl hreason)
  case h_3 hreason => exact outcome_of_conflict hsees (.inr hreason)
  case h_4 hreason =>
    change (survey.verdict plan).reason = .unreadable at hreason
    exact outcome_of_layout (by simp [hreason]) (by simp [IsConflict, hreason])
  case h_5 hreason =>
    change (survey.verdict plan).reason = .unknownLayout at hreason
    exact outcome_of_layout (by simp [hreason]) (by simp [IsConflict, hreason])

/-- What the status of a check says, and when a recovery is offered for it. -/
structure CheckVerdict (survey : RomSurvey) (plan : RomPlan) (checked : EfiStatus × RomState) : Prop where
  success : checked.1 = .success ↔ survey.Sees ∧ survey.Clears plan ∧ survey.Grants plan
  error : checked.1 ≠ .success → checked.1.isError = true
  retained : checked.2.preflightPlan = some plan ↔ checked.1 = .success
  recovery : ∀ cleanupStatus, checked.2.romRecoveryAvailable checked.1 cleanupStatus = true ↔
    cleanupStatus.isError = false ∧ survey.Sees ∧ plan.Untouched ∧ ∃ result, survey.Blocks plan result

/-- The verdict is a conflict when some report is. -/
theorem blocks_verdict (h : survey.Blocks plan result) : survey.Blocks plan (survey.verdict plan) := by
  obtain ⟨hreason, haddress⟩ := h.verdict
  refine ⟨⟨_, verdict_conflict hreason⟩, ?_, haddress ▸ h.window⟩
  rcases hreason with hreason | hreason
  all_goals
    rw [hreason]
    decide

theorem CheckOutcome.verdict {checked : EfiStatus × RomState} (h : CheckOutcome survey plan checked) :
    CheckVerdict survey plan checked := by
  cases h with
  | clear hsees hclear hgrants =>
      refine ⟨iff_of_true rfl ⟨hsees, hclear, hgrants⟩, fun h => absurd rfl h, iff_of_true rfl rfl, ?_⟩
      intro cleanupStatus
      refine iff_of_false (by simp [RomState.romRecoveryAvailable, preparedState]) ?_
      exact fun ⟨_, _, _, _, hblocks⟩ => hclear.not_conflict hblocks.verdict.1
  | conflict hsees huntouched hblocks =>
      have hclear : ¬ survey.Clears plan := fun hclear => hclear.not_conflict hblocks.verdict.1
      refine ⟨iff_of_false (by simp) fun h => hclear h.2.1, fun _ => rfl, by simp, fun cleanupStatus => ?_⟩
      simp only [RomState.romRecoveryAvailable, Option.isSome_some, beq_self_eq_true, Bool.and_self,
        Bool.true_and, Bool.not_eq_true']
      exact (and_iff_left ⟨hsees, huntouched, _, hblocks⟩).symm
  | refused status hstatus hclear hconflict =>
      have hne := EfiStatus.ne_success_of_isError hstatus
      refine ⟨iff_of_false hne hclear, fun _ => hstatus, by simpa using hne, fun cleanupStatus => ?_⟩
      refine iff_of_false (by simp [RomState.romRecoveryAvailable]) ?_
      exact fun ⟨_, hsees, huntouched, _, hblocks⟩ => hconflict ⟨hsees, huntouched, blocks_verdict hblocks⟩

/-- **A check is exact**: it succeeds on a clear survey only, and a recovery is offered for a conflict that
was met before any write to the hardware, and for nothing else. -/
theorem romGuardCheck_exact (survey : RomSurvey) (plan : RomPlan) (state : RomState) :
    CheckVerdict survey plan (state.legacyRomGuardCheck survey plan) :=
  (check_outcome state).verdict

/-! ### Runs of checks -/

/-- What a pending recovery stands for. -/
structure RomRecovery.Explained (recovery : RomRecovery) (survey : RomSurvey) (plan : RomPlan) : Prop where
  untouched : plan.Untouched
  blocks : ∃ result, survey.Blocks plan result ∧ recovery.conflictAddress = result.address
  facts : recovery.facts = readFacts plan
  /-- A copy that reaches the conflict is refused. -/
  beyond : ∀ copyBytes, CopySize copyBytes → recovery.conflictAddress < shadowBase + copyBytes →
    (survey.inspect copyBytes plan.activeVendor plan.activeDevice).reason ≠ .clear
  /-- One within the limit meets the disk handler or nothing. -/
  within : ∀ copyBytes, CopySize copyBytes → copyBytes ≤ recovery.runtimeLimit →
    ((survey.inspect copyBytes plan.activeVendor plan.activeDevice).reason = .clear ↔
      ¬ HandlerInside copyBytes survey.diskHandler)
  /-- The runtime part of a ROM that is assessed to fit is such a copy. -/
  assessed : ncvRomPlacementAssess recovery.facts recovery.runtimeLimit = .needsFirmwareAndBackend →
    CopySize recovery.facts.maxRuntimeBytes ∧ recovery.facts.maxRuntimeBytes ≤ recovery.runtimeLimit

theorem maxRuntimeBytes_whole {rom : List UInt8} :
    (ncvRomPlacementReadFacts rom).maxRuntimeBytes % blockBytes = 0 := by
  unfold ncvRomPlacementReadFacts
  dsimp only
  split_ifs
  all_goals first
    | rfl
    | exact Nat.mul_mod_left _ _

/-- A ROM that is assessed to fit has a runtime part of whole blocks within the limit. -/
theorem assess_fits {runtimeLimit : Nat}
    (h : ncvRomPlacementAssess (readFacts plan) runtimeLimit = .needsFirmwareAndBackend) :
    CopySize (readFacts plan).maxRuntimeBytes ∧ (readFacts plan).maxRuntimeBytes ≤ runtimeLimit := by
  have hwhole : (readFacts plan).maxRuntimeBytes % blockBytes = 0 := by
    unfold readFacts
    split
    · exact maxRuntimeBytes_whole
    · rfl
  unfold ncvRomPlacementAssess at h
  split_ifs at h with hfacts hrevision hunknown himage hlimit
  refine ⟨⟨Nat.pos_of_ne_zero hunknown, ?_, hwhole⟩, Nat.not_lt.mp hlimit⟩
  unfold shadowBytes
  omega

theorem recordedRecovery_explained (huntouched : plan.Untouched)
    (hblocks : survey.Blocks plan (survey.verdict plan)) :
    (recordedRecovery survey plan).Explained survey plan := by
  obtain ⟨hidentified, hconflict⟩ := verdict_conflict hblocks.verdict.1
  refine ⟨huntouched, ⟨_, hblocks, rfl⟩, rfl, fun copyBytes hsize hbeyond => ?_,
    fun copyBytes hsize hwithin => ?_, assess_fits⟩
  · exact hconflict.refused_beyond hidentified.active hsize hbeyond
  · have hbefore := hconflict.inside.1
    have hle : copyBytes ≤ (survey.verdict plan).address - shadowBase :=
      Nat.le_trans hwithin (Nat.min_le_right _ _)
    exact hconflict.clear_before hidentified hsize (by omega)

/-- What happens to the static variables. -/
inductive RomEvent where
  | check (survey : RomSurvey) (plan : RomPlan)
  | recheckAfterBbs (survey : RomSurvey)
  | guardReset
  | recoveryReset

def RomState.step (state : RomState) : RomEvent → RomState
  | .check survey plan => (state.legacyRomGuardCheck survey plan).2
  | .recheckAfterBbs survey => (state.legacyRomGuardRecheckAfterBbs survey).2
  | .guardReset => state.legacyRomGuardReset
  | .recoveryReset => state.romRecoveryReset

def RomState.run (events : List RomEvent) : RomState := events.foldl RomState.step {}

/-- The survey that an event makes. -/
def RomEvent.Surveys (survey : RomSurvey) : RomEvent → Prop
  | .check survey' _ => survey' = survey
  | .recheckAfterBbs survey' => survey' = survey
  | .guardReset => False
  | .recoveryReset => False

/-- The survey was made, and the plan was checked. -/
def Checked (events : List RomEvent) (survey : RomSurvey) (plan : RomPlan) : Prop :=
  (∃ event ∈ events, event.Surveys survey) ∧ ∃ survey', RomEvent.check survey' plan ∈ events

/-- Either a cleared plan with its snapshots, and no recovery, or at most a recovery. -/
inductive RomState.Sound (events : List RomEvent) : RomState → Prop
  | prepared (survey : RomSurvey) (plan : RomPlan) (hchecked : Checked events survey plan)
      (hsees : survey.Sees) (hclear : survey.Clears plan) : Sound events (preparedState survey plan)
  | blocked (survey : RomSurvey) (plan : RomPlan) (hchecked : Checked events survey plan)
      (recovery : RomRecovery) (hexplained : recovery.Explained survey plan) :
      Sound events { recovery := some recovery }
  | idle : Sound events {}

theorem Checked.mono {events events' : List RomEvent} (hsub : ∀ event ∈ events, event ∈ events')
    (h : Checked events survey plan) : Checked events' survey plan := by
  obtain ⟨⟨event, hevent, hsurveys⟩, survey', hcheck⟩ := h
  exact ⟨⟨event, hsub event hevent, hsurveys⟩, survey', hsub _ hcheck⟩

theorem sound_check {events : List RomEvent} (hchecked : Checked events survey plan) :
    (state.legacyRomGuardCheck survey plan).2.Sound events := by
  have houtcome : CheckOutcome survey plan (state.legacyRomGuardCheck survey plan) := check_outcome state
  generalize state.legacyRomGuardCheck survey plan = checked at houtcome
  cases houtcome with
  | clear hsees hclear => exact .prepared survey plan hchecked hsees hclear
  | conflict hsees huntouched hblocks =>
      exact .blocked survey plan hchecked _ (recordedRecovery_explained huntouched hblocks)
  | refused => exact .idle

/-- Every event keeps a sound state. -/
theorem RomState.Sound.step {events : List RomEvent} (h : state.Sound events) (event : RomEvent) :
    (state.step event).Sound (events ++ [event]) := by
  have hmono : ∀ {survey plan}, Checked events survey plan → Checked (events ++ [event]) survey plan :=
    fun hchecked => hchecked.mono fun _ hmem => List.mem_append_left _ hmem
  have hlast : event ∈ events ++ [event] := List.mem_append_right _ (List.mem_singleton_self _)
  cases event with
  | check survey plan => exact sound_check ⟨⟨_, hlast, rfl⟩, survey, hlast⟩
  | recheckAfterBbs survey =>
      cases h with
      | prepared survey' plan hchecked hsees hclear =>
          exact sound_check ⟨⟨_, hlast, rfl⟩, (hmono hchecked).2⟩
      | blocked survey' plan hchecked recovery hexplained =>
          exact .blocked survey' plan (hmono hchecked) recovery hexplained
      | idle => exact .idle
  | guardReset =>
      cases h with
      | prepared => exact .idle
      | blocked survey' plan hchecked recovery hexplained =>
          exact .blocked survey' plan (hmono hchecked) recovery hexplained
      | idle => exact .idle
  | recoveryReset =>
      cases h with
      | prepared survey' plan hchecked hsees hclear =>
          exact .prepared survey' plan (hmono hchecked) hsees hclear
      | blocked => exact .idle
      | idle => exact .idle

/-- **Every run is sound.** A plan is retained with the snapshots that cleared it and without a recovery, or a
recovery is pending with what blocked its plan, or nothing is held. -/
theorem romState_run (events : List RomEvent) : (RomState.run events).Sound events := by
  induction events using List.reverseRecOn with
  | nil => exact .idle
  | append_singleton events event ih =>
      rw [RomState.run, List.foldl_append, ← RomState.run]
      exact ih.step event

end

end CsmVgaSelector
