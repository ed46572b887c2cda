import CsmVgaSelector.Proof.Compatibility16
import CsmVgaSelector.Proof.Endpoints
import CsmVgaSelector.Proof.Lines
import CsmVgaSelector.Proof.LiveRow
import CsmVgaSelector.Proof.Placement
import CsmVgaSelector.Proof.RomCheck
import CsmVgaSelector.Proof.RouteResult
import CsmVgaSelector.Proof.TransactionSafety
import CsmVgaSelector.Route.PlanBuild

/-!
# What a complete plan stands on

A build that succeeds has been answered by each of its parts (`PlanParts`): the displays and the controller are
the only ones of their kind in the inventory, the paths and the target are as their registers have them, the
survey is clear of the one image, and the boot table has one row for the disk. The originals that the paths hold
are all that the route needs, so a complete plan can be routed and taken back.
-/

namespace CsmVgaSelector

variable {sources : PlanSources} {config : ProbeConfig} {state : RomState} {s s' : RouteState}
  {inventory : PciInventory} {active target : PciDeviceRecord} {paths : ClassifiedPaths}

/-! ### The registers of a plan -/

/-- The originals of these bridges are in their registers. -/
def Held (s : RouteState) (bridges : List JournaledBridge) : Prop :=
  ∀ bridge ∈ bridges, bridge.originalBridgeControl = s.bridgeControl bridge.record.address

theorem wp_copyAndJournalPath_held {rawPath : List PciDeviceRecord} :
    (copyAndJournalPath rawPath).Wp (fun _ => True) (fun result => ∀ bridges, result = .ok bridges →
      Held s bridges) s := by
  induction rawPath with
  | nil =>
      rintro _ ⟨⟩ bridge hbridge
      exact absurd hbridge List.not_mem_nil
  | cons record rest ih =>
      have hfailed : ∀ (status : EfiStatus) (bridges : List JournaledBridge),
          (.error status : Except EfiStatus _) = .ok bridges → Held s bridges := nofun
      unfold copyAndJournalPath
      split
      case isTrue => exact hfailed _
      rw [Query.wp_bind]
      refine wp_readRegister (fun status value herror => ?_) fun status hread => ?_
      · simp only [herror, if_true]
        exact hfailed _
      · dsimp only
        rw [hread, if_neg Bool.false_ne_true]
        split
        case isTrue => exact hfailed _
        rw [Query.wp_bind]
        refine ih.mono fun journaled hjournaled => ?_
        cases journaled with
        | error status => exact hfailed status
        | ok journaled =>
            rintro _ ⟨⟩ bridge hbridge
            rcases List.mem_cons.mp hbridge with rfl | hrest
            · rfl
            · exact hjournaled _ rfl bridge hrest

theorem wp_buildJournaledPath_held {display : PciDeviceRecord} :
    (buildJournaledPath inventory display).Wp (fun _ => True) (fun result => ∀ bridges,
      result = .ok bridges → Held s bridges) s := by
  unfold buildJournaledPath
  rw [Query.wp_bind, Query.wp_call]
  intro allocation _
  split
  case h_1 => exact nofun
  case h_2 => exact wp_copyAndJournalPath_held

/-- The parts of the paths are made of their bridges. -/
theorem classifyPaths_parts {activePath targetPath : List JournaledBridge}
    (h : classifyPaths activePath targetPath = .ok paths) :
    paths.activePath = activePath ∧ paths.targetPath = targetPath ∧
      paths.activePath = paths.sharedPath ++ paths.activeExclusivePath ∧
      ∀ bridge ∈ paths.targetExclusivePath, bridge ∈ paths.targetPath := by
  unfold classifyPaths at h
  split at h
  case h_1 => cases h
  case h_2 shared hshared =>
    dsimp only at h
    split at h
    case isTrue => cases h
    case isFalse =>
      cases h
      exact ⟨rfl, rfl, (sharedPrefix_spec hshared).1.symm, fun _ => List.mem_of_mem_drop⟩

/-- Paths that were classified hold the originals that are in the registers. -/
theorem wp_buildAndClassifyPaths_held :
    (buildAndClassifyPaths inventory active target).Wp (fun _ => True) (fun result => ∀ paths,
      result = .ok paths → Held s paths.activePath ∧ Held s paths.targetPath) s := by
  unfold buildAndClassifyPaths
  rw [Query.wp_bind]
  refine wp_buildJournaledPath_held.mono fun result hactive => ?_
  cases result with
  | error status => exact nofun
  | ok activePath =>
      rw [Query.wp_bind]
      refine wp_buildJournaledPath_held.mono fun result htarget => ?_
      cases result with
      | error status => exact nofun
      | ok targetPath =>
          intro paths hpaths
          obtain ⟨rfl, rfl, -, -⟩ := classifyPaths_parts hpaths
          exact ⟨hactive _ rfl, htarget _ rfl⟩

/-- The target's command and attributes are as they were captured. -/
structure EndpointLive (attributes : Option AttributesAnswer) (target : NativeEndpoint) (s : RouteState) :
    Prop where
  command : s.command target.address = target.originalCommand
  attributes : ∃ live ∈ attributes, live.status.isError = false ∧ live.attributes = target.originalAttributes

theorem wp_journalEndpoint {attributes : Option AttributesAnswer} {target : NativeEndpoint} :
    (journalEndpoint attributes target).Wp (fun _ => True) (fun status => status.isError = false →
      EndpointLive attributes target s) s := by
  unfold journalEndpoint
  split
  case h_1 =>
    intro hgood
    cases hgood
  case h_2 live =>
    split
    case isTrue =>
      intro hgood
      cases hgood
    case isFalse =>
      rw [Query.wp_bind]
      refine wp_readRegister (fun status value herror => ?_) fun status hread => ?_
      · simp only [herror, Bool.true_or, if_true]
        intro hgood
        cases hgood
      · simp only [hread, Bool.false_or]
        split
        case isTrue =>
          intro hgood
          cases hgood
        case isFalse hcommand =>
          split
          case isTrue =>
            intro hgood
            cases hgood
          case isFalse hattributes =>
            simp only [Bool.or_eq_true, not_or, Bool.not_eq_true, bne_iff_ne, not_not] at hcommand hattributes
            exact fun _ => ⟨hcommand, live, rfl, hattributes.1.1, hattributes.2⟩

/-! ### The parts of a plan -/

theorem orStop_eq_ok {status : EfiStatus} : orStop status = .ok () ↔ status.isError = false := by
  unfold orStop
  cases status.isError <;> simp

/-- The image was selected, and a clear check has retained it. -/
structure RomSelected (sources : PlanSources) (displays : PlanDisplays) (rom : SelectedRom) (state : RomState) :
    Prop where
  image : selectImage sources.romImage sources.rom displays.target = .ok rom
  sees : sources.survey.Sees
  clear : sources.survey.Clears (displays.romPlan rom)
  retained : state = preparedState sources.survey (displays.romPlan rom)

theorem selectRom_ok {displays : PlanDisplays} {rom : SelectedRom} {state' : RomState}
    (h : selectRom sources displays state = (.ok rom, state')) : RomSelected sources displays rom state' := by
  unfold selectRom at h
  split at h
  case h_1 => cases h
  case h_2 selected himage =>
    dsimp only at h
    have houtcome : CheckOutcome sources.survey (displays.romPlan selected)
        (state.legacyRomGuardCheck sources.survey (displays.romPlan selected)) := check_outcome state
    generalize state.legacyRomGuardCheck sources.survey (displays.romPlan selected) = checked at h houtcome
    cases houtcome with
    | clear hsees hclear =>
        cases h
        exact ⟨himage, hsees, hclear, rfl⟩
    | conflict => cases h
    | refused status hstatus =>
        rw [if_pos hstatus] at h
        cases h

/-- What the parts of a plan have answered. -/
structure PlanParts (sources : PlanSources) (config : ProbeConfig) (s : RouteState) (plan : NativePlan)
    (state : RomState) : Prop where
  displays : planDisplays sources config.core = .ok plan.displays
  classified : ∃ activePath targetPath,
    Journals (bridgeInventory plan.displays.inventory)
      plan.displays.active.inventoryRecord.toPciDeviceRecord activePath ∧
    Journals (bridgeInventory plan.displays.inventory)
      plan.displays.target.inventoryRecord.toPciDeviceRecord targetPath ∧
    classifyPaths activePath targetPath = .ok plan.paths
  held : Held s plan.paths.activePath ∧ Held s plan.paths.targetPath
  endpoint : EndpointLive sources.attributes plan.displays.target s
  rom : RomSelected sources plan.displays plan.rom state
  disk : planDisk sources config plan.displays.inventory = .ok plan.disk
  ranges : (validateBootRanges sources.bootRanges).isError = false
  validated : (finalizeValidation config).isError = false
  config : plan.config = plan.disk.config
  vector : plan.initialInt10Offset = le16 sources.memory interrupt10 ∧
    plan.initialInt10Segment = le16 sources.memory (interrupt10 + 2)

theorem finishPlan_ok {displays : PlanDisplays} {rom : SelectedRom} {plan : NativePlan}
    (h : finishPlan sources config displays paths rom = .ok plan) :
    plan.displays = displays ∧ plan.paths = paths ∧ plan.rom = rom ∧
      planDisk sources config displays.inventory = .ok plan.disk ∧ plan.config = plan.disk.config ∧
      (validateBootRanges sources.bootRanges).isError = false ∧ (finalizeValidation config).isError = false ∧
      plan.initialInt10Offset = le16 sources.memory interrupt10 ∧
      plan.initialInt10Segment = le16 sources.memory (interrupt10 + 2) := by
  unfold finishPlan at h
  obtain ⟨disk, hdisk, h⟩ := bind_eq_ok h
  obtain ⟨⟨⟩, hranges, h⟩ := bind_eq_ok h
  obtain ⟨⟨⟩, hvalidated, h⟩ := bind_eq_ok h
  cases h
  exact ⟨rfl, rfl, rfl, hdisk, rfl, orStop_eq_ok.mp hranges, orStop_eq_ok.mp hvalidated, rfl, rfl⟩

theorem wp_planBuild :
    (sources.nativeCsmVgaRuntimePlanBuild config state).Wp (fun _ => True) (fun result => ∀ plan,
      result.1 = .ok plan → PlanParts sources config s plan result.2) s := by
  unfold PlanSources.nativeCsmVgaRuntimePlanBuild
  split
  case h_1 => exact fun _ hfailed => by cases hfailed
  case h_2 displays hdisplays =>
    unfold planRoute
    rw [Query.wp_bind]
    refine (Ask.All.and wp_buildAndClassifyPaths wp_buildAndClassifyPaths_held).mono fun result hpaths => ?_
    obtain ⟨hclassified, hheld⟩ := hpaths
    split
    case h_1 => exact fun _ hfailed => by cases hfailed
    case h_2 paths =>
      rw [Query.wp_bind]
      refine wp_journalEndpoint.mono fun status hendpoint => ?_
      split
      case isTrue => exact fun _ hfailed => by cases hfailed
      case isFalse hgood =>
        split
        case h_1 => exact fun _ hfailed => by cases hfailed
        case h_2 rom state' hrom =>
          intro plan hplan
          obtain ⟨hsame, hsame', hsame'', hdisk, hconfig, hranges, hvalidated, hvector⟩ := finishPlan_ok hplan
          subst hsame hsame' hsame''
          exact ⟨hdisplays, hclassified _ rfl, hheld _ rfl, hendpoint (by simpa using hgood),
            selectRom_ok hrom, hdisk, hranges, hvalidated, hconfig, hvector⟩

/-! ### The displays -/

/-- What the first part of a build has established. -/
structure DisplaysFound (sources : PlanSources) (core : NcvConfigCore) (displays : PlanDisplays) : Prop where
  keys : bootKeysPresent core = true
  compatibility16 : ∃ status : EfiStatus, status.isError = false ∧
    (selectCompatibility16 sources.compatibilityMap sources.systemTable).run sources.memory =
      (status, displays.compatibility16)
  legacyBios : (protocolStatus sources.legacyBios).isError = false
  legacyRegion2 : (protocolStatus sources.legacyRegion2).isError = false
  inventory : displays.inventory = buildRecords sources.handles
  room : displays.inventory.length ≤ maxUintn / 8
  endpoints : findVideoEndpoints core displays.inventory = .ok (displays.target, displays.active)

theorem pciInventoryBuild_ok {located : EfiStatus} {handles : List HandleAnswer} {granted : Bool}
    {freed : Option EfiStatus} {records : List PciRecord}
    (h : pciInventoryBuild located handles granted freed = .ok records) :
    records = buildRecords handles ∧ records.length ≤ maxUintn / 8 := by
  unfold pciInventoryBuild afterFree at h
  split_ifs at h with hlocated hempty hroom
  · cases h
    rw [List.length_eq_zero_iff.mp hempty]
    exact ⟨rfl, Nat.zero_le _⟩
  · cases h
    refine ⟨rfl, ?_⟩
    rw [Bool.not_eq_true, Bool.or_eq_false_iff, decide_eq_false_iff_not, Nat.not_lt] at hroom
    rw [buildRecords, List.length_map]
    calc _ ≤ handles.length := List.length_filter_le ..
      _ ≤ maxUintn / pciDeviceRecordBytes := hroom.1
      _ ≤ maxUintn / 8 := by decide +kernel

theorem planDisplays_ok {core : NcvConfigCore} {displays : PlanDisplays}
    (h : planDisplays sources core = .ok displays) : DisplaysFound sources core displays := by
  unfold planDisplays at h
  obtain ⟨⟨⟩, hkeys, h⟩ := bind_eq_ok h
  obtain ⟨⟨⟩, hcompatibility, h⟩ := bind_eq_ok h
  obtain ⟨⟨⟩, hbios, h⟩ := bind_eq_ok h
  obtain ⟨⟨⟩, hregion, h⟩ := bind_eq_ok h
  obtain ⟨inventory, hinventory, h⟩ := bind_eq_ok h
  obtain ⟨⟨target, active⟩, hendpoints, h⟩ := bind_eq_ok h
  cases h
  refine ⟨?_, ⟨_, orStop_eq_ok.mp hcompatibility, rfl⟩, orStop_eq_ok.mp hbios, orStop_eq_ok.mp hregion,
    (pciInventoryBuild_ok hinventory).1, (pciInventoryBuild_ok hinventory).2, hendpoints⟩
  by_contra hmissing
  rw [if_neg hmissing] at hkeys
  cases hkeys

/-- What was established is all that the first part asks for, beside the inventory's buffers. -/
theorem planDisplays_of_found {core : NcvConfigCore} {displays : PlanDisplays}
    (h : DisplaysFound sources core displays)
    (hinventory : pciInventoryBuild sources.located sources.handles sources.devicesGranted
      sources.buffersFreed = .ok displays.inventory) :
    planDisplays sources core = .ok displays := by
  obtain ⟨status, hgood, hcompatibility⟩ := h.compatibility16
  unfold planDisplays
  rw [if_pos h.keys, hcompatibility, hinventory, orStop_eq_ok.mpr rfl, orStop_eq_ok.mpr h.legacyBios,
    orStop_eq_ok.mpr h.legacyRegion2]
  dsimp only [bind, Except.bind]
  rw [orStop_eq_ok.mpr hgood, h.endpoints]
  rfl

/-! ### The route of a plan -/

/-- The registers as they are, with the plan that the route is to write. -/
def NativePlan.start (plan : NativePlan) (s : RouteState) : RouteState := { s with plan := plan.route }

/-- The paths of a plan lie as they should in its inventory. -/
theorem PlanParts.split {plan : NativePlan} (h : PlanParts sources config s plan state)
    (hlocations : LocationsDistinct (bridgeInventory plan.displays.inventory)) :
    SplitPaths (bridgeInventory plan.displays.inventory)
      plan.displays.active.inventoryRecord.toPciDeviceRecord
      plan.displays.target.inventoryRecord.toPciDeviceRecord plan.paths := by
  obtain ⟨activePath, targetPath, hactive, htarget, hpaths⟩ := h.classified
  exact splitPaths_of_classifyPaths hlocations hactive htarget hpaths

/-- A plan journals the registers as they are. -/
theorem PlanParts.holdsOriginals {plan : NativePlan} (h : PlanParts sources config s plan state) :
    HoldsOriginals (plan.start s).plan (plan.start s) := by
  obtain ⟨hactive, htarget⟩ := h.held
  obtain ⟨activePath, targetPath, -, -, hpaths⟩ := h.classified
  obtain ⟨-, -, hactiveParts, htargetPart⟩ := classifyPaths_parts hpaths
  have hheld : ∀ bridges : List JournaledBridge, Held s bridges →
      ∀ bridge ∈ bridges.map JournaledBridge.planBridge,
        s.bridgeControl bridge.record = bridge.originalBridgeControl := by
    intro bridges hbridges bridge hbridge
    obtain ⟨journaled, hjournaled, rfl⟩ := List.mem_map.mp hbridge
    exact (hbridges journaled hjournaled).symm
  refine ⟨fun path => ?_, h.endpoint.command⟩
  cases path with
  | activeExclusive =>
      exact hheld _ fun bridge hbridge =>
        hactive bridge (hactiveParts ▸ List.mem_append_right _ hbridge)
  | shared =>
      exact hheld _ fun bridge hbridge =>
        hactive bridge (hactiveParts ▸ List.mem_append_left _ hbridge)
  | targetExclusive =>
      exact hheld _ fun bridge hbridge => htarget bridge (htargetPart bridge hbridge)

theorem NativePlan.start_unmarked (plan : NativePlan) (s : RouteState) : Unmarked (plan.start s) := by
  refine ⟨fun path index bridge hat => ?_, rfl⟩
  have hfresh : ∀ bridges : List JournaledBridge,
      (bridges.map JournaledBridge.planBridge)[index]? = some bridge → bridge.writeAttempted = false := by
    intro bridges hbridge
    obtain ⟨journaled, -, rfl⟩ := List.mem_map.mp (List.mem_of_getElem? hbridge)
    rfl
  cases path with
  | activeExclusive => exact hfresh _ hat
  | shared => exact hfresh _ hat
  | targetExclusive => exact hfresh _ hat

/-- What the route of a plan does, built where the registers were as in `s`. -/
structure PlanRoutes (plan : NativePlan) (s : RouteState) : Prop where
  /-- Behind any applies and restores, a route that is not dirty has left every register as it was. -/
  restored : ∀ s', Relation.ReflTransGen RouteStep (plan.start s) s' → s'.plan.routeDirty = false →
    s'.bridgeControl = s.bridgeControl ∧ s'.command = s.command
  /-- And so it has when the plan lets itself be released. -/
  released : ∀ s', Relation.ReflTransGen RouteStep (plan.start s) s' → ∀ answers,
    (nativeCsmVgaRuntimePlanRelease.run answers s').1.isError = false →
      s'.bridgeControl = s.bridgeControl ∧ s'.command = s.command
  split : LocationsDistinct (bridgeInventory plan.displays.inventory) →
    SplitPaths (bridgeInventory plan.displays.inventory)
      plan.displays.active.inventoryRecord.toPciDeviceRecord
      plan.displays.target.inventoryRecord.toPciDeviceRecord plan.paths
  /-- Where no two records are at one location, an apply that succeeds forwards legacy VGA to the target, and
  nowhere else on the active display's path. -/
  routed : LocationsDistinct (bridgeInventory plan.displays.inventory) → ∀ answers,
    (routeApply.run answers (plan.start s)).1 = true →
      (∀ bridge ∈ plan.paths.targetPath, (routeApply.run answers (plan.start s)).2.bridgeControl
        bridge.record.address &&& pciBridgeVgaEnable = pciBridgeVgaEnable) ∧
      ∀ bridge ∈ plan.paths.activeExclusivePath, (routeApply.run answers (plan.start s)).2.bridgeControl
        bridge.record.address &&& pciBridgeVgaEnable = 0

theorem release_clean {answers : Nat → PciAnswer}
    (h : (nativeCsmVgaRuntimePlanRelease.run answers s').1.isError = false) : s'.plan.routeDirty = false := by
  by_contra hdirty
  unfold nativeCsmVgaRuntimePlanRelease at h
  rw [Prog.run_bind_get] at h
  simp only [Bool.not_eq_false] at hdirty
  simp only [hdirty, Bool.true_or, if_true] at h
  cases h

/-- **A plan routes from the registers it was built on**, in every run of applies and restores. -/
theorem planBuild_routes {plan : NativePlan} {answers : Nat → PciAnswer}
    (hbuilt : ((sources.nativeCsmVgaRuntimePlanBuild config state s).run answers).1 = .ok plan) :
    PlanRoutes plan s := by
  have hparts := @Ask.All.run _ _ _ _ _ (@wp_planBuild sources config state s) answers (fun _ => trivial) plan hbuilt
  have horiginals := hparts.holdsOriginals
  have hrun : ∀ s', Relation.ReflTransGen RouteStep (plan.start s) s' → s'.plan.routeDirty = false →
      s'.bridgeControl = s.bridgeControl ∧ s'.command = s.command := by
    intro s' hsteps hclean
    have hrouted : Routed (plan.start s) s' := (horiginals.routed fun _ => plan.start_unmarked s).run hsteps
    exact hrouted.registers_eq (hrouted.clean hclean)
  refine ⟨hrun, fun s' hsteps answers hreleased => hrun s' hsteps (release_clean hreleased),
    fun hlocations => hparts.split hlocations, fun hlocations answers happlied => ?_⟩
  have hsplit := hparts.split hlocations
  have hresult := (@wp_routeApply_result (plan.start s) horiginals.bridges).runAny answers
  obtain ⟨hcontrol, -⟩ := hresult happlied
  rw [hcontrol]
  exact ⟨fun bridge hbridge => hsplit.targetForwards hbridge (hparts.held.2 bridge hbridge).symm,
    fun bridge hbridge => hsplit.activeBlocks hbridge⟩

/-! ### The boot target -/

section

variable {A : FirmwareAnswer → Prop} {boot : BootState} {request : DiscoverRequest}

/-- The context's copies are all there, unchanged, and agree with its row. -/
structure OwnedCopies (context : BootTargetContext) : Prop where
  owned : context.hasOwnedCopies = true
  unchanged : context.ownedCrcsMatch = true
  agree : context.ownedStructureMatches = true

theorem ownedStructureStatus_isError (context : BootTargetContext) :
    context.ownedStructureStatus.isError = true := by
  unfold BootTargetContext.ownedStructureStatus
  split
  · split
    · assumption
    · rfl
  · rfl

theorem wp_validateOwnedCopies :
    legacyBootBootTargetValidateOwnedCopies.Wp A (fun status => UnlessError (fun boot => OwnedCopies boot.context)
      status boot) boot := by
  unfold legacyBootBootTargetValidateOwnedCopies
  rw [Query.wp_bind, Query.wp_read]
  dsimp only
  split
  case isTrue => exact Query.wp_pure.mpr (unlessError_of_error rfl)
  case isFalse howned =>
  rw [Query.wp_bind]
  refine Query.wp_of_forall fun status => ?_
  split
  case isTrue herror => exact Query.wp_pure.mpr (unlessError_of_error herror)
  split
  case isTrue => exact Query.wp_pure.mpr (unlessError_of_error rfl)
  split
  case isTrue => exact wp_logFailure (unlessError_of_error rfl)
  case isFalse hcrcs =>
  split
  case isTrue => exact wp_logFailure (unlessError_of_error (ownedStructureStatus_isError _))
  case isFalse hstructure =>
    exact Query.wp_of_forall fun _ _ => ⟨by simpa using howned, by simpa using hcrcs, by simpa using hstructure⟩

/-- A boot target that a plan can be built on. -/
structure BootTargetFound (request : DiscoverRequest) (boot : BootState) : Prop where
  disk : OnlyRow request.target boot
  count : boot.context.bbsCount = boot.live.length
  dispatchable : boot.context.bbsCount ≤ 0xFF ∧ boot.context.firmwareBbsTable ≤ 0xFFFFFFFF
  untouched : Untouched boot
  copies : OwnedCopies boot.context

theorem wp_findBootTarget :
    (findBootTarget request).Wp A (UnlessError (BootTargetFound request)) boot := by
  unfold findBootTarget
  refine Prog.Wp.bind (wp_legacyBootBootTargetDiscover.and wp_legacyBootBootTargetDiscover_onlyRow)
    fun status boot₁ h₁ => ?_
  refine .ite (fun herror => .pure (unlessError_of_error herror)) fun hgood => .bind_get ?_
  obtain ⟨houtcome, hdisk⟩ := h₁
  refine .ite (fun _ => .pure (unlessError_of_error rfl)) fun hdispatch => ?_
  simp only [gt_iff_lt, not_or, not_lt] at hdispatch
  refine Prog.wp_lift.mpr (wp_validateOwnedCopies.mono fun status hcopies hsucceeded => ?_)
  cases houtcome with
  | refused herror => exact absurd herror hgood
  | failed herror => exact absurd herror hgood
  | complete _ huntouched _ _ _ hcount =>
      exact ⟨hdisk (by simpa using hgood), hcount, hdispatch, huntouched, hcopies hsucceeded⟩

/-- The context's row is the disk, with the text that was copied of it. -/
theorem BootTargetFound.identifies (h : BootTargetFound request boot) :
    request.target.identifies boot.context.liveBbsEntry boot.context.liveDescription = true := by
  obtain ⟨-, memory, hrow⟩ := h.disk
  have hagree := h.copies.agree
  have howned := h.copies.owned
  simp only [BootTargetContext.ownedStructureMatches, Bool.and_eq_true, beq_iff_eq] at hagree
  simp only [BootTargetContext.hasOwnedCopies, Bool.and_eq_true] at howned
  obtain ⟨strings, hstrings⟩ := Option.isSome_iff_exists.mp howned.1.2
  have htexts := hrow.strings strings hstrings
  have hmine := (hrow.only _ hrow.inTable).mpr rfl
  have hinTexts : boot.context.liveBbsIndex < (boot.live.map (currentStrings boot.rom memory)).length := by
    rw [List.length_map]
    exact hrow.inTable
  rw [hagree.2, hrow.entry, hstrings, Option.getD_some, htexts,
    getElem!_pos (boot.live.map (currentStrings boot.rom memory)) _ hinTexts, List.getElem_map,
    ← getElem!_pos boot.live _ hrow.inTable]
  exact hmine

end

/-! ### The gates of a plan -/

/-- The one legacy image of the target in the ROM that it exposes, and room for it. -/
structure OneImage (romImage : Nat) (exposed : List UInt8) (target : NativeEndpoint) (rom : SelectedRom) : Prop where
  validated : optionRomParseAndValidate romImage exposed exposed.length target.vendor target.deviceId =
    .ok rom.romValidation
  only : rom.romValidation.matchingLegacyImageFound = true ∧ rom.romValidation.matchingLegacyCandidateCount = 1
  size : rom.selectedRom.length = rom.romValidation.matchingLegacyImageSize
  place : ∃ before after, exposed = before ++ rom.selectedRom ++ after ∧
    before.length = rom.romValidation.matchingLegacyImageOffset
  room : 0 < rom.selectedRom.length ∧ rom.selectedRom.length ≤ recoveryWindow

/-- Where the discovery of a configuration's disk ends. -/
def PlanSources.discovered (sources : PlanSources) (config : ProbeConfig) : BootState :=
  ((findBootTarget config.discoverRequest).run sources.bootAnswers { sources.boot with context := {} }).2

theorem planDisk_ok {inventory : List PciRecord} {disk : PlanDisk} (h : planDisk sources config inventory = .ok disk) :
    findStorageController config inventory = .ok (disk.storageController, disk.config) ∧
      disk.bootTarget = (sources.discovered disk.config).context ∧
      BootTargetFound disk.config.discoverRequest (sources.discovered disk.config) := by
  unfold planDisk at h
  obtain ⟨⟨storageController, config'⟩, hcontroller, h⟩ := bind_eq_ok h
  obtain ⟨⟨⟩, hstatus, h⟩ := bind_eq_ok h
  cases h
  exact ⟨hcontroller, rfl, wp_findBootTarget.runAny sources.bootAnswers (orStop_eq_ok.mp hstatus)⟩

/-- One descriptor: the first 4 GiB, to be read and written. -/
def openMap : MemoryMapSnapshot where
  map := [7] ++ List.replicate 25 0 ++ [0x10] ++ List.replicate 13 0
  descriptorSize := 40

/-- A table of 24 bytes, its entry point behind it, and the text that it names. -/
def plannedTable : List UInt8 :=
  [0x49, 0x46, 0x45, 0x24, 175, 24, 0, 0, 1, 0, 0, 0, 0x00, 0xF0, 0x20, 0x00, 0x00, 0xF0, 0x40, 0x00] ++
    List.replicate 12 0 ++ List.replicate 32 1 ++ pnpSignature

/-- The active display's ROM in the shadow, and the table. -/
def plannedMemory (address : Nat) : UInt8 :=
  if address < 0xF0000 then
    if 0xC0000 ≤ address then oneBlockRom.getD (address - 0xC0000) 0 else 0
  else plannedTable.getD (address - 0xF0000) 0

theorem plannedMemory_acceptable : Acceptable plannedMemory openMap 0 0xF0000 where
  aligned := by decide
  signature := by decide +kernel
  required := by decide +kernel
  range := ⟨by decide, by decide +kernel, by decide +kernel⟩
  revision := by decide +kernel
  relationship := .inl (by decide +kernel)
  pciExpress := .inl (by decide +kernel)
  call := ⟨⟨by decide +kernel, by decide +kernel, by decide +kernel⟩, by decide +kernel⟩
  pnp := ⟨⟨by decide +kernel, by decide +kernel, by decide +kernel⟩, by decide +kernel⟩
  sum := .inl (by decide +kernel)

theorem plannedTable_signature : ∀ index < 68, plannedTable.getD index 0 = 0x49 → index = 0 := by
  decide +kernel

theorem oneBlockRom_length : oneBlockRom.length = 512 := by decide +kernel

theorem plannedMemory_only {address : Nat} (h : Acceptable plannedMemory openMap 0 address) :
    address = 0xF0000 := by
  have hsigned : plannedMemory address = 0x49 := (List.cons.inj h.signature).1
  have hlow := h.range.low
  unfold plannedMemory at hsigned
  unfold compatScanStart at hlow
  split at hsigned
  case isTrue hbelow =>
    rw [if_pos (by omega), List.getD_eq_getElem?_getD, List.getElem?_eq_none (by rw [oneBlockRom_length]; omega)]
      at hsigned
    cases hsigned
  case isFalse hfrom =>
    by_cases hinside : address - 0xF0000 < 68
    · have hfirst := plannedTable_signature _ hinside hsigned
      omega
    · rw [List.getD_eq_getElem?_getD, List.getElem?_eq_none (Nat.not_lt.mp hinside)] at hsigned
      cases hsigned

theorem plannedMemory_selected :
    (selectCompatibility16 (.ok openMap) 0).run plannedMemory = (.success, selectionAt plannedMemory 0 0xF0000) := by
  rw [selectCompatibility16_yields.run_eq]
  have hone : acceptedPlaces plannedMemory openMap 0 (scanPlaces compatScanStart 8192) = [0xF0000] := by
    refine List.perm_singleton.mp ((List.perm_ext_iff_of_nodup nodup_acceptedPlaces (List.nodup_singleton _)).mpr ?_)
    intro address
    rw [mem_acceptedPlaces, List.mem_singleton]
    constructor
    · exact plannedMemory_only
    · rintro rfl
      exact plannedMemory_acceptable
  rw [hone]
  rfl

/-- Both displays are below the bridge, and of one kind. -/
def plannedDisplay (function : UInt8) (attributes : UInt64) : HandleAnswer :=
  { vgaDisplay function attributes with
    read := some ⟨.success,
      ((((Vector.replicate 64 0).set! 0 0xDE).set! 1 0x10).set! 2 0x34).set! 3 0x12 |>.set! 11 3⟩
    devicePath := plannedPath [1, function] }

def plannedDisk : HandleAnswer :=
  { sampleHandle with
    handle := 7
    getLocation := some ⟨.success, 0, 0, 0, 0⟩
    read := some ⟨.success, (Vector.replicate 64 0).set! 11 1⟩
    devicePath := plannedPath [0] }

def plannedConfig : ProbeConfig where
  core :=
    { ncvConfigDefaults with
      probe := false
      hasTargetPci := true
      targetPci := ⟨0, 1, 0, 1⟩
      hasTargetControllerPci := true
      hasIoDecoding := true
      hasMemoryDecoding := true
      hasBusMastering := true }
  name := []
  legacyOptionDescription := []
  excludeDescription := []
  targetBbsDescription := []

/-- Firmware that grants everything, and that has one bridge, two displays and one disk. -/
def plannedSources : PlanSources where
  memory := plannedMemory
  systemTable := 0
  compatibilityMap := .ok openMap
  legacyBios := (.success, true)
  legacyRegion2 := (.success, true)
  located := .success
  handles := [plannedBridge, plannedDisplay 0 0x18, plannedDisplay 1 0, plannedDisk]
  devicesGranted := true
  buffersFreed := some .success
  attributes := some ⟨.success, 0⟩
  romImage := 0xF0000000
  rom := oneBlockRom
  survey :=
    { memory := plannedMemory
      shadowGranted := true
      mapStatus := .success
      map := openMap
      stateGranted := true
      devicesGranted := true
      firmwareGranted := true
      firmwareDevicesGranted := true
      firmwareMapStatus := .success
      firmwareMap := openMap }
  boot := sampleStart
  bootAnswers := fun _ => sampleAnswer
  bootRanges := .ok openMap

def plannedRegisters : RouteState where
  plan := ClassifiedPaths.plan ⟨[], [], [], [], []⟩ .ignore .ignore .ignore ⟨⟨0, 0, 0, 0⟩, 0⟩
  bridgeControl := fun _ => 0
  command := fun _ => 0

def plannedDisplays : PlanDisplays where
  compatibility16 := selectionAt plannedMemory 0 0xF0000
  inventory := buildRecords plannedSources.handles
  target := (buildRecord (plannedDisplay 1 0)).endpoint
  active := (buildRecord (plannedDisplay 0 0x18)).endpoint

theorem planBuild_of_displays {displays : PlanDisplays} (h : planDisplays sources config.core = .ok displays) :
    sources.nativeCsmVgaRuntimePlanBuild config state = planRoute sources config displays state := by
  unfold PlanSources.nativeCsmVgaRuntimePlanBuild
  rw [h]

theorem plannedDisplays_found : planDisplays plannedSources plannedConfig.core = .ok plannedDisplays := by
  refine planDisplays_of_found ⟨rfl, ⟨.success, rfl, plannedMemory_selected⟩, rfl, rfl, rfl, ?_, ?_⟩ rfl <;>
    decide +kernel

theorem plannedRoute_isOk : ((planRoute plannedSources plannedConfig plannedDisplays {} plannedRegisters).run
    fun _ => ⟨.success, none⟩).1.isOk = true := by
  decide +kernel

/-- The run of the build. -/
def plannedBuild : Except EfiStatus NativePlan × RomState :=
  (plannedSources.nativeCsmVgaRuntimePlanBuild plannedConfig {} plannedRegisters).run fun _ => ⟨.success, none⟩

theorem plannedSources_built : ∃ plan, plannedBuild.1 = .ok plan := by
  rw [plannedBuild, planBuild_of_displays plannedDisplays_found]
  have hok := plannedRoute_isOk
  revert hok
  cases ((planRoute plannedSources plannedConfig plannedDisplays {} plannedRegisters).run
    fun _ => ⟨.success, none⟩).1 with
  | error status => exact nofun
  | ok plan => exact fun _ => ⟨plan, rfl⟩

theorem plannedBuild_inventory {plan : NativePlan} (hbuilt : plannedBuild.1 = .ok plan) :
    plan.displays.inventory = buildRecords plannedSources.handles :=
  (planDisplays_ok (@Ask.All.run _ _ _ _ _ wp_planBuild (fun _ => ⟨.success, none⟩) (fun _ => trivial) plan
    hbuilt).displays).inventory

theorem plannedSources_locations : LocationsDistinct (bridgeInventory (buildRecords plannedSources.handles)) := by
  unfold LocationsDistinct
  decide +kernel

theorem planBuild_routes_one : ∃ plan, plannedBuild.1 = .ok plan ∧ PlanRoutes plan plannedRegisters ∧
    LocationsDistinct (bridgeInventory plan.displays.inventory) := by
  obtain ⟨plan, hbuilt⟩ := plannedSources_built
  refine ⟨plan, hbuilt, planBuild_routes hbuilt, ?_⟩
  rw [plannedBuild_inventory hbuilt]
  exact plannedSources_locations

end CsmVgaSelector
