import CsmVgaSelector.Proof.BootChoice
import CsmVgaSelector.Proof.Inventory
import CsmVgaSelector.Route.Endpoints

/-!
# Which endpoints are found

The displays are found exactly when each of the two is the only one of its kind, they are not the same, and they
share a root bridge; of a built inventory the other conditions of the search hold already. Neither search depends
on the order of the firmware's handles.
-/

namespace CsmVgaSelector

open Only

variable {core : NcvConfigCore} {config : ProbeConfig} {inventory inventory' : List PciRecord}
  {record target active selected : PciRecord} {endpoint targetEndpoint activeEndpoint : NativeEndpoint}

/-! ### One endpoint -/

/-- A record that was read is refused for its location only. -/
theorem copyEndpoint_of_read (hread : record.configStatus.isError = false) (hpciIo : record.pciIo ≠ 0) :
    copyEndpoint record = if recordLocationIsValid record.toPciDeviceRecord then .ok record.endpoint
      else .error .invalidParameter := by
  have hrefused : (record.locationStatus.isError || record.configStatus.isError || record.pciIo == 0 ||
      decide (record.segment > 0xFFFF) || decide (record.bus > 0xFF) || decide (record.device > 31) ||
      decide (record.function > 7)) = !recordLocationIsValid record.toPciDeviceRecord := by
    rw [hread, beq_eq_false_iff_ne.mpr hpciIo, Bool.or_false, Bool.or_false]
    simp only [recordLocationIsValid, gt_iff_lt, ← not_le, decide_not, Bool.not_and, Bool.not_not]
  unfold copyEndpoint
  rw [hrefused]
  cases recordLocationIsValid record.toPciDeviceRecord <;> rfl

theorem not_isError_of_display (h : recordIsDisplay record.toPciDeviceRecord = true) :
    record.configStatus.isError = false := by
  rw [recordIsDisplay, Bool.and_eq_true, Bool.not_eq_true'] at h
  exact h.1

/-! ### The displays -/

/-- The display that the configuration names, the one that owns legacy VGA, and all that the search asks of
them. -/
structure VideoDisplays (core : NcvConfigCore) (inventory : List PciRecord) (target active : PciRecord) : Prop where
  onlyTarget : inventory.filter (·.isTarget core.targetPci) = [target]
  onlyActive : inventory.filter PciRecord.ownsLegacyVga = [active]
  apart : target.ownsLegacyVga = false
  targetLocation : recordLocationIsValid target.toPciDeviceRecord = true
  activeLocation : recordLocationIsValid active.toPciDeviceRecord = true
  segment : target.segment = 0
  expected : isExpectedCard core target.endpoint = true
  targetRootBridge : target.rootBridgeStatus.isError = false
  activeRootBridge : active.rootBridgeStatus.isError = false
  rootBridge : target.rootBridgeHandle = active.rootBridgeHandle
  host : target.rootBridgeIo = active.rootBridgeIo

theorem shareRootBridge_iff (htarget : target.Built) (hactive : active.Built) :
    shareRootBridge target.endpoint active.endpoint = true ↔
      target.rootBridgeStatus.isError = false ∧ active.rootBridgeStatus.isError = false ∧
        target.rootBridgeHandle = active.rootBridgeHandle ∧ target.rootBridgeIo = active.rootBridgeIo := by
  unfold shareRootBridge PciRecord.endpoint
  simp only [Bool.not_eq_true', Bool.or_eq_false_iff, beq_eq_false_iff_ne, bne_eq_false_iff_eq]
  constructor
  · rintro ⟨⟨⟨⟨⟨⟨⟨⟨⟨htargetGood, hactiveGood⟩, -⟩, -⟩, htargetIo⟩, hactiveIo⟩, -⟩, -⟩, hhandle⟩, hparent⟩
    refine ⟨htargetGood, hactiveGood, hhandle, ?_⟩
    obtain ⟨targetParent, htargetParent⟩ := Option.isSome_iff_exists.mp (Option.isNone_eq_false_iff.mp htargetIo)
    obtain ⟨activeParent, hactiveParent⟩ := Option.isSome_iff_exists.mp (Option.isNone_eq_false_iff.mp hactiveIo)
    rw [htargetParent, hactiveParent] at hparent ⊢
    exact congrArg some hparent
  · rintro ⟨htargetGood, hactiveGood, hhandle, hio⟩
    have htargetFound := htarget.rootBridge htargetGood
    have hactiveFound := hactive.rootBridge hactiveGood
    have hsome : ∀ {io : Option Nat}, io.getD 0 ≠ 0 → io.isNone = false := by
      rintro (_ | parent) hparent
      · exact absurd rfl hparent
      · rfl
    exact ⟨⟨⟨⟨⟨⟨⟨⟨⟨htargetGood, hactiveGood⟩, htargetFound.handle⟩, hactiveFound.handle⟩,
      hsome htargetFound.parent⟩, hsome hactiveFound.parent⟩, htargetFound.parent⟩, hactiveFound.parent⟩,
      hhandle⟩, by rw [hio]⟩

theorem address_segment_eq_zero (hvalid : recordLocationIsValid record.toPciDeviceRecord = true) :
    record.endpoint.address.segment = 0 ↔ record.segment = 0 := by
  simp only [recordLocationIsValid, Bool.and_eq_true, decide_eq_true_eq] at hvalid
  have hsegment : record.segment < 2 ^ 16 := by omega
  have hword : record.endpoint.address.segment.toNat = record.segment :=
    (UInt16.toNat_ofNat' ..).trans (Nat.mod_eq_of_lt hsegment)
  rw [← UInt16.toNat_inj, hword]
  rfl

theorem acceptDisplays_ok (htarget : target.Built) (hactive : active.Built)
    (htargetRead : target.configStatus.isError = false) (hactiveRead : active.configStatus.isError = false) :
    acceptDisplays core target active = .ok (targetEndpoint, activeEndpoint) ↔
      (recordLocationIsValid target.toPciDeviceRecord = true ∧
        recordLocationIsValid active.toPciDeviceRecord = true ∧ target.segment = 0 ∧
        isExpectedCard core target.endpoint = true ∧
        shareRootBridge target.endpoint active.endpoint = true) ∧
      targetEndpoint = target.endpoint ∧ activeEndpoint = active.endpoint := by
  unfold acceptDisplays
  rw [copyEndpoint_of_read htargetRead htarget.pciIo, copyEndpoint_of_read hactiveRead hactive.pciIo]
  cases htargetValid : recordLocationIsValid target.toPciDeviceRecord with
  | false => exact iff_of_false nofun fun h => by cases h.1.1
  | true =>
      rw [← address_segment_eq_zero htargetValid]
      cases recordLocationIsValid active.toPciDeviceRecord with
      | false => exact iff_of_false nofun fun h => by cases h.1.2.1
      | true =>
          simp only [if_true]
          by_cases hsegment : target.endpoint.address.segment = 0
          · cases hexpected : isExpectedCard core target.endpoint <;>
              cases hshared : shareRootBridge target.endpoint active.endpoint <;> simp [hsegment, eq_comm]
          · simp [hsegment]

/-- The search by what it finds: the only records, and whether they are one. -/
theorem findVideoEndpoints_eq : findVideoEndpoints core inventory =
    match (scan (·.isTarget core.targetPci) inventory).only.map Prod.fst,
        (scan PciRecord.ownsLegacyVga inventory).only.map Prod.fst with
    | none, _ => .error .notFound
    | some _, none => .error .noMapping
    | some target, some active =>
        if target.ownsLegacyVga then .error .alreadyStarted else acceptDisplays core target active := by
  unfold findVideoEndpoints
  cases htarget : (scan (·.isTarget core.targetPci) inventory).only with
  | none => rfl
  | some found =>
      obtain ⟨target, targetIndex⟩ := found
      cases hactive : (scan PciRecord.ownsLegacyVga inventory).only with
      | none => rfl
      | some found =>
          obtain ⟨active, activeIndex⟩ := found
          have hsame := only_index_eq_iff (scan_only_iff.mp htarget) (scan_only_iff.mp hactive)
          by_cases howns : target.ownsLegacyVga = true
          · simp [hsame.mpr howns, howns]
          · simp [mt hsame.mp howns, howns]

/-- When the displays are found, in an inventory that was built. -/
theorem findVideoEndpoints_ok (hbuilt : ∀ record ∈ inventory, record.Built) :
    findVideoEndpoints core inventory = .ok (targetEndpoint, activeEndpoint) ↔
      ∃ target active, VideoDisplays core inventory target active ∧
        targetEndpoint = target.endpoint ∧ activeEndpoint = active.endpoint := by
  rw [findVideoEndpoints_eq]
  have hdisplay : ∀ {matched : PciRecord → Bool} {record : PciRecord},
      (∀ record, matched record = true → recordIsDisplay record.toPciDeviceRecord = true) →
      inventory.filter matched = [record] → record.Built ∧ record.configStatus.isError = false := by
    intro matched record hmatched hone
    obtain ⟨hmem, hrecord⟩ := List.mem_filter.mp (hone ▸ List.mem_singleton_self record)
    exact ⟨hbuilt record hmem, not_isError_of_display (hmatched record hrecord)⟩
  have htargetDisplay : ∀ record : PciRecord, record.isTarget core.targetPci = true →
      recordIsDisplay record.toPciDeviceRecord = true := by
    intro record htarget
    rw [PciRecord.isTarget, Bool.and_eq_true] at htarget
    exact htarget.1
  have hactiveDisplay : ∀ record : PciRecord, record.ownsLegacyVga = true →
      recordIsDisplay record.toPciDeviceRecord = true := by
    intro record howns
    rw [PciRecord.ownsLegacyVga, Bool.and_eq_true, Bool.and_eq_true] at howns
    exact howns.1.1
  constructor
  · intro h
    split at h
    case h_1 => cases h
    case h_2 => cases h
    case h_3 target active htarget hactive =>
      rw [scan_only_map_iff] at htarget hactive
      split at h
      case isTrue => cases h
      case isFalse hapart =>
        obtain ⟨htargetBuilt, htargetRead⟩ := hdisplay htargetDisplay htarget
        obtain ⟨hactiveBuilt, hactiveRead⟩ := hdisplay hactiveDisplay hactive
        obtain ⟨⟨htargetValid, hactiveValid, hsegment, hexpected, hshared⟩, hendpoints⟩ :=
          (acceptDisplays_ok htargetBuilt hactiveBuilt htargetRead hactiveRead).mp h
        obtain ⟨htargetGood, hactiveGood, hhandle, hio⟩ :=
          (shareRootBridge_iff htargetBuilt hactiveBuilt).mp hshared
        exact ⟨target, active, ⟨htarget, hactive, by simpa using hapart, htargetValid, hactiveValid, hsegment,
          hexpected, htargetGood, hactiveGood, hhandle, hio⟩, hendpoints⟩
  · rintro ⟨target, active, hdisplays, hendpoints⟩
    obtain ⟨htargetBuilt, htargetRead⟩ := hdisplay htargetDisplay hdisplays.onlyTarget
    obtain ⟨hactiveBuilt, hactiveRead⟩ := hdisplay hactiveDisplay hdisplays.onlyActive
    rw [scan_only_map_iff.mpr hdisplays.onlyTarget, scan_only_map_iff.mpr hdisplays.onlyActive]
    dsimp only
    rw [hdisplays.apart, if_neg Bool.false_ne_true,
      acceptDisplays_ok htargetBuilt hactiveBuilt htargetRead hactiveRead]
    refine ⟨⟨hdisplays.targetLocation, hdisplays.activeLocation, hdisplays.segment, hdisplays.expected, ?_⟩,
      hendpoints⟩
    exact (shareRootBridge_iff htargetBuilt hactiveBuilt).mpr ⟨hdisplays.targetRootBridge,
      hdisplays.activeRootBridge, hdisplays.rootBridge, hdisplays.host⟩

theorem address_eq_of_addressEqual {address : PciAddress} (h : record.addressEqual address = true) :
    record.address = address := by
  simp only [PciRecord.addressEqual, Bool.and_eq_true, beq_iff_eq] at h
  obtain ⟨⟨⟨⟨-, hsegment⟩, hbus⟩, hdevice⟩, hfunction⟩ := h
  simp [PciDeviceRecord.address, hsegment, hbus, hdevice, hfunction]

/-- **When the displays are found**, in an inventory that was built, and that the target is then where the
configuration has it. -/
theorem findVideoEndpoints_exact (hbuilt : ∀ record ∈ inventory, record.Built) :
    (findVideoEndpoints core inventory = .ok (targetEndpoint, activeEndpoint) ↔
      ∃ target active, VideoDisplays core inventory target active ∧
        targetEndpoint = target.endpoint ∧ activeEndpoint = active.endpoint) ∧
    (findVideoEndpoints core inventory = .ok (targetEndpoint, activeEndpoint) →
      targetEndpoint.address = core.targetPci) := by
  refine ⟨findVideoEndpoints_ok hbuilt, fun h => ?_⟩
  obtain ⟨target, active, hdisplays, rfl, -⟩ := (findVideoEndpoints_ok hbuilt).mp h
  have htarget := (List.mem_filter.mp (hdisplays.onlyTarget ▸ List.mem_singleton_self target)).2
  rw [PciRecord.isTarget, Bool.and_eq_true] at htarget
  exact address_eq_of_addressEqual htarget.2

/-- A display of this function below the bridge on root bridge 3, which decodes legacy VGA or not. -/
def vgaDisplay (function : UInt8) (attributes : UInt64) : HandleAnswer :=
  { sampleHandle with
    handle := 10 + function.toNat
    getLocation := some ⟨.success, 0, 1, 0, function.toNat⟩
    attributes := some (⟨.success, 0xFFFF⟩, ⟨.success, attributes⟩) }

/-- The second function is configured, and the first decodes legacy VGA. -/
def sampleCore : NcvConfigCore := { ncvConfigDefaults with targetPci := ⟨0, 1, 0, 1⟩ }

theorem findVideoEndpoints_exact_two : ∃ target active,
    VideoDisplays sampleCore (buildRecords [vgaDisplay 0 0x18, vgaDisplay 1 0]) target active := by
  have hfound : findVideoEndpoints sampleCore (buildRecords [vgaDisplay 0 0x18, vgaDisplay 1 0]) =
      .ok ((buildRecord (vgaDisplay 1 0)).endpoint, (buildRecord (vgaDisplay 0 0x18)).endpoint) := by
    decide +kernel
  obtain ⟨target, active, hdisplays, -⟩ :=
    (findVideoEndpoints_exact fun _ hrecord => built_of_mem_buildRecords hrecord).1.mp hfound
  exact ⟨target, active, hdisplays⟩

/-! ### The controller -/

/-- The controller of the configured disk, and all that the search asks of it. -/
structure DiskController (config : ProbeConfig) (inventory : List PciRecord) (selected : PciRecord) : Prop where
  onlyController : inventory.filter (·.isSegmentlessController config.core.targetControllerPci) = [selected]
  segment : selected.segment = config.core.targetControllerPci.segment.toNat
  location : recordLocationIsValid selected.toPciDeviceRecord = true
  described : selected.isUsbController = true →
    config.core.hasTargetBbsDescription = true ∧ config.targetBbsDescription ≠ []

theorem isTargetController_iff : record.isTargetController config.core.targetControllerPci = true ↔
    record.isSegmentlessController config.core.targetControllerPci = true ∧
      record.segment = config.core.targetControllerPci.segment.toNat := by
  simp only [PciRecord.isTargetController, PciRecord.isSegmentlessController, PciRecord.addressEqual,
    Bool.and_eq_true, Bool.not_eq_true', beq_iff_eq]
  constructor
  · rintro ⟨hcontroller, ⟨⟨⟨-, hsegment⟩, -⟩, -⟩, -⟩
    exact ⟨hcontroller, hsegment⟩
  · rintro ⟨hcontroller, hsegment⟩
    exact ⟨hcontroller, ⟨⟨⟨hcontroller.1.1.1.2, hsegment⟩, hcontroller.1.1.2⟩, hcontroller.1.2⟩, hcontroller.2⟩

/-- The exact match is the only one, and so is the one without its segment, just where the latter is the former. -/
theorem onlyController_iff :
    inventory.filter (·.isTargetController config.core.targetControllerPci) = [selected] ∧
      (inventory.filter (·.isSegmentlessController config.core.targetControllerPci)).length = 1 ↔
    inventory.filter (·.isSegmentlessController config.core.targetControllerPci) = [selected] ∧
      selected.segment = config.core.targetControllerPci.segment.toNat := by
  have hnarrow : inventory.filter (·.isTargetController config.core.targetControllerPci) =
      (inventory.filter (·.isSegmentlessController config.core.targetControllerPci)).filter
        (·.segment == config.core.targetControllerPci.segment.toNat) := by
    rw [List.filter_filter]
    refine List.filter_congr fun record _ => Bool.eq_iff_iff.mpr ?_
    rw [isTargetController_iff, Bool.and_eq_true, beq_iff_eq, and_comm]
  rw [hnarrow]
  constructor
  · rintro ⟨hexact, hone⟩
    obtain ⟨only, honly⟩ := List.length_eq_one_iff.mp hone
    rw [honly] at hexact ⊢
    obtain ⟨hmem, hsegment⟩ := List.mem_filter.mp (hexact ▸ List.mem_singleton_self selected)
    rw [List.mem_singleton.mp hmem]
    exact ⟨rfl, by simpa [List.mem_singleton.mp hmem] using hsegment⟩
  · rintro ⟨honly, hsegment⟩
    rw [honly]
    exact ⟨by simp [hsegment], rfl⟩

theorem findStorageController_eq : findStorageController config inventory =
    match (scan (·.isTargetController config.core.targetControllerPci) inventory).only.map Prod.fst with
    | none => .error .noMapping
    | some selected =>
        if (inventory.filter (·.isSegmentlessController config.core.targetControllerPci)).length ≠ 1 then
          .error .noMapping
        else acceptController config selected := by
  unfold findStorageController
  rw [count_scan]
  cases (scan (·.isTargetController config.core.targetControllerPci) inventory).only <;> rfl

/-- **Neither search depends on the order of the firmware's handles.** -/
theorem endpoints_perm (h : inventory.Perm inventory') :
    findVideoEndpoints core inventory = findVideoEndpoints core inventory' ∧
      findStorageController config inventory = findStorageController config inventory' := by
  constructor
  · rw [findVideoEndpoints_eq, findVideoEndpoints_eq, scan_only_perm h, scan_only_perm h]
  · rw [findStorageController_eq, findStorageController_eq, scan_only_perm h,
      (h.filter (·.isSegmentlessController config.core.targetControllerPci)).length_eq]

theorem endpoints_perm_two :
    findVideoEndpoints sampleCore (buildRecords [vgaDisplay 0 0x18, vgaDisplay 1 0]) =
      findVideoEndpoints sampleCore (buildRecords [vgaDisplay 1 0, vgaDisplay 0 0x18]) :=
  (@endpoints_perm _ ⟨sampleCore, [], [], [], []⟩ _ _ (.swap ..)).1

theorem acceptController_ok {config' : ProbeConfig} (hread : selected.configStatus.isError = false)
    (hpciIo : selected.pciIo ≠ 0) : acceptController config selected = .ok (endpoint, config') ↔
      recordLocationIsValid selected.toPciDeviceRecord = true ∧
      (selected.isUsbController = true →
        config.core.hasTargetBbsDescription = true ∧ config.targetBbsDescription ≠ []) ∧
      endpoint = selected.endpoint ∧ config' = resolveDescriptions config selected.isUsbController := by
  unfold acceptController
  rw [copyEndpoint_of_read hread hpciIo]
  cases hvalid : recordLocationIsValid selected.toPciDeviceRecord with
  | false => exact iff_of_false nofun nofun
  | true =>
      simp only [if_true]
      split
      case isTrue hundescribed =>
        refine iff_of_false nofun ?_
        rintro ⟨-, hdescribed, -⟩
        rw [Bool.and_eq_true] at hundescribed
        obtain ⟨hhas, hne⟩ := hdescribed hundescribed.1
        simp [hhas, hne] at hundescribed
      case isFalse hdescribed =>
        rw [Except.ok.injEq, Prod.mk.injEq, true_and, eq_comm, @eq_comm _ config']
        refine ⟨fun hsame => ⟨fun husb => ?_, hsame⟩, And.right⟩
        simpa [husb] using hdescribed

theorem isSegmentlessController_read {address : PciAddress} (h : record.isSegmentlessController address = true) :
    record.configStatus.isError = false := by
  simp only [PciRecord.isSegmentlessController, PciRecord.isBootController, Bool.and_eq_true,
    Bool.not_eq_true'] at h
  exact h.1.1.1.1.1

/-- When the disk's controller is found, in an inventory that was built. -/
theorem findStorageController_ok {config' : ProbeConfig} (hbuilt : ∀ record ∈ inventory, record.Built) :
    findStorageController config inventory = .ok (endpoint, config') ↔
      ∃ selected, DiskController config inventory selected ∧ endpoint = selected.endpoint ∧
        config' = resolveDescriptions config selected.isUsbController := by
  have hread : ∀ {selected : PciRecord},
      inventory.filter (·.isSegmentlessController config.core.targetControllerPci) = [selected] →
        selected.configStatus.isError = false ∧ selected.pciIo ≠ 0 := by
    intro selected hone
    obtain ⟨hmem, hcontroller⟩ := List.mem_filter.mp (hone ▸ List.mem_singleton_self selected)
    exact ⟨isSegmentlessController_read hcontroller, (hbuilt selected hmem).pciIo⟩
  rw [findStorageController_eq]
  constructor
  · intro h
    split at h
    case h_1 => cases h
    case h_2 selected hexact =>
      split at h
      case isTrue => cases h
      case isFalse hone =>
        obtain ⟨honly, hsegment⟩ := onlyController_iff.mp ⟨scan_only_map_iff.mp hexact, not_not.mp hone⟩
        obtain ⟨hstatus, hpciIo⟩ := hread honly
        obtain ⟨hlocation, hdescribed, hresult⟩ := (acceptController_ok hstatus hpciIo).mp h
        exact ⟨selected, ⟨honly, hsegment, hlocation, hdescribed⟩, hresult⟩
  · rintro ⟨selected, hcontroller, hresult⟩
    obtain ⟨hexact, hone⟩ := onlyController_iff.mpr ⟨hcontroller.onlyController, hcontroller.segment⟩
    obtain ⟨hstatus, hpciIo⟩ := hread hcontroller.onlyController
    rw [scan_only_map_iff.mpr hexact]
    dsimp only
    rw [if_neg (not_not.mpr hone)]
    exact (acceptController_ok hstatus hpciIo).mpr ⟨hcontroller.location, hcontroller.described, hresult⟩

/-- No description that is one of the defaults up to case contains the other. -/
theorem default_not_infix (isUsb : Bool) :
    ¬ folded (defaultDescription !isUsb) <:+: folded (defaultDescription isUsb) := by
  cases isUsb <;> decide +kernel

/-- What a request with the defaults selects. -/
theorem isSelected_default {candidate : BootCandidate} {text : List UInt16} {isUsb : Bool}
    (hoption : config.core.hasLegacyOptionDescription = false)
    (hexclude : config.core.hasExcludeDescription = false) (htext : 0 ∉ text)
    (hdescription : candidate.description = some (terminated text)) :
    candidate.isSelected (resolveDescriptions config isUsb).discoverRequest = true ↔
      candidate.isGenericDisk = true ∧ folded text = folded (defaultDescription isUsb) := by
  have hwanted : ∀ isUsb, 0 ∉ defaultDescription isUsb := by decide
  have hne : ∀ isUsb, defaultDescription isUsb ≠ [] := by decide
  have hequals := equalsInsensitive_iff htext (hwanted isUsb)
  have hcontains := containsInsensitive_iff htext (hwanted !isUsb) (hne !isUsb)
  simp only [BootCandidate.isSelected, ProbeConfig.discoverRequest, resolveDescriptions, hoption, hexclude,
    hdescription, Option.getD_some, Bool.false_eq_true, if_false, Bool.and_eq_true, Bool.not_eq_true',
    ← Bool.not_eq_true, hequals, hcontains]
  constructor
  · exact And.left
  · rintro ⟨hgeneric, hsame⟩
    refine ⟨⟨hgeneric, hsame⟩, ?_⟩
    rw [hsame]
    exact default_not_infix isUsb

/-- **When the disk's controller is found**, in an inventory that was built, and what boot option follows from it
where the configuration names none: the one of the controller's kind, which the exclusion never takes away. -/
theorem findStorageController_exact {config' : ProbeConfig} (hbuilt : ∀ record ∈ inventory, record.Built) :
    (findStorageController config inventory = .ok (endpoint, config') ↔
      ∃ selected, DiskController config inventory selected ∧ endpoint = selected.endpoint ∧
        config' = resolveDescriptions config selected.isUsbController) ∧
    (findStorageController config inventory = .ok (endpoint, config') →
      config.core.hasLegacyOptionDescription = false → config.core.hasExcludeDescription = false →
      ∀ (candidate : BootCandidate) (text : List UInt16), 0 ∉ text →
        candidate.description = some (terminated text) →
        (candidate.isSelected config'.discoverRequest = true ↔ candidate.isGenericDisk = true ∧
          folded text = folded (defaultDescription endpoint.inventoryRecord.isUsbController))) := by
  refine ⟨findStorageController_ok hbuilt, fun h hoption hexclude candidate text htext hdescription => ?_⟩
  obtain ⟨selected, -, rfl, rfl⟩ := (findStorageController_ok hbuilt).mp h
  exact isSelected_default hoption hexclude htext hdescription

/-- A controller of disks, configured by its address. -/
def sampleController : HandleAnswer :=
  { sampleHandle with
    read := some ⟨.success, (Vector.replicate 64 0).set! 11 1⟩
    getLocation := some ⟨.success, 0, 2, 3, 0⟩ }

def sampleDiskConfig : ProbeConfig where
  core := { ncvConfigDefaults with targetControllerPci := ⟨0, 2, 3, 0⟩ }
  name := []
  legacyOptionDescription := []
  excludeDescription := []
  targetBbsDescription := []

theorem findStorageController_exact_one :
    ∃ selected, DiskController sampleDiskConfig (buildRecords [sampleController]) selected ∧
      resolveDescriptions sampleDiskConfig selected.isUsbController =
        resolveDescriptions sampleDiskConfig false := by
  have hfound : findStorageController sampleDiskConfig (buildRecords [sampleController]) =
      .ok ((buildRecord sampleController).endpoint, resolveDescriptions sampleDiskConfig false) := rfl
  obtain ⟨selected, hcontroller, -, hresolved⟩ :=
    (findStorageController_exact fun _ hrecord => built_of_mem_buildRecords hrecord).1.mp hfound
  exact ⟨selected, hcontroller, hresolved.symm⟩

end CsmVgaSelector
