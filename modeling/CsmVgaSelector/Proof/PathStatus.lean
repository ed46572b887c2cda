import CsmVgaSelector.Pci.PathStatus
import CsmVgaSelector.Proof.BridgePath
import CsmVgaSelector.Proof.Inventory
import CsmVgaSelector.Proof.Write
import CsmVgaSelector.Setup.Displays

/-!
# One path, four verdicts

Setup probes the path of a display, reports it, and derives it once more for the target of a configuration; the
boot builds it. The four differ in what they are told and in how they fail, and agree on the path: each succeeds
exactly where the device path has one whose bus registers agree, up to what it asks besides.
-/

namespace CsmVgaSelector

variable {inventory : PciInventory} {records : List PciRecord} {record : PciRecord}
  {selected candidate : PciDeviceRecord} {path : List Nat} {index : Nat} {granted : Bool}

/-- The device path has this path, and the bus registers agree. -/
structure HasPath (inventory : PciInventory) (selected : PciDeviceRecord) (path : List Nat) : Prop where
  built : buildDevicePathBridgePath inventory selected = .ok path
  agrees : crossCheckBridgePath inventory selected path = .success

theorem HasPath.unique {path' : List Nat} (h : HasPath inventory selected path)
    (h' : HasPath inventory selected path') : path = path' :=
  Except.ok.inj (h.built.symm.trans h'.built)

/-- A display whose root bridge was found. -/
theorem rootBridge_iff (hbuilt : record.Built) :
    (record.rootBridgeStatus.isError || record.rootBridgeHandle == 0 || record.rootBridgeIo.getD 0 == 0) = false ↔
      record.rootBridgeStatus.isError = false := by
  simp only [Bool.or_eq_false_iff, beq_eq_false_iff_ne]
  constructor
  · exact fun h => h.1.1
  · intro hgood
    have hfound := hbuilt.rootBridge hgood
    exact ⟨⟨hgood, hfound.handle⟩, hfound.parent⟩

theorem crossCheck_isError :
    (crossCheckBridgePath inventory selected path).isError = false ↔
      crossCheckBridgePath inventory selected path = .success := by
  induction path with
  | nil => exact iff_of_true rfl rfl
  | cons index rest ih =>
      unfold crossCheckBridgePath
      split
      case isTrue => exact ih
      case isFalse => exact iff_of_false (fun h => by cases h) fun h => by cases h

theorem walkBuses_isError {remaining bus : Nat} {taken : List Nat} {status : EfiStatus}
    (h : walkBuses inventory selected remaining bus taken = .error status) : status.isError = true := by
  induction remaining generalizing bus taken with
  | zero => cases h
  | succ remaining ih =>
      unfold walkBuses at h
      split at h
      case isTrue => cases h
      case isFalse =>
        split at h
        case h_1 =>
          cases h
          rfl
        case h_2 =>
          split_ifs at h
          case pos =>
            cases h
            rfl
          case pos =>
            cases h
            rfl
          case neg => exact ih h
        case h_3 =>
          cases h
          rfl

theorem buildBusBridgePath_isError {status : EfiStatus}
    (h : buildBusBridgePath inventory selected = .error status) : status.isError = true := by
  unfold buildBusBridgePath at h
  split at h
  case h_1 status' hwalk =>
    cases h
    exact walkBuses_isError hwalk
  case h_2 =>
    split at h
    case isTrue =>
      cases h
      rfl
    case isFalse => cases h

/-! ### The target's path -/

theorem strictRecordPathPrefix_eq :
    strictRecordPathPrefix candidate selected = isStrictDevicePathPrefix candidate selected := by
  unfold strictRecordPathPrefix isStrictDevicePathPrefix devicePathPrefix
  cases hcandidate : candidate.devicePath with
  | none => simp
  | some candidatePath =>
      cases hselected : selected.devicePath with
      | none => simp
      | some selectedPath =>
          dsimp only
          by_cases hsize : selected.devicePathSize ≤ candidate.devicePathSize
          · rw [if_pos hsize, if_pos (.inr hsize)]
          · rw [if_neg hsize]
            by_cases hend : candidate.devicePathSize ≤ endDevicePathLength
            · rw [if_pos (.inl hend), if_pos (.inl hend)]
            · rw [if_neg (by omega), if_neg (by omega)]

theorem dynamicPathAgrees_cons : dynamicPathAgrees inventory selected (index :: path) =
    (bridgeAgrees inventory[index]! (childBus inventory selected path) &&
      dynamicPathAgrees inventory selected path) := by
  unfold dynamicPathAgrees
  rw [List.length_cons, List.range_succ_eq_map, List.all_cons, List.all_map]
  congr 1
  · have hchild : (if 0 + 1 < path.length + 1 then inventory[(index :: path)[0 + 1]!]!.bus else selected.bus) =
        childBus inventory selected path := by
      cases path <;> simp [childBus]
    dsimp only
    rw [hchild, bridgeAgrees, bne, bne, Bool.not_or, Bool.not_or, Bool.not_not, Bool.not_not]
    rfl
  · refine congrArg (List.all _) (funext fun place => ?_)
    simp only [Function.comp, List.getElem!_cons_succ, Nat.add_lt_add_iff_right]

theorem dynamicPathAgrees_iff :
    dynamicPathAgrees inventory selected path = true ↔
      crossCheckBridgePath inventory selected path = .success := by
  induction path with
  | nil => exact iff_of_true rfl rfl
  | cons index rest ih =>
      rw [dynamicPathAgrees_cons, crossCheckBridgePath, Bool.and_eq_true]
      cases bridgeAgrees inventory[index]! (childBus inventory selected rest) with
      | false => exact iff_of_false (fun h => by cases h.1) nofun
      | true => simpa using ih

theorem buildDynamicBridgePath_ok :
    buildDynamicBridgePath inventory selected = .ok path ↔ HasPath inventory selected path := by
  have hancestor : isDynamicAncestor selected = isUpstreamBridge selected := by
    funext candidate
    rw [isDynamicAncestor, isUpstreamBridge, strictRecordPathPrefix_eq]
  have hsplit : HasPath inventory selected path ↔ buildDevicePathBridgePath inventory selected = .ok path ∧
      dynamicPathAgrees inventory selected path = true := by
    rw [dynamicPathAgrees_iff]
    exact ⟨fun h => ⟨h.built, h.agrees⟩, fun h => ⟨h.1, h.2⟩⟩
  rw [hsplit, buildDynamicBridgePath, buildDevicePathBridgePath, hancestor]
  cases selected.devicePath with
  | none => exact iff_of_false (fun h => by cases h) fun h => by cases h.1
  | some selectedPath =>
      dsimp only
      cases pciNodeCount selectedPath.bytes with
      | error status => exact iff_of_false (fun h => by cases h) fun h => by cases h.1
      | ok count =>
          dsimp only
          split
          case isTrue => exact iff_of_false (fun h => by cases h) fun h => by cases h.1
          case isFalse =>
            rw [Except.ok.injEq]
            split
            case isTrue hdiffers =>
              refine iff_of_false (fun h => by cases h) ?_
              rintro ⟨rfl, hagrees⟩
              rw [hagrees] at hdiffers
              cases hdiffers
            case isFalse hagrees =>
              rw [Except.ok.injEq]
              refine ⟨?_, And.left⟩
              rintro rfl
              exact ⟨rfl, by simpa using hagrees⟩

/-! ### The verdicts -/

theorem buildValidated_ok {capacity : Nat} {bridges : List PciDeviceRecord}
    (hbuilt : record.Built) (hroom : inventory.length ≤ maxUintn / 8)
    (hvalid : recordLocationIsValid record.toPciDeviceRecord = true)
    (hdisplay : recordIsDisplay record.toPciDeviceRecord = true) :
    pciBuildValidatedDevicePathBridgePath granted inventory record.toPciDeviceRecord capacity = .ok bridges ↔
      granted = true ∧ record.rootBridgeStatus.isError = false ∧
        ∃ path, HasPath inventory record.toPciDeviceRecord path ∧ path.length ≤ capacity ∧
          bridges = path.map (inventory[·]!) := by
  unfold pciBuildValidatedDevicePathBridgePath
  rw [hvalid, hdisplay, ← rootBridge_iff hbuilt]
  cases record.rootBridgeStatus.isError || record.rootBridgeHandle == 0 || record.rootBridgeIo.getD 0 == 0 with
  | true => exact iff_of_false nofun nofun
  | false =>
      have hfits : decide (inventory.length > maxUintn / 8) = false := decide_eq_false (Nat.not_lt.mpr hroom)
      rw [hfits]
      cases granted with
      | false => exact iff_of_false nofun nofun
      | true =>
          simp only [Bool.not_true, Bool.or_self, Bool.false_eq_true, if_false, true_and]
          cases hpath : buildDevicePathBridgePath inventory record.toPciDeviceRecord with
          | error status =>
              refine iff_of_false nofun ?_
              rintro ⟨path, hhas, -⟩
              cases hpath.symm.trans hhas.built
          | ok path =>
              dsimp only
              constructor
              · intro h
                split at h
                case isTrue => cases h
                case isFalse hagrees =>
                  split at h
                  case isTrue => cases h
                  case isFalse hcapacity =>
                    cases h
                    exact ⟨path, ⟨hpath, not_not.mp hagrees⟩, Nat.not_lt.mp hcapacity, rfl⟩
              · rintro ⟨path', hhas, hcapacity, rfl⟩
                cases hpath.symm.trans hhas.built
                rw [if_neg (not_not.mpr hhas.agrees), if_neg (Nat.not_lt.mpr hcapacity)]

theorem probePath_validated (hbuilt : record.Built) (hroom : inventory.length ≤ maxUintn / 8)
    (hvalid : recordLocationIsValid record.toPciDeviceRecord = true)
    (hdisplay : recordIsDisplay record.toPciDeviceRecord = true) :
    (pciProbeDevicePathBridgePathStatus granted inventory record.toPciDeviceRecord).pathValidated = true ↔
      granted = true ∧ record.rootBridgeStatus.isError = false ∧
        ∃ path, HasPath inventory record.toPciDeviceRecord path := by
  unfold pciProbeDevicePathBridgePathStatus
  rw [hvalid, hdisplay, ← rootBridge_iff hbuilt]
  cases record.rootBridgeStatus.isError || record.rootBridgeHandle == 0 || record.rootBridgeIo.getD 0 == 0 with
  | true => exact iff_of_false nofun nofun
  | false =>
      have hfits : decide (inventory.length > maxUintn / 8) = false := decide_eq_false (Nat.not_lt.mpr hroom)
      rw [hfits]
      cases granted with
      | false => exact iff_of_false nofun nofun
      | true =>
          simp only [Bool.not_true, Bool.or_self, Bool.false_eq_true, if_false, true_and]
          cases hpath : buildDevicePathBridgePath inventory record.toPciDeviceRecord with
          | error status =>
              refine iff_of_false nofun ?_
              rintro ⟨path, hhas⟩
              cases hpath.symm.trans hhas.built
          | ok path =>
              dsimp only
              rw [Bool.not_eq_true', crossCheck_isError]
              constructor
              · exact fun hagrees => ⟨path, hpath, hagrees⟩
              · rintro ⟨path', hhas⟩
                cases hpath.symm.trans hhas.built
                exact hhas.agrees

theorem printRootBridge_isError (hbuilt : record.Built) : (printRootBridge record).isError = false ↔
    record.rootBridgeStatus.isError = false ∧ record.rootAttributesStatus.isError = false := by
  unfold printRootBridge
  cases hgood : record.rootBridgeStatus.isError with
  | true =>
      rw [if_pos rfl, hgood]
      exact iff_of_false nofun nofun
  | false =>
      have hparent : record.rootBridgeIo.isNone = false := by
        have hparent := (hbuilt.rootBridge hgood).parent
        cases hio : record.rootBridgeIo with
        | none => simp [hio] at hparent
        | some parent => rfl
      rw [hparent]
      cases hattributes : record.rootAttributesStatus.isError with
      | true => simp [hattributes]
      | false => exact iff_of_true rfl ⟨rfl, rfl⟩

theorem printBridgePath_isError (hbuilt : record.Built) (hroom : inventory.length ≤ maxUintn / 8) :
    (printBridgePathForRecord granted inventory record).isError = false ↔
      recordLocationIsValid record.toPciDeviceRecord = true ∧ granted = true ∧
        record.rootBridgeStatus.isError = false ∧ record.rootAttributesStatus.isError = false ∧
        ∃ path, HasPath inventory record.toPciDeviceRecord path := by
  unfold printBridgePathForRecord
  cases recordLocationIsValid record.toPciDeviceRecord with
  | false => exact iff_of_false nofun nofun
  | true =>
      cases hdisplay : recordIsDisplay record.toPciDeviceRecord with
      | false =>
          refine iff_of_false nofun ?_
          rintro ⟨-, -, hgood, -⟩
          rw [(hbuilt.rootBridge hgood).display] at hdisplay
          cases hdisplay
      | true =>
          have hfits : decide (inventory.length > maxUintn / 8) = false := decide_eq_false (Nat.not_lt.mpr hroom)
          rw [hfits]
          cases granted with
          | false => exact iff_of_false nofun nofun
          | true =>
              simp only [Bool.not_true, Bool.or_self, Bool.false_eq_true, if_false, true_and]
              rw [deriveBridgePath]
              cases hpath : buildDevicePathBridgePath inventory record.toPciDeviceRecord with
              | ok path =>
                  dsimp only
                  split
                  case isTrue herror =>
                    refine iff_of_false (by simp [herror]) ?_
                    rintro ⟨-, -, path', hhas⟩
                    cases hpath.symm.trans hhas.built
                    rw [hhas.agrees] at herror
                    cases herror
                  case isFalse hagrees =>
                    have hhas : HasPath inventory record.toPciDeviceRecord path :=
                      ⟨hpath, crossCheck_isError.mp (Bool.not_eq_true _ ▸ hagrees)⟩
                    rw [Bool.not_true, if_neg Bool.false_ne_true, printRootBridge_isError hbuilt]
                    exact ⟨fun h => ⟨h.1, h.2, path, hhas⟩, fun h => ⟨h.1, h.2.1⟩⟩
              | error status =>
                  -- a path by bus numbers is reported as none
                  refine iff_of_false ?_ ?_
                  · cases hbus : buildBusBridgePath inventory record.toPciDeviceRecord with
                    | error status' => simp [buildBusBridgePath_isError hbus]
                    | ok path =>
                        dsimp only
                        split
                        case isTrue herror => simp [herror]
                        case isFalse => exact nofun
                  · rintro ⟨-, -, path', hhas⟩
                    cases hpath.symm.trans hhas.built

/-! ### All displays -/

/-- What a display's path looks like to each that asks for it. -/
structure PathVerdicts (records : List PciRecord) (record : PciRecord) : Prop where
  target : ∀ path, buildDynamicBridgePath (records.map PciRecord.toPciDeviceRecord) record.toPciDeviceRecord =
      .ok path ↔ HasPath (records.map PciRecord.toPciDeviceRecord) record.toPciDeviceRecord path
  probed : ∀ granted, (pciProbeDevicePathBridgePathStatus granted (records.map PciRecord.toPciDeviceRecord)
      record.toPciDeviceRecord).pathValidated = true ↔ granted = true ∧ record.rootBridgeStatus.isError = false ∧
        ∃ path, HasPath (records.map PciRecord.toPciDeviceRecord) record.toPciDeviceRecord path
  built : ∀ granted capacity bridges, pciBuildValidatedDevicePathBridgePath granted
      (records.map PciRecord.toPciDeviceRecord) record.toPciDeviceRecord capacity = .ok bridges ↔
        granted = true ∧ record.rootBridgeStatus.isError = false ∧
        ∃ path, HasPath (records.map PciRecord.toPciDeviceRecord) record.toPciDeviceRecord path ∧
          path.length ≤ capacity ∧ bridges = path.map ((records.map PciRecord.toPciDeviceRecord)[·]!)
  printed : ∀ granted, (printBridgePathForRecord granted (records.map PciRecord.toPciDeviceRecord)
      record).isError = false ↔ granted = true ∧ record.rootBridgeStatus.isError = false ∧
        record.rootAttributesStatus.isError = false ∧
        ∃ path, HasPath (records.map PciRecord.toPciDeviceRecord) record.toPciDeviceRecord path

theorem foldl_firstError {α : Type} {statusOf : α → EfiStatus} {items : List α} {overall : EfiStatus} :
    (items.foldl (fun overall item => firstError overall (statusOf item)) overall).isError = false ↔
      overall.isError = false ∧ ∀ item ∈ items, (statusOf item).isError = false := by
  induction items generalizing overall with
  | nil => simp
  | cons item items ih => simp [ih, and_assoc]

/-- The record that is found is a display with a valid location, which the arguments name. -/
theorem findDevice_spec {segment bus device function : Nat}
    (h : findDevice records segment bus device function = some record) :
    record ∈ records ∧ recordLocationIsValid record.toPciDeviceRecord = true ∧
      segment ≤ 0xFFFF ∧ bus ≤ 0xFF ∧ device ≤ 31 ∧ function ≤ 7 := by
  have hfound := List.find?_some h
  simp only [Bool.and_eq_true, beq_iff_eq] at hfound
  obtain ⟨⟨⟨⟨hvalid, rfl⟩, rfl⟩, rfl⟩, rfl⟩ := hfound
  have hlocation := hvalid
  simp only [recordLocationIsValid, Bool.and_eq_true, decide_eq_true_eq] at hlocation
  exact ⟨List.mem_of_find?_eq_some h, hvalid, hlocation.1.1.1.2, hlocation.1.1.2, hlocation.1.2, hlocation.2⟩

/-- The report on one display succeeds where the display is found and its own report succeeds. -/
theorem pciPrintSelectedBridgePath_isError (hbuilt : ∀ record ∈ records, record.Built)
    (hroom : (records.map PciRecord.toPciDeviceRecord).length ≤ maxUintn / 8) {segment bus device function : Nat} :
    (pciPrintSelectedBridgePath granted records segment bus device function).isError = false ↔
      ∃ record, findDevice records segment bus device function = some record ∧
        recordIsDisplay record.toPciDeviceRecord = true ∧ granted = true ∧
        record.rootBridgeStatus.isError = false ∧ record.rootAttributesStatus.isError = false ∧
        ∃ path, HasPath (records.map PciRecord.toPciDeviceRecord) record.toPciDeviceRecord path := by
  unfold pciPrintSelectedBridgePath
  cases hfound : findDevice records segment bus device function with
  | none =>
      dsimp only
      refine iff_of_false ?_ ?_
      · split <;> exact Bool.noConfusion
      · rintro ⟨record, hsome, -⟩
        cases hsome
  | some record =>
      obtain ⟨hmem, hvalid, hsegment, hbus, hdevice, hfunction⟩ := findDevice_spec hfound
      rw [if_neg (by omega)]
      dsimp only
      split
      case isTrue hother =>
        refine iff_of_false nofun ?_
        rintro ⟨record', hsame, hdisplay, -⟩
        cases hsame
        rw [hdisplay] at hother
        cases hother
      case isFalse hdisplay =>
        rw [printBridgePath_isError (hbuilt record hmem) hroom]
        simp only [Bool.not_eq_true', Bool.not_eq_false] at hdisplay
        constructor
        · rintro ⟨-, hgranted, hpath⟩
          exact ⟨record, rfl, hdisplay, hgranted, hpath⟩
        · rintro ⟨record', hsame, -, hgranted, hpath⟩
          cases hsame
          exact ⟨hvalid, hgranted, hpath⟩

/-- **One path, four verdicts**: what each asks besides the path itself is its allocation, the root bridge, room
for the bridges, or the root bridge's attributes. The report on all displays succeeds where that on each does, and
the report on one location succeeds where the first record found there is a display whose own report does. -/
theorem pathVerdicts_agree (hbuilt : ∀ record ∈ records, record.Built) (hroom : records.length ≤ maxUintn / 8) :
    (∀ record ∈ records, recordLocationIsValid record.toPciDeviceRecord = true →
      recordIsDisplay record.toPciDeviceRecord = true → PathVerdicts records record) ∧
    (∀ granted, (pciPrintAllDisplayBridgePaths granted records).isError = false ↔
      reportedDisplays granted records ≠ [] ∧
        ∀ display granted', (display, granted') ∈ reportedDisplays granted records →
        recordLocationIsValid display.toPciDeviceRecord = true ∧ granted' = true ∧
          display.rootBridgeStatus.isError = false ∧ display.rootAttributesStatus.isError = false ∧
          ∃ path, HasPath (records.map PciRecord.toPciDeviceRecord) display.toPciDeviceRecord path) ∧
    ∀ granted segment bus device function,
      (pciPrintSelectedBridgePath granted records segment bus device function).isError = false ↔
        ∃ record, findDevice records segment bus device function = some record ∧
          recordIsDisplay record.toPciDeviceRecord = true ∧ granted = true ∧
          record.rootBridgeStatus.isError = false ∧ record.rootAttributesStatus.isError = false ∧
          ∃ path, HasPath (records.map PciRecord.toPciDeviceRecord) record.toPciDeviceRecord path := by
  have hroom' : (records.map PciRecord.toPciDeviceRecord).length ≤ maxUintn / 8 := by
    rwa [List.length_map]
  refine ⟨?_, ?_, fun granted segment bus device function => pciPrintSelectedBridgePath_isError hbuilt hroom'⟩
  · intro record hmem hvalid hdisplay
    refine ⟨fun path => buildDynamicBridgePath_ok,
      fun granted => probePath_validated (hbuilt record hmem) hroom' hvalid hdisplay,
      fun granted capacity bridges => buildValidated_ok (hbuilt record hmem) hroom' hvalid hdisplay,
      fun granted => ?_⟩
    rw [printBridgePath_isError (hbuilt record hmem) hroom', and_iff_right hvalid]
  · intro granted
    have hmem : ∀ display granted', (display, granted') ∈ reportedDisplays granted records → display ∈ records := by
      intro display granted' hdisplay
      obtain ⟨⟨display', place⟩, hplace, heq⟩ := List.mem_map.mp hdisplay
      cases heq
      exact (List.mem_filter.mp (List.mem_of_getElem? (List.mem_zipIdx_iff_getElem?.mp hplace))).1
    unfold pciPrintAllDisplayBridgePaths
    dsimp only
    by_cases hnone : reportedDisplays granted records = []
    · rw [if_pos (by rw [hnone]; rfl)]
      exact iff_of_false nofun fun h => h.1 hnone
    · rw [if_neg (by simpa using hnone), foldl_firstError, and_iff_right hnone,
        and_iff_right (show EfiStatus.success.isError = false from rfl)]
      constructor
      · intro h display granted' hdisplay
        exact (printBridgePath_isError (hbuilt display (hmem display granted' hdisplay)) hroom').mp
          (h (display, granted') hdisplay)
      · rintro h ⟨display, granted'⟩ hdisplay
        exact (printBridgePath_isError (hbuilt display (hmem display granted' hdisplay)) hroom').mpr
          (h display granted' hdisplay)

/-- A display below the bridge. -/
def belowBridge : HandleAnswer := { sampleHandle with devicePath := plannedPath [1, 0] }

/-- The display's path is the one bridge. -/
theorem pathVerdicts_agree_one :
    PathVerdicts (buildRecords [plannedBridge, belowBridge]) (buildRecord belowBridge) ∧
      HasPath ((buildRecords [plannedBridge, belowBridge]).map PciRecord.toPciDeviceRecord)
        (buildRecord belowBridge).toPciDeviceRecord [0] := by
  have hmem : buildRecord belowBridge ∈ buildRecords [plannedBridge, belowBridge] := by
    rw [show buildRecords [plannedBridge, belowBridge] =
      [buildRecord plannedBridge, buildRecord belowBridge] from rfl]
    exact List.mem_cons_of_mem _ (List.mem_singleton_self _)
  refine ⟨?_, by decide +kernel, by decide +kernel⟩
  exact (pathVerdicts_agree (fun _ hrecord => built_of_mem_buildRecords hrecord) (by decide +kernel)).1 _ hmem
    (by decide +kernel) (by decide +kernel)

end CsmVgaSelector
