import CsmVgaSelector.Proof.Endpoints
import CsmVgaSelector.Proof.PathStatus
import CsmVgaSelector.Proof.RomGrammar
import CsmVgaSelector.Setup.Displays

/-!
# Which displays setup offers

Setup lists the displays of the inventory one by one, so its list is the inventory's displays as far as there is
room. A display on the list is eligible for what the boot will ask of it: that it does not own legacy VGA, that
its bridge path can be built, and that its ROM has a legacy image.
-/

namespace CsmVgaSelector

variable {answers : DisplayAnswers} {core : NcvConfigCore} {inventory : PciInventory}
  {records : List PciRecord} {record : PciRecord} {discovery : VideoDiscovery} {exposed : Nat → PciRom}
  {candidate : NcvDisplayCandidate} {granted : Bool}

/-! ### The collection -/

/-- The records of displays, each with its place in the inventory. -/
def displayPlaces (records : List PciRecord) : List (PciRecord × Nat) :=
  records.zipIdx.filter fun place => recordIsDisplay place.1.toPciDeviceRecord

def DisplayAnswers.collectedAt (answers : DisplayAnswers) (inventory : PciInventory) (place : PciRecord × Nat) :
    NcvDisplayCandidate :=
  place.1.collected answers.exposed (answers.granted place.2) inventory

theorem foldl_append {candidates : List NcvDisplayCandidate} :
    candidates.foldl NcvDisplayCollection.append {} =
      { items := candidates.take maxDisplayCandidates
        observedCount := candidates.length
        overflow := decide (maxDisplayCandidates < candidates.length) } := by
  induction candidates using List.reverseRecOn with
  | nil => rfl
  | append_singleton candidates candidate ih =>
      rw [List.foldl_append, ih, List.foldl_cons, List.foldl_nil, NcvDisplayCollection.append]
      simp only [List.length_take, List.length_append, List.length_singleton]
      by_cases hfull : maxDisplayCandidates ≤ candidates.length
      · rw [if_pos (by omega), List.take_append_of_le_length hfull, decide_eq_true (by omega)]
      · rw [if_neg (by omega), List.take_of_length_le (by omega), List.take_of_length_le (by simp; omega),
          decide_eq_false (by omega), decide_eq_false (by omega)]

theorem seeTarget_displays : (discovery.seeTarget exposed core record).displays = discovery.displays := by
  unfold VideoDiscovery.seeTarget
  split
  case isTrue => rfl
  case isFalse => split <;> rfl

theorem foldl_seeRecord_displays {places : List (PciRecord × Nat)} :
    (places.foldl (fun discovery place =>
      discovery.seeRecord answers core inventory place.1 place.2) discovery).displays =
      ((places.filter fun place => recordIsDisplay place.1.toPciDeviceRecord).map
        (answers.collectedAt inventory)).foldl NcvDisplayCollection.append discovery.displays := by
  induction places generalizing discovery with
  | nil => rfl
  | cons place places ih =>
      rw [List.foldl_cons, ih, List.filter_cons]
      unfold VideoDiscovery.seeRecord
      cases recordIsDisplay place.1.toPciDeviceRecord with
      | false => rfl
      | true =>
          simp only [Bool.not_true, Bool.false_eq_true, if_false, if_true, List.map_cons, List.foldl_cons,
            seeTarget_displays]
          rfl

theorem reportRomCandidates_displays : (reportRomCandidates answers core records).displays =
    { items := ((displayPlaces records).map
        (answers.collectedAt (records.map PciRecord.toPciDeviceRecord))).take maxDisplayCandidates
      observedCount := (displayPlaces records).length
      overflow := decide (maxDisplayCandidates < (displayPlaces records).length) } := by
  have hfold := @foldl_seeRecord_displays answers core (records.map PciRecord.toPciDeviceRecord) {} records.zipIdx
  rw [foldl_append, List.length_map] at hfold
  exact hfold

/-! ### Eligible -/

/-- What setup asks of a display, apart from the allocation for its path. -/
structure Offered (exposed : Nat → PciRom) (records : List PciRecord) (record : PciRecord) : Prop where
  location : recordLocationIsValid record.toPciDeviceRecord = true
  display : recordIsDisplay record.toPciDeviceRecord = true
  apart : record.ownsLegacyVga = false
  rom : record.romAccepted exposed = true
  rootBridge : record.rootBridgeStatus.isError = false
  path : ∃ path, HasPath (records.map PciRecord.toPciDeviceRecord) record.toPciDeviceRecord path

theorem probe_discovered {selected : PciDeviceRecord} :
    (pciProbeDevicePathBridgePathStatus granted inventory selected).pathValidated = true →
      (pciProbeDevicePathBridgePathStatus granted inventory selected).pathDiscovered = true := by
  unfold pciProbeDevicePathBridgePathStatus
  iterate 3
    split
    case isTrue => exact nofun
  split
  case h_1 => exact nofun
  case h_2 => exact fun _ => rfl

theorem ownsLegacyVga_iff (hdisplay : recordIsDisplay record.toPciDeviceRecord = true) :
    record.ownsLegacyVga = (!record.currentAttributesStatus.isError && record.hasLegacyVgaAttributes) := by
  rw [PciRecord.ownsLegacyVga, hdisplay, Bool.true_and]
  rfl

theorem collected_eligible (hbuilt : record.Built) (hroom : records.length ≤ maxUintn / 8)
    (hdisplay : recordIsDisplay record.toPciDeviceRecord = true) :
    displayEligible (record.collected exposed granted (records.map PciRecord.toPciDeviceRecord)) = true ↔
      granted = true ∧ Offered exposed records record := by
  have hroom' : (records.map PciRecord.toPciDeviceRecord).length ≤ maxUintn / 8 := by
    rwa [List.length_map]
  unfold displayEligible PciRecord.collected
  cases hvalid : recordLocationIsValid record.toPciDeviceRecord with
  | false => exact iff_of_false nofun fun h => by cases hvalid ▸ h.2.location
  | true =>
      have hprobe : record.probePath granted (records.map PciRecord.toPciDeviceRecord) =
          pciProbeDevicePathBridgePathStatus granted (records.map PciRecord.toPciDeviceRecord)
            record.toPciDeviceRecord := by
        rw [PciRecord.probePath, if_pos hvalid]
      have howner : (!(!record.currentAttributesStatus.isError &&
          (record.currentAttributesStatus.isError || record.hasLegacyVgaAttributes))) =
          !record.ownsLegacyVga := by
        rw [ownsLegacyVga_iff hdisplay]
        cases record.currentAttributesStatus.isError <;> rfl
      simp only [howner, hprobe, Bool.and_eq_true, Bool.not_eq_true', true_and]
      constructor
      · rintro ⟨⟨⟨hapart, hrom⟩, -⟩, hvalidated⟩
        obtain ⟨hgranted, hgood, hpath⟩ := (probePath_validated (hbuilt) hroom' hvalid hdisplay).mp hvalidated
        exact ⟨hgranted, hvalid, hdisplay, hapart, hrom, hgood, hpath⟩
      · rintro ⟨hgranted, hoffered⟩
        have hvalidated := (probePath_validated hbuilt hroom' hvalid hdisplay).mpr
          ⟨hgranted, hoffered.rootBridge, hoffered.path⟩
        exact ⟨⟨⟨hoffered.apart, hoffered.rom⟩, probe_discovered hvalidated⟩, hvalidated⟩

/-- **The displays that setup offers**: of all displays, in the order of the inventory, as many as there is room
for; each is where its record is, and is eligible for what the boot itself will ask of it. -/
theorem displays_offered (hbuilt : ∀ record ∈ records, record.Built) (hroom : records.length ≤ maxUintn / 8) :
    ((reportRomCandidates answers core records).displays.overflow = true ↔
      maxDisplayCandidates < (records.filter fun record => recordIsDisplay record.toPciDeviceRecord).length) ∧
    (reportRomCandidates answers core records).displays.items.length =
      min maxDisplayCandidates (records.filter fun record => recordIsDisplay record.toPciDeviceRecord).length ∧
    ∀ (place : Nat) (candidate : NcvDisplayCandidate), (reportRomCandidates answers core records).displays.items[place]? = some candidate →
      ∃ (record : PciRecord) (index : Nat), (displayPlaces records)[place]? = some (record, index) ∧
        records[index]? = some record ∧
        (candidate.addressValid = true → candidate.address = record.address) ∧
        (displayEligible candidate = true ↔ answers.granted index = true ∧
          Offered answers.exposed records record) := by
  have hlength : (displayPlaces records).length =
      (records.filter fun record => recordIsDisplay record.toPciDeviceRecord).length := by
    have hsame : (records.zipIdx.map Prod.fst).filter (fun record => recordIsDisplay record.toPciDeviceRecord) =
        (displayPlaces records).map Prod.fst := List.filter_map
    rw [← List.length_map Prod.fst, ← hsame, List.zipIdx_map_fst]
  rw [reportRomCandidates_displays]
  refine ⟨by rw [← hlength]; exact decide_eq_true_iff, by simp [hlength], fun place candidate hplace => ?_⟩
  rw [List.getElem?_take] at hplace
  split at hplace
  case isFalse => cases hplace
  case isTrue hlt =>
    rw [List.getElem?_map, Option.map_eq_some_iff] at hplace
    obtain ⟨⟨record, index⟩, hat, rfl⟩ := hplace
    obtain ⟨hmem, hdisplay⟩ := List.mem_filter.mp (List.mem_of_getElem? hat)
    have hindex := List.mem_zipIdx_iff_getElem?.mp hmem
    refine ⟨record, index, hat, hindex, fun hvalid => ?_,
      collected_eligible (hbuilt record (List.mem_of_getElem? hindex)) hroom hdisplay⟩
    exact if_pos hvalid

/-- Two displays without a ROM. -/
theorem displays_offered_two :
    (reportRomCandidates { exposed := fun _ => ⟨0, []⟩, granted := fun _ => true } sampleCore
      (buildRecords [vgaDisplay 0 0x18, vgaDisplay 1 0])).displays.items.length = 2 := by
  rw [(displays_offered (fun _ hrecord => built_of_mem_buildRecords hrecord) (by decide +kernel)).2.1]
  decide +kernel

end CsmVgaSelector
