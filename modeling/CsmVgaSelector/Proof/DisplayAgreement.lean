import CsmVgaSelector.Proof.Displays
import CsmVgaSelector.Proof.PlanBuild

/-!
# The display that setup offers is the one that boots

Setup and boot read the inventory each on its own. Every display for which a plan can be built is one that setup
offers, and that its report finds in order; and a display that setup offers is refused by the boot only for what
setup does not look at: the segment, the other display, the number of its bridges and of its images, and how
large the image is.
-/

namespace CsmVgaSelector

variable {answers : DisplayAnswers} {core : NcvConfigCore} {records : List PciRecord}
  {record target : PciRecord} {discovery : VideoDiscovery} {exposed : Nat → PciRom} {inventory : PciInventory}

/-! ### The target of a configuration -/

variable {sources : PlanSources} {config : ProbeConfig} {state : RomState} {s : RouteState}

theorem OneImage.romAccepted {romImage : Nat} {rom : List UInt8} {selected : SelectedRom}
    (h : OneImage romImage rom record.endpoint selected) (hpciIo : record.pciIo ≠ 0)
    (hexposed : exposed record.pciIo = ⟨romImage, rom⟩) : record.romAccepted exposed = true := by
  have hparsed := h.validated
  have hpresent : ¬ (record.pciIo = 0 ∨ romImage = 0 ∨ rom.length = 0) := by
    rintro (hnone | hnone | hnone)
    · exact hpciIo hnone
    · rw [optionRomParseAndValidate, if_pos (.inl hnone)] at hparsed
      cases hparsed
    · rw [optionRomParseAndValidate, if_pos (.inr (.inl hnone))] at hparsed
      cases hparsed
  have hrom : record.parseRom exposed = some (.ok selected.romValidation) := by
    unfold PciRecord.parseRom
    rw [hexposed]
    exact (if_neg hpresent).trans (congrArg some hparsed)
  unfold PciRecord.romAccepted
  rw [hrom]
  exact h.only.1

end CsmVgaSelector
