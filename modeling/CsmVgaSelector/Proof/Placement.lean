import CsmVgaSelector.Rom.OptionRom
import CsmVgaSelector.Rom.Placement
import Mathlib.Data.Nat.Init

/-!
# The two readers of an option ROM

What the first reader checks of the image it selects covers all that the second one asks, each at its own
offsets, so that the second reader accepts the selected image and finds what its PCI data says
(`placement_agrees`).
-/

namespace CsmVgaSelector

variable {rom : List UInt8} {offset length : Nat}

/-! ### Slices -/

theorem getElem!_slice {index : Nat} (hindex : index < length) :
    ((rom.drop offset).take length)[index]! = rom[offset + index]! := by
  simp only [List.getElem!_eq_getElem?_getD]
  rw [List.getElem?_take_of_lt hindex, List.getElem?_drop]

theorem readLe16_slice {index : Nat} (hindex : index + 1 < length) :
    readLe16 ((rom.drop offset).take length) index = readLe16 rom (offset + index) := by
  rw [readLe16, readLe16, getElem!_slice (Nat.lt_of_succ_lt hindex), getElem!_slice hindex,
    Nat.add_assoc]

theorem readRomBytes_eq_some {bytes : List UInt8} (h : readRomBytes rom offset length = some bytes) :
    offset + length ≤ rom.length ∧ bytes = (rom.drop offset).take length := by
  unfold readRomBytes at h
  split at h
  case isTrue => cases h
  case isFalse hinside =>
    rw [not_or, Bool.not_eq_false, rangeIsInside, Bool.and_eq_true, decide_eq_true_eq,
      decide_eq_true_eq] at hinside
    exact ⟨by omega, (Option.some.inj h).symm⟩

theorem computeChecksum_eq_some {checksum : UInt8}
    (h : computeChecksum rom offset length = some checksum) :
    checksum = ((rom.drop offset).take length).foldl (· + ·) 0 := by
  unfold computeChecksum at h
  split at h
  case isTrue => cases h
  exact (Option.some.inj h).symm

/-- The second reader's sum is the first one's. -/
theorem placementSum_eq (hlength : length ≤ rom.length) :
    placementSum rom length = ((rom.take length).foldl (· + ·) (0 : UInt8)).toNat := by
  induction length with
  | zero => rfl
  | succ length ih =>
      have hlt : length < rom.length := hlength
      rw [placementSum, List.range_succ, List.foldl_append, ← placementSum, ih (Nat.le_of_lt hlt),
        List.take_succ_eq_append_getElem hlt, List.foldl_append]
      simp [hlt, UInt8.toNat_add]

theorem signature_of_readLe16 {index : Nat} (h : readLe16 rom index = 0xAA55) :
    rom[index]! = 0x55 ∧ rom[index + 1]! = 0xAA := by
  have hword := @readLe16_toNat rom index
  rw [h] at hword
  have hlow := rom[index]!.toNat_lt
  have hhigh := rom[index + 1]!.toNat_lt
  have hvalue : (0xAA55 : UInt16).toNat = 43605 := rfl
  constructor
  · apply UInt8.toNat_inj.mp
    show _ = 85
    omega
  · apply UInt8.toNat_inj.mp
    show _ = 170
    omega

/-! ### PCI data -/

/-- The fields that the second reader looks at are at their offsets. -/
structure PcirAt (image : List UInt8) (start : Nat) (pcir : PciDataStructure) : Prop where
  length : pcir.length = readLe16 image (start + 0x0A)
  revision : pcir.revision = image[start + 0x0C]!
  imageLength : pcir.imageLength = readLe16 image (start + 0x10)
  codeType : pcir.codeType = image[start + 0x14]!
  maxRuntimeImageLength : pcir.maxRuntimeImageLength = readLe16 image (start + 0x16)

theorem pcirAt_of_bytes {bytes : List UInt8} {start : Nat}
    (h : ∀ index < 0x18, bytes[index]! = rom[start + index]!) :
    PcirAt rom start (pciDataStructure bytes) := by
  have hword : ∀ index, index + 1 < 0x18 → readLe16 bytes index = readLe16 rom (start + index) := by
    intro index hindex
    rw [readLe16, readLe16, h index (Nat.lt_of_succ_lt hindex), h (index + 1) hindex, Nat.add_assoc]
  exact ⟨hword _ (by decide), h _ (by decide), hword _ (by decide), h _ (by decide),
    hword _ (by decide)⟩

theorem PcirAt.slice {start : Nat} {pcir : PciDataStructure} (h : PcirAt rom (offset + start) pcir)
    (hinside : start + 0x18 ≤ length) : PcirAt ((rom.drop offset).take length) start pcir := by
  obtain ⟨hlength, hrevision, himageLength, hcodeType, hruntime⟩ := h
  refine ⟨?_, ?_, ?_, ?_, ?_⟩
  · rw [hlength, readLe16_slice (by omega), Nat.add_assoc]
  · rw [hrevision, getElem!_slice (by omega), Nat.add_assoc]
  · rw [himageLength, readLe16_slice (by omega), Nat.add_assoc]
  · rw [hcodeType, getElem!_slice (by omega), Nat.add_assoc]
  · rw [hruntime, readLe16_slice (by omega), Nat.add_assoc]

/-- The PCI data in full agrees with its first part. -/
theorem readPcir_spec {imageOffset imageSize pcirOffset : Nat} {pcir22 pcir : PciDataStructure}
    {expectedDeviceId : UInt16} {listMatch : Bool} (hpcir : PcirAt rom pcirOffset pcir22)
    (h : readPcir rom imageOffset imageSize pcirOffset pcir22 expectedDeviceId =
      .ok (pcir, listMatch)) :
    PcirAt rom pcirOffset pcir ∧ (3 ≤ pcir.revision → 0x1C ≤ pcir.length.toNat) := by
  unfold readPcir at h
  split at h
  case isTrue hold =>
    cases h
    refine ⟨hpcir, fun hnew => ?_⟩
    exact absurd hold (UInt8.not_lt.mpr hnew)
  split at h
  case isTrue => cases h
  case isFalse hlong =>
    split at h
    case h_1 => cases h
    case h_2 bytes hbytes =>
      dsimp only at h
      split at h
      case h_1 => cases h
      split at h
      case isTrue => cases h
      cases h
      obtain ⟨-, hslice⟩ := readRomBytes_eq_some hbytes
      have hpcir' : PcirAt rom pcirOffset (pciDataStructure bytes) :=
        pcirAt_of_bytes fun index hindex => by
          rw [hslice]
          exact getElem!_slice (by omega)
      refine ⟨hpcir', fun _ => ?_⟩
      rw [hpcir'.length, ← hpcir.length]
      exact Nat.not_lt.mp hlong

/-! ### The selected image -/

/-- What the second reader asks of an image. -/
structure SoundImage (image : List UInt8) (pcirOffset : Nat) (pcir : PciDataStructure) : Prop where
  blocks : pcir.imageLength.toNat * 512 = image.length
  pcirAt : PcirAt image pcirOffset pcir
  header : image[0]! = 0x55 ∧ image[1]! = 0xAA ∧ (readLe16 image 0x18).toNat = pcirOffset
  aligned : 0x1C ≤ pcirOffset
  text : image[pcirOffset]! = 0x50 ∧ image[pcirOffset + 1]! = 0x43 ∧ image[pcirOffset + 2]! = 0x49 ∧
    image[pcirOffset + 3]! = 0x52
  long : 0x18 ≤ pcir.length.toNat ∧ (3 ≤ pcir.revision → 0x1C ≤ pcir.length.toNat)
  legacy : image[2]! ≠ 0 ∧ image[2]!.toNat * 512 ≤ image.length ∧
    pcirOffset + pcir.length.toNat ≤ image[2]!.toNat * 512
  runtime : 3 ≤ pcir.revision → pcir.maxRuntimeImageLength.toNat * 512 ≤ image[2]!.toNat * 512 ∧
    (pcir.maxRuntimeImageLength.toNat * 512 ≠ 0 →
      pcirOffset + pcir.length.toNat ≤ pcir.maxRuntimeImageLength.toNat * 512)
  checksum : image.foldl (· + ·) (0 : UInt8) = 0
  legacyChecksum : (image.take (image[2]!.toNat * 512)).foldl (· + ·) (0 : UInt8) = 0

theorem rangeIsInside_iff {size : Nat} :
    rangeIsInside size offset length = true ↔ offset + length ≤ size := by
  rw [rangeIsInside, Bool.and_eq_true, decide_eq_true_eq, decide_eq_true_eq]
  omega

theorem ite_status_isError {c : Prop} [Decidable c] {failed rest : EfiStatus} (hfailed : failed.isError = true) :
    (if c then failed else rest).isError = false ↔ ¬ c ∧ rest.isError = false := by
  by_cases hc : c
  · simp [hc, hfailed]
  · simp [hc]

theorem validatePcatLayout_iff {place legacySize : Nat} {pcir : PciDataStructure} :
    (validatePcatLayout place legacySize pcir).isError = false ↔
      place + pcir.length.toNat ≤ legacySize ∧
        (3 ≤ pcir.revision → pcir.maxRuntimeImageLength.toNat * optionRomBlockSize ≤ legacySize ∧
          (pcir.maxRuntimeImageLength ≠ 0 →
            place + pcir.length.toNat ≤ pcir.maxRuntimeImageLength.toNat * optionRomBlockSize)) := by
  have hzero : pcir.maxRuntimeImageLength.toNat * optionRomBlockSize ≠ 0 ↔ pcir.maxRuntimeImageLength ≠ 0 := by
    rw [ne_eq, ne_eq, ← UInt16.toNat_inj, optionRomBlockSize]
    change ¬ _ = 0 ↔ ¬ _ = 0
    omega
  unfold validatePcatLayout
  rw [ite_status_isError rfl, Bool.not_eq_false, rangeIsInside_iff]
  refine and_congr_right fun _ => ?_
  by_cases hold : pcir.revision < 3
  · rw [if_pos hold]
    exact iff_of_true rfl fun hnew => absurd hold (UInt8.not_lt.mpr hnew)
  rw [if_neg hold, imp_iff_right (UInt8.not_lt.mp hold)]
  dsimp only
  rw [ite_status_isError rfl, ite_status_isError rfl, gt_iff_lt, Nat.not_lt, not_and, Bool.not_eq_false,
    rangeIsInside_iff, hzero]
  exact and_congr_right fun _ => and_iff_left rfl

theorem logAndValidateLegacyHeader_spec {imageOffset imageSize legacySize : Nat} {valid : Bool}
    (h : logAndValidateLegacyHeader rom imageOffset imageSize = .ok (legacySize, valid)) :
    rom[imageOffset + 2]! ≠ 0 ∧ legacySize = rom[imageOffset + 2]!.toNat * 512 ∧
      legacySize ≤ imageSize ∧
      (valid = true → ((rom.drop imageOffset).take legacySize).foldl (· + ·) (0 : UInt8) = 0) := by
  unfold logAndValidateLegacyHeader at h
  split at h
  case h_1 => cases h
  case h_2 bytes hbytes =>
    obtain ⟨-, hslice⟩ := readRomBytes_eq_some hbytes
    have hsize512 : bytes[0]! = rom[imageOffset + 2]! := by
      rw [hslice]
      exact getElem!_slice (by decide)
    rw [hsize512] at h
    dsimp only at h
    split at h
    case isTrue => cases h
    case isFalse hnonzero =>
      split at h
      case isTrue => cases h
      case isFalse hfits =>
        rw [not_or] at hfits
        split at h
        case h_1 => cases h
        case h_2 checksum hchecksum =>
          cases h
          refine ⟨hnonzero, rfl, Nat.not_lt.mp hfits.1, fun hvalid => ?_⟩
          rw [← computeChecksum_eq_some hchecksum]
          exact beq_iff_eq.mp hvalid

theorem validatePcat_spec {imageOffset imageSize relativePcirOffset : Nat} {pcir : PciDataStructure}
    (h : validatePcat rom imageOffset imageSize relativePcirOffset pcir = .ok true)
    (htype : pcir.codeType = pciCodeTypePcatImage) :
    rom[imageOffset + 2]! ≠ 0 ∧ rom[imageOffset + 2]!.toNat * 512 ≤ imageSize ∧
      (validatePcatLayout relativePcirOffset (rom[imageOffset + 2]!.toNat * 512) pcir).isError = false ∧
      ((rom.drop imageOffset).take (rom[imageOffset + 2]!.toNat * 512)).foldl (· + ·) (0 : UInt8) =
        0 := by
  unfold validatePcat at h
  rw [if_neg (not_not.mpr htype)] at h
  split at h
  case h_1 => cases h
  case h_2 legacySize checksumValid hlegacy =>
    obtain ⟨hnonzero, rfl, hfits, hchecksum⟩ := logAndValidateLegacyHeader_spec hlegacy
    split at h
    case isTrue => cases h
    case isFalse hlayout =>
      rw [Bool.not_eq_true] at hlayout
      exact ⟨hnonzero, hfits, hlayout, hchecksum (Except.ok.inj h)⟩

/-- The fields of the bytes read at the PCI data are the ROM's. -/
theorem pcirAt_of_readRomBytes {bytes rest : List UInt8} {start : Nat}
    (h : readRomBytes rom start 0x18 = some bytes) : PcirAt rom start (pciDataStructure (bytes ++ rest)) := by
  obtain ⟨hinside, rfl⟩ := readRomBytes_eq_some h
  refine pcirAt_of_bytes fun index hindex => ?_
  have hlength : index < ((rom.drop start).take 0x18).length := by
    rw [List.length_take, List.length_drop]
    omega
  rw [← getElem!_slice hindex]
  simp only [List.getElem!_eq_getElem?_getD, List.getElem?_append_left hlength]

/-- What is read at the PCI data begins with the text of the PCI data, and so does the slice there. -/
theorem pcirText_of_readRomBytes {bytes : List UInt8} {start : Nat}
    (h : readRomBytes rom (offset + start) 0x18 = some bytes) (htext : bytes.take 4 = [0x50, 0x43, 0x49, 0x52])
    (hinside : start + 4 ≤ length) : ∀ index < 4,
    ((rom.drop offset).take length)[start + index]! = ([0x50, 0x43, 0x49, 0x52] : List UInt8)[index]! := by
  obtain ⟨-, rfl⟩ := readRomBytes_eq_some h
  intro index hindex
  rw [getElem!_slice (by omega), ← Nat.add_assoc, ← getElem!_slice (by omega : index < 0x18), ← htext]
  simp only [List.getElem!_eq_getElem?_getD, List.getElem?_take_of_lt hindex]

/-- What the first reader has looked at when it takes an image. -/
structure ImageRead (rom : List UInt8) (offset : Nat) (expectedDeviceId : UInt16) (image : RomImage)
    (start : Nat) (pcir22 : PciDataStructure) : Prop where
  place : (readLe16 rom (offset + 0x18)).toNat = start
  pcirOffset : image.pcirOffset = offset + start
  signature : readLe16 rom offset = 0xAA55
  aligned : 0x1A ≤ start ∧ start % 4 = 0
  text : ∃ bytes, readRomBytes rom (offset + start) 0x18 = some bytes ∧
    bytes.take 4 = [0x50, 0x43, 0x49, 0x52] ∧ pcir22 = pciDataStructure (bytes ++ [0, 0, 0, 0])
  size : image.size = pcir22.imageLength.toNat * 512
  inside : offset + image.size ≤ rom.length
  long : 0x18 ≤ pcir22.length.toNat ∧ start + pcir22.length.toNat ≤ image.size
  pcir : ∃ listMatch, readPcir rom offset image.size (offset + start) pcir22 expectedDeviceId =
    .ok (image.pcir, listMatch)
  checksums : image.checksumsValid = true → computeChecksum rom offset image.size = some 0 ∧
    validatePcat rom offset image.size start image.pcir = .ok true

theorem readImage_read {expectedDeviceId : UInt16} {image : RomImage}
    (h : readImage rom offset expectedDeviceId = .ok image) :
    ∃ start pcir22, ImageRead rom offset expectedDeviceId image start pcir22 := by
  unfold readImage at h
  split at h
  case h_1 => cases h
  case h_2 header hheader =>
    obtain ⟨-, hheaderSlice⟩ := readRomBytes_eq_some hheader
    have hpcirWord : readLe16 header 0x18 = readLe16 rom (offset + 0x18) := by
      rw [hheaderSlice]
      exact readLe16_slice (by decide)
    have hsignatureWord : readLe16 header 0 = readLe16 rom offset := by
      rw [hheaderSlice]
      exact readLe16_slice (by decide)
    rw [hpcirWord, hsignatureWord] at h
    dsimp only at h
    split at h
    case isTrue => cases h
    case isFalse hsignature =>
    split at h
    case isTrue => cases h
    case isFalse halignment =>
    split at h
    case h_1 => cases h
    case h_2 bytes hbytes =>
    split at h
    case isTrue => cases h
    case isFalse htext =>
    split at h
    case isTrue => cases h
    case isFalse hnonzero =>
    split at h
    case isTrue => cases h
    case isFalse hinside =>
    split at h
    case isTrue => cases h
    case isFalse hlength =>
    split at h
    case h_1 => cases h
    case h_2 pcir listMatch hpcir =>
    split at h
    case isTrue => cases h
    split at h
    case h_1 => cases h
    case h_2 imageChecksum hchecksum =>
    split at h
    case h_1 => cases h
    case h_2 legacyChecksumValid hpcat =>
    cases h
    rw [not_or, Nat.not_lt, not_not] at halignment
    rw [Bool.not_eq_false, rangeIsInside_iff] at hinside
    rw [not_or, Nat.not_lt, Bool.not_eq_false, rangeIsInside_iff] at hlength
    refine ⟨_, _, rfl, rfl, not_not.mp hsignature, halignment, ⟨bytes, hbytes, not_not.mp htext, rfl⟩, rfl, hinside,
      hlength, ⟨listMatch, hpcir⟩, fun hchecksums => ?_⟩
    rw [Bool.and_eq_true, beq_iff_eq] at hchecksums
    obtain ⟨rfl, rfl⟩ := hchecksums
    exact ⟨hchecksum, hpcat⟩

/-- The slice of the image has its size. -/
theorem ImageRead.length_slice {expectedDeviceId : UInt16} {image : RomImage} {start : Nat} {pcir22 : PciDataStructure}
    (h : ImageRead rom offset expectedDeviceId image start pcir22) :
    ((rom.drop offset).take image.size).length = image.size := by
  have hinside := h.inside
  rw [List.length_take, List.length_drop]
  omega

/-- The PCI data that the image carries agrees with what was read of it first. -/
theorem ImageRead.pcirAt {expectedDeviceId : UInt16} {image : RomImage} {start : Nat} {pcir22 : PciDataStructure}
    (h : ImageRead rom offset expectedDeviceId image start pcir22) :
    PcirAt rom (offset + start) image.pcir ∧ image.pcir.imageLength = pcir22.imageLength ∧
      image.pcir.length = pcir22.length ∧ (3 ≤ image.pcir.revision → 0x1C ≤ image.pcir.length.toNat) := by
  obtain ⟨bytes, hbytes, -, hpcir22⟩ := h.text
  have hfirst : PcirAt rom (offset + start) pcir22 := hpcir22 ▸ pcirAt_of_readRomBytes hbytes
  obtain ⟨listMatch, hpcir⟩ := h.pcir
  obtain ⟨hfull, hlong⟩ := readPcir_spec hfirst hpcir
  exact ⟨hfull, by rw [hfull.imageLength, hfirst.imageLength], by rw [hfull.length, hfirst.length], hlong⟩

/-- A legacy image of the target whose checksums hold is one that the second reader accepts. -/
theorem readImage_spec {expectedDeviceId : UInt16} {image : RomImage}
    (h : readImage rom offset expectedDeviceId = .ok image)
    (htype : image.pcir.codeType = pciCodeTypePcatImage) (hchecksums : image.checksumsValid = true) :
    offset + image.size ≤ rom.length ∧ PcirAt rom image.pcirOffset image.pcir ∧
      SoundImage ((rom.drop offset).take image.size) (image.pcirOffset - offset) image.pcir := by
  obtain ⟨start, pcir22, hread⟩ := readImage_read h
  obtain ⟨hpcirAt, hsame, hsameLength, hlong⟩ := hread.pcirAt
  obtain ⟨haligned, hfours⟩ := hread.aligned
  obtain ⟨hpcirLong, hpcirFits⟩ := hread.long
  obtain ⟨bytes, hbytes, htext, -⟩ := hread.text
  obtain ⟨hchecksum, hpcat⟩ := hread.checksums hchecksums
  obtain ⟨hlegacy, hlegacyFits, hlayout, hlegacyChecksum⟩ := validatePcat_spec hpcat htype
  obtain ⟨hcontained, hruntime⟩ := validatePcatLayout_iff.mp hlayout
  rw [optionRomBlockSize] at hruntime
  have hfirst : ∀ index < 0x1C, ((rom.drop offset).take image.size)[index]! = rom[offset + index]! := by
    intro index hindex
    exact getElem!_slice (by omega)
  have htwo : ((rom.drop offset).take image.size)[2]! = rom[offset + 2]! := hfirst 2 (by decide)
  rw [hread.pcirOffset, Nat.add_sub_cancel_left]
  refine ⟨hread.inside, hpcirAt, ?_⟩
  constructor
  case blocks => rw [hread.length_slice, hread.size, hsame]
  case pcirAt => exact hpcirAt.slice (by omega)
  case header =>
    obtain ⟨hlow, hhigh⟩ := signature_of_readLe16 hread.signature
    refine ⟨(hfirst 0 (by decide)).trans hlow, (hfirst 1 (by decide)).trans hhigh, ?_⟩
    rw [readLe16_slice (by omega), hread.place]
  case aligned => omega
  case text =>
    have hroom : start + 4 ≤ image.size := by omega
    have hat := pcirText_of_readRomBytes hbytes htext hroom
    exact ⟨hat 0 (by decide), hat 1 (by decide), hat 2 (by decide), hat 3 (by decide)⟩
  case long => exact ⟨hsameLength ▸ hpcirLong, hlong⟩
  case legacy =>
    rw [htwo, hread.length_slice]
    exact ⟨hlegacy, hlegacyFits, hcontained⟩
  case runtime =>
    rw [htwo]
    intro hnew
    obtain ⟨hfits, hcontains⟩ := hruntime hnew
    refine ⟨hfits, fun hsize => hcontains fun hzero => hsize ?_⟩
    rw [hzero]
    rfl
  case checksum => rw [← computeChecksum_eq_some hchecksum]
  case legacyChecksum =>
    rw [htwo, List.take_take, Nat.min_eq_left hlegacyFits]
    exact hlegacyChecksum

/-! ### The walk -/

/-- The findings of the walk are those of a legacy image whose checksums hold. -/
def RomWalk.Sound (rom : List UInt8) (expectedDeviceId : UInt16) (walk : RomWalk) : Prop :=
  walk.validation.matchingLegacyImageFound = true →
    ∃ image,
      readImage rom walk.validation.matchingLegacyImageOffset expectedDeviceId = .ok image ∧
      image.pcir.codeType = pciCodeTypePcatImage ∧ image.checksumsValid = true ∧
      image.size = walk.validation.matchingLegacyImageSize ∧
      image.pcirOffset = walk.validation.matchingLegacyPcirOffset ∧
      image.pcir.revision = walk.validation.matchingLegacyPcirRevision

theorem RomWalk.Sound.see {walk : RomWalk} {expectedVendorId expectedDeviceId : UInt16}
    {image : RomImage} (hwalk : walk.Sound rom expectedDeviceId)
    (himage : readImage rom offset expectedDeviceId = .ok image) :
    (walk.see offset image expectedVendorId).Sound rom expectedDeviceId := by
  unfold RomWalk.see
  dsimp only
  split
  case isTrue hlegacy =>
    rw [Bool.and_eq_true, beq_iff_eq] at hlegacy
    split
    case isTrue => exact hwalk
    case isFalse hchecksums =>
      rw [Bool.not_eq_true, Bool.not_eq_false'] at hchecksums
      intro hfound
      dsimp only at hfound ⊢
      split
      case isTrue hold => exact hwalk hold
      case isFalse => exact ⟨image, himage, hlegacy.1, hchecksums, rfl, rfl, rfl⟩
  case isFalse =>
    split
    case isTrue => exact hwalk
    case isFalse => exact hwalk

theorem RomWalk.Sound.walkImages {expectedVendorId expectedDeviceId : UInt16} {images : Nat}
    {walk end_ : RomWalk} (hwalk : walk.Sound rom expectedDeviceId)
    (h : walkImages rom expectedVendorId expectedDeviceId images offset walk = .ok end_) :
    end_.Sound rom expectedDeviceId := by
  induction images generalizing offset walk with
  | zero =>
      cases h
      exact hwalk
  | succ images ih =>
      rw [CsmVgaSelector.walkImages] at h
      split at h
      case h_1 => cases h
      case h_2 image himage =>
        have hseen : (walk.see offset image expectedVendorId).Sound rom expectedDeviceId :=
          hwalk.see himage
        dsimp only at h
        split at h
        case isTrue => cases h
        split at h
        case isTrue =>
          split at h
          case isTrue => cases h
          case isFalse =>
            cases h
            exact hseen
        case isFalse =>
          split at h
          case isTrue => cases h
          case isFalse => exact ih hseen h

/-! ### The second reader -/

theorem ncvRomPlacementReadFacts_sound {image : List UInt8} {pcirOffset : Nat}
    {pcir : PciDataStructure} (h : SoundImage image pcirOffset pcir)
    (htype : pcir.codeType = pciCodeTypePcatImage) (hsize : image.length ≤ 65536) :
    ncvRomPlacementReadFacts image =
      { valid := 1
        revision := pcir.revision.toNat
        imageBytes := image.length
        maxRuntimeBytes :=
          if 3 ≤ pcir.revision then pcir.maxRuntimeImageLength.toNat * 512 else 0 } := by
  obtain ⟨hblocks, ⟨hlength, hrevision, himageLength, hcodeType, hmaxRuntime⟩,
    ⟨hlow, hhigh, hpcir⟩, haligned, ⟨hp, hc, hi, hr⟩, ⟨hlong, hlong3⟩, ⟨hlegacy, hfits, hcontained⟩,
    hruntime, hchecksum, hlegacyChecksum⟩ := h
  have hlegacy' : image[2]!.toNat ≠ 0 := fun hzero => hlegacy (UInt8.toNat_inj.mp hzero)
  have hsum : placementSum image image.length = 0 := by
    rw [placementSum_eq (Nat.le_refl _), List.take_length, hchecksum]
    rfl
  have hinitSum : placementSum image (image[2]!.toNat * 512) = 0 := by
    rw [placementSum_eq hfits, hlegacyChecksum]
    rfl
  have hnew : 3 ≤ pcir.revision ↔ 3 ≤ pcir.revision.toNat := UInt8.le_iff_toNat_le
  unfold ncvRomPlacementReadFacts
  rw [if_neg (by
    rw [hlow, hhigh]
    simp only [ne_eq, not_true_eq_false, or_false]
    omega)]
  dsimp only
  rw [hpcir, if_neg (by omega), hp, hc, hi, hr, ← hcodeType, htype, ← himageLength, if_neg (by
    simp only [ne_eq, not_true_eq_false, not_false_eq_true, hblocks, or_false,
      pciCodeTypePcatImage]),
    ← hlength, ← hrevision, if_neg (by
      rw [hnew] at hlong3
      omega), if_neg (not_not.mpr hsum), if_neg (not_not.mpr hinitSum), ← hmaxRuntime]
  rcases Nat.lt_or_ge pcir.revision.toNat 3 with hold | hnew3
  · rw [if_pos hold, if_neg (fun h3 => absurd (hnew.mp h3) (Nat.not_le.mpr hold))]
  · obtain ⟨hruntimeFits, hruntimeLong⟩ := hruntime (hnew.mpr hnew3)
    rw [if_neg (Nat.not_lt.mpr hnew3), if_neg (by omega), if_pos (hnew.mpr hnew3)]

/-- The exposed ROM that the first reader accepts has, in the image it selects, the placement facts that
its PCI data says. -/
theorem placement_agrees (address : Nat) (expectedSize : Nat)
    (expectedVendorId expectedDeviceId : UInt16) (rom : List UInt8) (validation : OptionRomValidation)
    (h : optionRomParseAndValidate address rom expectedSize expectedVendorId expectedDeviceId =
      .ok validation)
    (hsize : validation.matchingLegacyImageSize ≤ 65536) :
    ncvRomPlacementReadFacts
        ((rom.drop validation.matchingLegacyImageOffset).take validation.matchingLegacyImageSize) =
      { valid := 1
        revision := validation.matchingLegacyPcirRevision.toNat
        imageBytes := validation.matchingLegacyImageSize
        maxRuntimeBytes :=
          if 3 ≤ validation.matchingLegacyPcirRevision then
            512 * (readLe16 rom (validation.matchingLegacyPcirOffset + 0x16)).toNat
          else 0 } := by
  unfold optionRomParseAndValidate at h
  iterate 3
    split at h
    case isTrue => cases h
  split at h
  case h_1 => cases h
  case h_2 walk hwalk =>
    have hsound : walk.Sound rom expectedDeviceId :=
      RomWalk.Sound.walkImages (fun hfound => absurd hfound Bool.false_ne_true) hwalk
    split at h
    case isTrue => cases h
    split at h
    case isTrue => grind
    case isFalse hfound =>
      cases h
      rw [Bool.not_eq_true, Bool.not_eq_false'] at hfound
      obtain ⟨image, himage, htype, hchecksums, himageSize, hpcirOffset, hrevision⟩ := hsound hfound
      obtain ⟨hinside, hpcirAt, hsoundImage⟩ := readImage_spec himage htype hchecksums
      rw [← himageSize, ← hpcirOffset, ← hrevision]
      rw [← himageSize] at hsize
      generalize walk.validation.matchingLegacyImageOffset = offset at *
      have hlength : ((rom.drop offset).take image.size).length = image.size := by
        rw [List.length_take, List.length_drop]
        omega
      rw [ncvRomPlacementReadFacts_sound hsoundImage htype (by rwa [hlength]), hlength,
        hpcirAt.maxRuntimeImageLength, Nat.mul_comm]

/-- One legacy image of one block, with PCI data of revision 3 that keeps the block at run time. -/
def oneBlockRom : List UInt8 :=
  [0x55, 0xAA, 0x01] ++ List.replicate 21 0 ++ [0x1C, 0x00, 0x00, 0x00] ++
    [0x50, 0x43, 0x49, 0x52, 0xDE, 0x10, 0x34, 0x12, 0x00, 0x00, 0x1C, 0x00, 0x03, 0x00, 0x00, 0x03,
      0x01, 0x00, 0x00, 0x00, 0x00, 0x80, 0x01, 0x00, 0x00, 0x00, 0x00, 0x00] ++
    List.replicate 455 0 ++ [0xDE]

theorem placement_agrees_oneBlock :
    ncvRomPlacementReadFacts ((oneBlockRom.drop 0).take 512) =
      { valid := 1, revision := 3, imageBytes := 512, maxRuntimeBytes := 512 } :=
  placement_agrees 0xF0000000 512 0x10DE 0x1234 oneBlockRom
    { imageCount := 1
      matchingLegacyCandidateCount := 1
      matchingLegacyImageOffset := 0
      matchingLegacyImageSize := 512
      matchingLegacyPcirOffset := 0x1C
      matchingLegacyPcirRevision := 3
      finalIndicatorSeen := true
      matchingLegacyImageFound := true }
    (by decide +kernel) (by decide)

end CsmVgaSelector
