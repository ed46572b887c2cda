import CsmVgaSelector.Proof.Placement

/-!
# The grammar of option ROMs

An exposed ROM is accepted exactly when it splits into well-formed images, of which the last and no other is
marked as such, and one of them is a legacy image for the target whose two checksums hold.
-/

namespace CsmVgaSelector

section

variable {rom : List UInt8} {start imageBytes place count entries index : Nat} {device : UInt16}

/-! ### The grammar -/

/-- Where the image has its PCI data, counted from its start. -/
def pcirPlace (rom : List UInt8) (start : Nat) : Nat := (readLe16 rom (start + 0x18)).toNat

def pcirOf (rom : List UInt8) (start : Nat) : PciDataStructure :=
  pciDataStructure (rom.drop (start + pcirPlace rom start))

def sizeOfImage (rom : List UInt8) (start : Nat) : Nat :=
  (pcirOf rom start).imageLength.toNat * optionRomBlockSize

/-- The initialization size in the header of a legacy image. -/
def sizeOfLegacy (rom : List UInt8) (start : Nat) : Nat := rom[start + 2]!.toNat * optionRomBlockSize

def byteSum (rom : List UInt8) (start bytes : Nat) : UInt8 :=
  ((rom.drop start).take bytes).foldl (· + ·) 0

/-- So many entries from this place on, and a terminator before the end of the image. -/
structure DeviceListAt (rom : List UInt8) (place imageEnd count : Nat) : Prop where
  inside : place + 2 * count + 2 ≤ imageEnd
  entries : ∀ index < count, readLe16 rom (place + 2 * index) ≠ 0
  terminator : readLe16 rom (place + 2 * count) = 0

def deviceListPlace (rom : List UInt8) (start : Nat) : Nat :=
  start + pcirPlace rom start + (pcirOf rom start).deviceListOffset.toNat

/-- The image has a device list, and it names the device. -/
def ListNames (rom : List UInt8) (start : Nat) (device : UInt16) : Prop :=
  (pcirOf rom start).deviceListOffset ≠ 0 ∧
    ∃ count, DeviceListAt rom (deviceListPlace rom start) (start + sizeOfImage rom start) count ∧
      ∃ index < count, readLe16 rom (deviceListPlace rom start + 2 * index) = device

/-- A Configuration Utility header with its code in an image of this size. -/
structure ConfigUtilityAt (rom : List UInt8) (start imageBytes place : Nat) : Prop where
  header : place + optionRomConfigHeaderSize ≤ imageBytes
  blocks : rom[start + place]! ≠ 0 ∧
    place + rom[start + place]!.toNat * optionRomBlockSize ≤ imageBytes
  revision : rom[start + place + 41]! = 1
  name : ∃ length < optionRomConfigNameSize, rom[start + place + 1 + length]! = 0 ∧
    ∀ index < length, 0x20 ≤ rom[start + place + 1 + index]! ∧ rom[start + place + 1 + index]! ≤ 0x7E

/-- PCI data of revision 3 and above. -/
structure ExtendedPcir (rom : List UInt8) (start : Nat) : Prop where
  length : 0x1C ≤ (pcirOf rom start).length.toNat
  list : (pcirOf rom start).deviceListOffset ≠ 0 →
    (pcirOf rom start).deviceListOffset.toNat % 2 = 0 ∧
      (pcirOf rom start).length.toNat ≤ (pcirOf rom start).deviceListOffset.toNat ∧
      ∃ count, DeviceListAt rom (deviceListPlace rom start) (start + sizeOfImage rom start) count
  runtime : (pcirOf rom start).maxRuntimeImageLength ≤ (pcirOf rom start).imageLength
  config : (pcirOf rom start).configUtilityCodeHeaderOffset ≠ 0 →
    ConfigUtilityAt rom start (sizeOfImage rom start)
      (pcirOf rom start).configUtilityCodeHeaderOffset.toNat
  clp : (pcirOf rom start).dmtfClpEntryPointOffset ≠ 0 →
    (pcirOf rom start).dmtfClpEntryPointOffset.toNat < sizeOfImage rom start

/-- The initialization size of a legacy image, and its run-time size, contain its PCI data. -/
structure LegacyPart (rom : List UInt8) (start : Nat) : Prop where
  nonzero : rom[start + 2]! ≠ 0
  fits : sizeOfLegacy rom start ≤ sizeOfImage rom start
  contains_ : pcirPlace rom start + (pcirOf rom start).length.toNat ≤ sizeOfLegacy rom start
  runtime : 3 ≤ (pcirOf rom start).revision →
    (pcirOf rom start).maxRuntimeImageLength.toNat * optionRomBlockSize ≤ sizeOfLegacy rom start ∧
      ((pcirOf rom start).maxRuntimeImageLength ≠ 0 →
        pcirPlace rom start + (pcirOf rom start).length.toNat ≤
          (pcirOf rom start).maxRuntimeImageLength.toNat * optionRomBlockSize)

/-- A well-formed image. -/
structure ImageAt (rom : List UInt8) (start : Nat) : Prop where
  header : rom[start]! = 0x55 ∧ rom[start + 1]! = 0xAA
  aligned : 0x1A ≤ pcirPlace rom start ∧ pcirPlace rom start % 4 = 0
  text : (rom.drop (start + pcirPlace rom start)).take 4 = [0x50, 0x43, 0x49, 0x52]
  blocks : (pcirOf rom start).imageLength ≠ 0
  inside : start + sizeOfImage rom start ≤ rom.length
  pcir : 0x18 ≤ (pcirOf rom start).length.toNat ∧
    pcirPlace rom start + (pcirOf rom start).length.toNat ≤ sizeOfImage rom start
  reserved : (pcirOf rom start).indicator &&& optionRomIndicatorReserved = 0
  extended : 3 ≤ (pcirOf rom start).revision → ExtendedPcir rom start
  legacy : (pcirOf rom start).codeType = pciCodeTypePcatImage → LegacyPart rom start

def MarkedLast (rom : List UInt8) (start : Nat) : Prop :=
  (pcirOf rom start).indicator &&& optionRomLastImage ≠ 0

/-- Images that follow each other from this place on, the last one up to the end of the ROM. -/
inductive RomChain (rom : List UInt8) : Nat → List Nat → Prop where
  | last {start : Nat} (himage : ImageAt rom start) (hlast : MarkedLast rom start)
      (hend : start + sizeOfImage rom start = rom.length) : RomChain rom start [start]
  | next {start : Nat} {starts : List Nat} (himage : ImageAt rom start) (hnot : ¬ MarkedLast rom start)
      (hrest : RomChain rom (start + sizeOfImage rom start) starts) : RomChain rom start (start :: starts)

/-- The image names the device, itself or in its list. -/
def NamesDevice (rom : List UInt8) (start : Nat) (device : UInt16) : Prop :=
  (pcirOf rom start).deviceId = device ∨ (3 ≤ (pcirOf rom start).revision ∧ ListNames rom start device)

/-- A legacy image for the target whose two checksums hold. -/
structure TargetImage (rom : List UInt8) (vendor device : UInt16) (start : Nat) : Prop where
  legacy : (pcirOf rom start).codeType = pciCodeTypePcatImage
  vendor : (pcirOf rom start).vendorId = vendor
  device : NamesDevice rom start device
  sum : byteSum rom start (sizeOfImage rom start) = 0
  legacySum : byteSum rom start (sizeOfLegacy rom start) = 0

structure OptionRom (rom : List UInt8) (vendor device : UInt16) (starts : List Nat) : Prop where
  chain : RomChain rom 0 starts
  target : ∃ start ∈ starts, TargetImage rom vendor device start

/-! ### Reads -/

theorem readRomBytes_inside {length : Nat} (hpos : 0 < length) (h : start + length ≤ rom.length) :
    readRomBytes rom start length = some ((rom.drop start).take length) := by
  have hinside : rangeIsInside rom.length start length = true := rangeIsInside_iff.mpr h
  rw [readRomBytes, if_neg (by simp [hinside, Nat.ne_of_gt hpos])]

theorem readRomBytes_outside {length : Nat} (h : ¬ start + length ≤ rom.length) :
    readRomBytes rom start length = none := by
  have houtside : rangeIsInside rom.length start length = false :=
    Bool.eq_false_iff.mpr (mt rangeIsInside_iff.mp h)
  rw [readRomBytes, if_pos (.inr houtside)]

theorem computeChecksum_inside {length : Nat} (hpos : 0 < length) (h : start + length ≤ rom.length) :
    computeChecksum rom start length = some (byteSum rom start length) := by
  have hinside : rangeIsInside rom.length start length = true := rangeIsInside_iff.mpr h
  rw [computeChecksum, if_neg (by simp [hinside, Nat.ne_of_gt hpos]), byteSum]

theorem ite_error_eq_ok {ε α : Type} {c : Prop} [Decidable c] {error : ε} {rest : Except ε α} {value : α} :
    (if c then .error error else rest) = .ok value ↔ ¬ c ∧ rest = .ok value := by
  by_cases hc : c
  · simp [hc]
  · simp [hc]

/-! ### Device lists -/

/-- The list that begins with an entry goes on as the list after it. -/
theorem deviceListAt_succ {imageEnd : Nat} (hentry : readLe16 rom place ≠ 0) :
    DeviceListAt rom place imageEnd count ↔
      ∃ rest, count = rest + 1 ∧ DeviceListAt rom (place + 2) imageEnd rest := by
  have hshift : ∀ index, place + 2 + 2 * index = place + 2 * (index + 1) := by
    intro index
    omega
  constructor
  · rintro ⟨hinside, hentries, hterminator⟩
    cases count with
    | zero => exact absurd hterminator hentry
    | succ rest =>
        refine ⟨rest, rfl, by omega, fun index hindex => ?_, ?_⟩
        · rw [hshift]
          exact hentries (index + 1) (Nat.succ_lt_succ hindex)
        · rwa [hshift]
  · rintro ⟨rest, rfl, hinside, hentries, hterminator⟩
    refine ⟨by omega, fun index hindex => ?_, ?_⟩
    · cases index with
      | zero => exact hentry
      | succ index =>
          rw [← hshift]
          exact hentries index (Nat.lt_of_succ_lt_succ hindex)
    · rwa [← hshift]

theorem deviceListAt_zero {imageEnd : Nat} (hzero : readLe16 rom place = 0) :
    DeviceListAt rom place imageEnd count ↔ count = 0 ∧ place + 2 ≤ imageEnd := by
  constructor
  · rintro ⟨hinside, hentries, -⟩
    cases count with
    | zero => exact ⟨rfl, hinside⟩
    | succ rest => exact absurd hzero (hentries 0 (Nat.succ_pos rest))
  · rintro ⟨rfl, hinside⟩
    exact ⟨hinside, fun index hindex => absurd hindex (Nat.not_lt_zero index), hzero⟩

theorem scanDeviceList_iff {seen listMatch : Bool} (hinside : place + 2 * entries ≤ rom.length) :
    scanDeviceList rom device entries place seen = .ok listMatch ↔
      ∃ count, DeviceListAt rom place (place + 2 * entries) count ∧
        (listMatch = true ↔ seen = true ∨ ∃ index < count, readLe16 rom (place + 2 * index) = device) := by
  induction entries generalizing place seen with
  | zero =>
      refine iff_of_false (by simp [scanDeviceList]) ?_
      rintro ⟨count, hlist, -⟩
      have hcount := hlist.inside
      omega
  | succ entries ih =>
      rw [scanDeviceList, readRomBytes_inside (by decide) (by omega)]
      dsimp only
      rw [readLe16_slice (by decide), Nat.add_zero]
      by_cases hzero : readLe16 rom place = 0
      · rw [if_pos hzero, Except.ok.injEq]
        simp only [deviceListAt_zero hzero, and_assoc, exists_eq_left]
        rw [and_iff_right (by omega), Bool.eq_iff_iff]
        simp [iff_comm]
      · rw [if_neg hzero, ih (by omega)]
        have hend : place + 2 + 2 * entries = place + 2 * (entries + 1) := by omega
        have hnamed : ∀ rest, (seen || readLe16 rom place == device) = true ∨
              (∃ index < rest, readLe16 rom (place + 2 + 2 * index) = device) ↔
            seen = true ∨ ∃ index < rest + 1, readLe16 rom (place + 2 * index) = device := by
          intro rest
          have hshift : ∀ index, place + 2 * (index + 1) = place + 2 + 2 * index := by
            intro index
            omega
          rw [Nat.exists_lt_succ_left, Bool.or_eq_true, beq_iff_eq, or_assoc]
          simp only [hshift, Nat.mul_zero, Nat.add_zero]
        rw [hend]
        simp only [deviceListAt_succ hzero, hnamed]
        constructor
        · rintro ⟨rest, hlist, hmatch⟩
          exact ⟨rest + 1, ⟨rest, rfl, hlist⟩, hmatch⟩
        · rintro ⟨_, ⟨rest, rfl, hlist⟩, hmatch⟩
          exact ⟨rest, hlist, hmatch⟩

/-- A list in an image, wherever the image ends past a whole entry. -/
theorem DeviceListAt.entries_end {imageEnd : Nat} (hplace : place ≤ imageEnd) :
    DeviceListAt rom place (place + 2 * ((imageEnd - place) / 2)) count ↔
      DeviceListAt rom place imageEnd count := by
  constructor
  · exact fun h => ⟨by have := h.inside; omega, h.entries, h.terminator⟩
  · exact fun h => ⟨by have := h.inside; omega, h.entries, h.terminator⟩

/-- At most one length of a list ends it. -/
theorem DeviceListAt.unique {imageEnd count' : Nat} (h : DeviceListAt rom place imageEnd count)
    (h' : DeviceListAt rom place imageEnd count') : count = count' := by
  rcases Nat.lt_trichotomy count count' with hlt | heq | hgt
  · exact absurd h.terminator (h'.entries count hlt)
  · exact heq
  · exact absurd h'.terminator (h.entries count' hgt)

theorem parsePci30DeviceList_iff {listMatch : Bool}
    (hinside : start + sizeOfImage rom start ≤ rom.length) :
    parsePci30DeviceList rom start (sizeOfImage rom start) (start + pcirPlace rom start) (pcirOf rom start)
        device = .ok listMatch ↔
      ((pcirOf rom start).deviceListOffset ≠ 0 →
        (pcirOf rom start).deviceListOffset.toNat % 2 = 0 ∧
          (pcirOf rom start).length.toNat ≤ (pcirOf rom start).deviceListOffset.toNat ∧
          ∃ count, DeviceListAt rom (deviceListPlace rom start) (start + sizeOfImage rom start) count) ∧
      (listMatch = true ↔ ListNames rom start device) := by
  unfold parsePci30DeviceList
  by_cases habsent : (pcirOf rom start).deviceListOffset = 0
  · rw [if_pos habsent, Except.ok.injEq]
    simp [habsent, ListNames]
  have hplace : start + pcirPlace rom start + (pcirOf rom start).deviceListOffset.toNat =
      deviceListPlace rom start := rfl
  rw [if_neg habsent]
  simp only [ite_error_eq_ok, rangeIsInside_iff, not_or, not_not, Nat.not_lt, hplace, ListNames,
    habsent, ne_eq, not_false_eq_true, true_and, forall_const, Bool.not_eq_false]
  constructor
  · rintro ⟨⟨heven, hafter⟩, ⟨-, -⟩, ⟨hbefore, hroom⟩, hscan⟩
    obtain ⟨count, hlist, hmatch⟩ := (scanDeviceList_iff (by omega)).mp hscan
    have hlist' := (DeviceListAt.entries_end (by omega)).mp hlist
    refine ⟨⟨heven, hafter, count, hlist'⟩, hmatch.trans ?_⟩
    constructor
    · rintro (⟨⟨⟩⟩ | hnames)
      exact ⟨count, hlist', hnames⟩
    · rintro ⟨count', hcount', hnames⟩
      rw [hlist'.unique hcount']
      exact .inr hnames
  · rintro ⟨⟨heven, hafter, count, hlist⟩, hmatch⟩
    have hlistInside := hlist.inside
    have hstart : start ≤ deviceListPlace rom start := by
      unfold deviceListPlace
      omega
    refine ⟨⟨heven, hafter⟩, ⟨hstart, by omega⟩, ⟨by omega, by omega⟩, ?_⟩
    refine (scanDeviceList_iff (by omega)).mpr
      ⟨count, (DeviceListAt.entries_end (by omega)).mpr hlist, hmatch.trans ?_⟩
    constructor
    · rintro ⟨count', hcount', hnames⟩
      rw [hlist.unique hcount']
      exact .inr hnames
    · rintro (⟨⟨⟩⟩ | hnames)
      exact ⟨count, hlist, hnames⟩

/-! ### The extended data -/

theorem configNameIsValid_iff {name : List UInt8} : configNameIsValid name = true ↔
    ∃ length < name.length, name[length]! = 0 ∧ ∀ index < length, 0x20 ≤ name[index]! ∧ name[index]! ≤ 0x7E := by
  induction name with
  | nil => simp [configNameIsValid]
  | cons character rest ih =>
      have hprintable : (!(decide (character < 0x20) || decide (character > 0x7E))) = true ↔
          0x20 ≤ character ∧ character ≤ 0x7E := by
        simp
      rw [configNameIsValid, Bool.or_eq_true, beq_iff_eq, Bool.and_eq_true, ih, hprintable,
        List.length_cons, Nat.exists_lt_succ_left]
      simp only [Nat.forall_lt_succ_left, List.getElem!_cons_zero, List.getElem!_cons_succ,
        Nat.not_lt_zero, false_implies, implies_true, and_true]
      refine or_congr_right ?_
      constructor
      · rintro ⟨hhere, length, hlength, hend, hrest⟩
        exact ⟨length, hlength, hend, hhere, hrest⟩
      · rintro ⟨length, hlength, hend, hhere, hrest⟩
        exact ⟨hhere, length, hlength, hend, hrest⟩

theorem validateConfigUtility_iff (hinside : start + imageBytes ≤ rom.length) :
    (validateConfigUtility rom start imageBytes place).isError = false ↔
      ConfigUtilityAt rom start imageBytes place := by
  unfold validateConfigUtility
  rw [ite_status_isError rfl, Bool.not_eq_false, rangeIsInside_iff]
  by_cases hheader : place + optionRomConfigHeaderSize ≤ imageBytes
  · rw [and_iff_right hheader, readRomBytes_inside (by decide) (by omega)]
    have hbyte : ∀ index < 42, ((rom.drop (start + place)).take optionRomConfigHeaderSize)[index]! =
        rom[start + place + index]! := fun index hindex => getElem!_slice hindex
    dsimp only
    rw [hbyte 0 (by decide), hbyte 41 (by decide), Nat.add_zero, ite_status_isError rfl,
      ite_status_isError rfl, ite_status_isError rfl, Bool.not_eq_false, rangeIsInside_iff]
    have hname : (((rom.drop (start + place)).take optionRomConfigHeaderSize).drop 1).take
        optionRomConfigNameSize = (rom.drop (start + place + 1)).take optionRomConfigNameSize := by
      rw [List.drop_take, List.take_take, List.drop_drop]
      rfl
    have hlength : ((rom.drop (start + place + 1)).take optionRomConfigNameSize).length =
        optionRomConfigNameSize := by
      unfold optionRomConfigHeaderSize at hheader
      unfold optionRomConfigNameSize
      rw [List.length_take, List.length_drop]
      omega
    have hcharacter : ∀ index < optionRomConfigNameSize,
        ((rom.drop (start + place + 1)).take optionRomConfigNameSize)[index]! =
          rom[start + place + 1 + index]! := fun index hindex => getElem!_slice hindex
    have hvalid : (if configNameIsValid ((rom.drop (start + place + 1)).take optionRomConfigNameSize) = true
          then EfiStatus.success else .compromisedData).isError = false ↔
        ∃ length < optionRomConfigNameSize, rom[start + place + 1 + length]! = 0 ∧
          ∀ index < length, 0x20 ≤ rom[start + place + 1 + index]! ∧
            rom[start + place + 1 + index]! ≤ 0x7E := by
      calc _ ↔ configNameIsValid ((rom.drop (start + place + 1)).take optionRomConfigNameSize) = true := by
              split <;> simp_all [EfiStatus.isError]
        _ ↔ _ := by
          rw [configNameIsValid_iff, hlength]
          refine exists_congr fun length => and_congr_right fun hlt => ?_
          rw [hcharacter length hlt]
          refine and_congr_right fun _ => forall_congr' fun index => imp_congr_right fun hindex => ?_
          rw [hcharacter index (Nat.lt_trans hindex hlt)]
    rw [hname, hvalid]
    constructor
    · rintro ⟨hblocks, hrevision, hextent, hvalidName⟩
      exact ⟨hheader, ⟨hblocks, hextent⟩, not_not.mp hrevision, hvalidName⟩
    · rintro ⟨-, ⟨hblocks, hextent⟩, hrevision, hvalidName⟩
      exact ⟨hblocks, not_not.mpr hrevision, hextent, hvalidName⟩
  · exact iff_of_false (fun h => hheader h.1) fun h => hheader h.header

theorem validatePci30Metadata_iff (hinside : start + sizeOfImage rom start ≤ rom.length) :
    (validatePci30Metadata rom start (sizeOfImage rom start) (pcirOf rom start)).isError = false ↔
      (pcirOf rom start).maxRuntimeImageLength ≤ (pcirOf rom start).imageLength ∧
      ((pcirOf rom start).configUtilityCodeHeaderOffset ≠ 0 →
        ConfigUtilityAt rom start (sizeOfImage rom start)
          (pcirOf rom start).configUtilityCodeHeaderOffset.toNat) ∧
      ((pcirOf rom start).dmtfClpEntryPointOffset ≠ 0 →
        (pcirOf rom start).dmtfClpEntryPointOffset.toNat < sizeOfImage rom start) := by
  unfold validatePci30Metadata
  generalize pcirOf rom start = pcir
  dsimp only
  rw [ite_status_isError rfl, gt_iff_lt, UInt16.not_lt]
  refine and_congr_right fun _ => ?_
  have hclp : (if pcir.dmtfClpEntryPointOffset ≠ 0 ∧
        rangeIsInside (sizeOfImage rom start) pcir.dmtfClpEntryPointOffset.toNat 1 = false then
        EfiStatus.compromisedData else .success).isError = false ↔
      (pcir.dmtfClpEntryPointOffset ≠ 0 →
        pcir.dmtfClpEntryPointOffset.toNat < sizeOfImage rom start) := by
    rw [ite_status_isError rfl, not_and, Bool.not_eq_false, rangeIsInside_iff]
    exact and_iff_left rfl
  by_cases hconfig : pcir.configUtilityCodeHeaderOffset = 0
  · rw [if_pos hconfig, if_neg (by decide), hclp]
    exact (and_iff_right fun hne => absurd hconfig hne).symm
  · rw [if_neg hconfig]
    by_cases hvalid : (validateConfigUtility rom start (sizeOfImage rom start)
        pcir.configUtilityCodeHeaderOffset.toNat).isError = false
    · rw [if_neg (by simp [hvalid]), hclp]
      exact (and_iff_right fun _ => (validateConfigUtility_iff hinside).mp hvalid).symm
    · rw [if_pos (by simpa using hvalid)]
      refine iff_of_false hvalid fun h => hvalid ?_
      exact (validateConfigUtility_iff hinside).mpr (h.1 hconfig)

/-! ### One image -/

/-- PCI data of bytes that agree up to the end of the structure of revision 2. -/
theorem pciDataStructure_congr {bytes bytes' : List UInt8}
    (h : ∀ index < 0x18, bytes[index]! = bytes'[index]!) :
    pciDataStructure bytes =
      { pciDataStructure bytes' with
        configUtilityCodeHeaderOffset := readLe16 bytes 0x18
        dmtfClpEntryPointOffset := readLe16 bytes 0x1A } := by
  have hword : ∀ index, index + 1 < 0x18 → readLe16 bytes index = readLe16 bytes' index := by
    intro index hindex
    rw [readLe16, readLe16, h index (Nat.lt_of_succ_lt hindex), h (index + 1) hindex]
  rw [pciDataStructure, pciDataStructure, hword 4 (by decide), hword 6 (by decide), hword 8 (by decide),
    hword 0x0A (by decide), h 0x0C (by decide), hword 0x10 (by decide), hword 0x12 (by decide),
    h 0x14 (by decide), h 0x15 (by decide), hword 0x16 (by decide)]

/-- The structure of revision 2 lacks the last two fields of the whole one. -/
theorem pciDataStructure_pcir22 (hinside : start + 0x18 ≤ rom.length) :
    pciDataStructure ((rom.drop start).take 0x18 ++ [0, 0, 0, 0]) =
      { pciDataStructure (rom.drop start) with
        configUtilityCodeHeaderOffset := 0
        dmtfClpEntryPointOffset := 0 } := by
  have hlength : ((rom.drop start).take 0x18).length = 0x18 := by
    rw [List.length_take, List.length_drop]
    omega
  have hfirst : ∀ index < 0x18, ((rom.drop start).take 0x18 ++ [0, 0, 0, 0])[index]! =
      (rom.drop start)[index]! := by
    intro index hindex
    simp only [List.getElem!_eq_getElem?_getD]
    rw [List.getElem?_append_left (by omega), List.getElem?_take_of_lt hindex]
  have hlast : ∀ index < 4, ((rom.drop start).take 0x18 ++ [0, 0, 0, 0])[0x18 + index]! = 0 := by
    intro index hindex
    simp only [List.getElem!_eq_getElem?_getD]
    rw [List.getElem?_append_right (by omega), hlength, Nat.add_sub_cancel_left]
    match index, hindex with
    | 0, _ | 1, _ | 2, _ | 3, _ => rfl
  have hconfig : readLe16 ((rom.drop start).take 0x18 ++ [0, 0, 0, 0]) 0x18 = 0 :=
    readLe16_eq_zero.mpr ⟨hlast 0 (by decide), hlast 1 (by decide)⟩
  have hclp : readLe16 ((rom.drop start).take 0x18 ++ [0, 0, 0, 0]) 0x1A = 0 :=
    readLe16_eq_zero.mpr ⟨hlast 2 (by decide), hlast 3 (by decide)⟩
  rw [pciDataStructure_congr hfirst, hconfig, hclp]

theorem pciDataStructure_slice :
    pciDataStructure ((rom.drop start).take 0x1C) = pciDataStructure (rom.drop start) := by
  have hslice : ∀ index < 0x1C, ((rom.drop start).take 0x1C)[index]! = (rom.drop start)[index]! := by
    intro index hindex
    simp only [List.getElem!_eq_getElem?_getD]
    rw [List.getElem?_take_of_lt hindex]
  have hword : ∀ index, index + 1 < 0x1C →
      readLe16 ((rom.drop start).take 0x1C) index = readLe16 (rom.drop start) index := by
    intro index hindex
    rw [readLe16, readLe16, hslice index (Nat.lt_of_succ_lt hindex), hslice (index + 1) hindex]
  rw [pciDataStructure_congr fun index hindex => hslice index (by omega), hword 0x18 (by decide),
    hword 0x1A (by decide)]
  rfl

/-- The PCI data that the reader keeps: without the last two fields before revision 3. -/
def keptPcir (rom : List UInt8) (start : Nat) : PciDataStructure :=
  if (pcirOf rom start).revision < 3 then
    { pcirOf rom start with configUtilityCodeHeaderOffset := 0, dmtfClpEntryPointOffset := 0 }
  else pcirOf rom start

theorem keptPcir_field {α : Type} (rom : List UInt8) (start : Nat) (field : PciDataStructure → α)
    (hfield : ∀ pcir config clp, field { pcir with
      configUtilityCodeHeaderOffset := config
      dmtfClpEntryPointOffset := clp } = field pcir) :
    field (keptPcir rom start) = field (pcirOf rom start) := by
  unfold keptPcir
  split
  · exact hfield _ 0 0
  · rfl

theorem readPcir_iff {pcir : PciDataStructure} {listMatch : Bool}
    (hinside : start + sizeOfImage rom start ≤ rom.length)
    (hpcir : pcirPlace rom start + (pcirOf rom start).length.toNat ≤ sizeOfImage rom start) :
    readPcir rom start (sizeOfImage rom start) (start + pcirPlace rom start)
        { pcirOf rom start with configUtilityCodeHeaderOffset := 0, dmtfClpEntryPointOffset := 0 } device =
        .ok (pcir, listMatch) ↔
      (3 ≤ (pcirOf rom start).revision → ExtendedPcir rom start) ∧ pcir = keptPcir rom start ∧
        (listMatch = true ↔ 3 ≤ (pcirOf rom start).revision ∧ ListNames rom start device) := by
  unfold readPcir keptPcir
  by_cases hold : (pcirOf rom start).revision < 3
  · have hnot : ¬ 3 ≤ (pcirOf rom start).revision := UInt8.not_le.mpr hold
    simp only [hold, hnot, if_true, Except.ok.injEq, Prod.mk.injEq, false_implies, false_and, true_and,
      iff_false, Bool.not_eq_true]
    exact and_congr eq_comm eq_comm
  have hnew : 3 ≤ (pcirOf rom start).revision := UInt8.not_lt.mp hold
  rw [if_neg hold, if_neg hold, ite_error_eq_ok, Nat.not_lt]
  simp only [hnew, forall_const, true_and]
  by_cases hlong : 0x1C ≤ (pcirOf rom start).length.toNat
  · rw [and_iff_right hlong, readRomBytes_inside (by decide) (by omega)]
    have hkept : pciDataStructure (rom.drop (start + pcirPlace rom start)) = pcirOf rom start := rfl
    dsimp only
    rw [pciDataStructure_slice, hkept]
    have hlist := fun found => @parsePci30DeviceList_iff rom start device found hinside
    have hmetadata := validatePci30Metadata_iff hinside
    cases hread : parsePci30DeviceList rom start (sizeOfImage rom start)
        (start + pcirPlace rom start) (pcirOf rom start) device with
    | error status =>
        refine iff_of_false (fun h => by cases h) ?_
        rintro ⟨hextended, -, hmatch⟩
        have haccepted := (hlist listMatch).mpr ⟨hextended.list, hmatch⟩
        rw [hread] at haccepted
        cases haccepted
    | ok found =>
        dsimp only
        obtain ⟨hwell, hfound⟩ := (hlist found).mp hread
        rw [ite_error_eq_ok, Bool.not_eq_true, hmetadata, Except.ok.injEq, Prod.mk.injEq]
        constructor
        · rintro ⟨⟨hruntime, hconfig, hclp⟩, rfl, rfl⟩
          exact ⟨⟨hlong, hwell, hruntime, hconfig, hclp⟩, rfl, hfound⟩
        · rintro ⟨hextended, rfl, hmatch⟩
          exact ⟨⟨hextended.runtime, hextended.config, hextended.clp⟩, rfl,
            Bool.eq_iff_iff.mpr (hfound.trans hmatch.symm)⟩
  · exact iff_of_false (fun h => hlong h.1) fun h => hlong h.1.length

theorem logAndValidateLegacyHeader_iff {legacySize : Nat} {valid : Bool}
    (hinside : start + sizeOfImage rom start ≤ rom.length) (hheader : start + 2 < rom.length) :
    logAndValidateLegacyHeader rom start (sizeOfImage rom start) = .ok (legacySize, valid) ↔
      rom[start + 2]! ≠ 0 ∧ sizeOfLegacy rom start ≤ sizeOfImage rom start ∧
        legacySize = sizeOfLegacy rom start ∧
        (valid = true ↔ byteSum rom start (sizeOfLegacy rom start) = 0) := by
  unfold logAndValidateLegacyHeader
  rw [readRomBytes_inside Nat.one_pos (by omega)]
  have hsize : ((rom.drop (start + 2)).take 1)[0]! = rom[start + 2]! := getElem!_slice Nat.one_pos
  dsimp only
  rw [hsize, ite_error_eq_ok, ite_error_eq_ok, not_or, Nat.not_lt, Bool.not_eq_false, rangeIsInside_iff]
  have hlegacy : rom[start + 2]!.toNat * optionRomBlockSize = sizeOfLegacy rom start := rfl
  rw [hlegacy]
  refine and_congr_right fun hnonzero => ?_
  by_cases hfits : sizeOfLegacy rom start ≤ sizeOfImage rom start
  · have hpos : 0 < sizeOfLegacy rom start := by
      have hne : rom[start + 2]!.toNat ≠ 0 := fun hzero => hnonzero (UInt8.toNat_inj.mp hzero)
      unfold sizeOfLegacy optionRomBlockSize
      omega
    rw [computeChecksum_inside hpos (by omega)]
    simp only [hfits, true_and, Except.ok.injEq, Prod.mk.injEq]
    rw [and_iff_right (by omega), eq_comm, Bool.eq_iff_iff, beq_iff_eq]
    exact and_congr_right fun _ => iff_comm
  · exact iff_of_false (fun h => hfits h.1.1) fun h => hfits h.1

/-- What the reader finds out of the legacy part of an image. -/
def LegacySumValid (rom : List UInt8) (start : Nat) : Prop :=
  (pcirOf rom start).codeType = pciCodeTypePcatImage ∧ byteSum rom start (sizeOfLegacy rom start) = 0

theorem validatePcat_iff {valid : Bool} (hinside : start + sizeOfImage rom start ≤ rom.length)
    (hheader : start + 2 < rom.length) :
    validatePcat rom start (sizeOfImage rom start) (pcirPlace rom start) (keptPcir rom start) =
        .ok valid ↔
      ((pcirOf rom start).codeType = pciCodeTypePcatImage → LegacyPart rom start) ∧
        (valid = true ↔ LegacySumValid rom start) := by
  have htype := keptPcir_field rom start (·.codeType) fun _ _ _ => rfl
  have hlength := keptPcir_field rom start (·.length) fun _ _ _ => rfl
  have hrevision := keptPcir_field rom start (·.revision) fun _ _ _ => rfl
  have hruntime := keptPcir_field rom start (·.maxRuntimeImageLength) fun _ _ _ => rfl
  unfold validatePcat LegacySumValid
  rw [htype]
  by_cases hpcat : (pcirOf rom start).codeType = pciCodeTypePcatImage
  · rw [if_neg (not_not.mpr hpcat), imp_iff_right hpcat, and_iff_right hpcat]
    have hheaderIff := fun legacySize found =>
      @logAndValidateLegacyHeader_iff rom start legacySize found hinside hheader
    cases hread : logAndValidateLegacyHeader rom start (sizeOfImage rom start) with
    | error status =>
        refine iff_of_false (fun h => by cases h) ?_
        rintro ⟨hlegacy, hvalid⟩
        have haccepted := (hheaderIff _ valid).mpr ⟨hlegacy.nonzero, hlegacy.fits, rfl, hvalid⟩
        rw [hread] at haccepted
        cases haccepted
    | ok found =>
        obtain ⟨legacySize, found⟩ := found
        obtain ⟨hnonzero, hfits, rfl, hfound⟩ := (hheaderIff legacySize found).mp hread
        dsimp only
        rw [ite_error_eq_ok, Bool.not_eq_true, validatePcatLayout_iff, hlength, hrevision, hruntime,
          Except.ok.injEq]
        constructor
        · rintro ⟨⟨hcontains, hlayout⟩, rfl⟩
          exact ⟨⟨hnonzero, hfits, hcontains, hlayout⟩, hfound⟩
        · rintro ⟨hlegacy, hvalid⟩
          exact ⟨⟨hlegacy.contains_, hlegacy.runtime⟩, Bool.eq_iff_iff.mpr (hfound.trans hvalid.symm)⟩
  · rw [if_pos hpcat, Except.ok.injEq]
    simp [hpcat, eq_comm]

/-- What the reader keeps of an image. -/
structure ReadsImage (rom : List UInt8) (device : UInt16) (start : Nat) (image : RomImage) : Prop where
  size : image.size = sizeOfImage rom start
  place : image.pcirOffset = start + pcirPlace rom start
  pcir : image.pcir = keptPcir rom start
  device : image.deviceMatches = true ↔ NamesDevice rom start device
  checksums : image.checksumsValid = true ↔
    byteSum rom start (sizeOfImage rom start) = 0 ∧ LegacySumValid rom start

theorem header_iff : readLe16 rom start = 0xAA55 ↔ rom[start]! = 0x55 ∧ rom[start + 1]! = 0xAA := by
  constructor
  · exact signature_of_readLe16
  · rintro ⟨hlow, hhigh⟩
    rw [readLe16_eq_iff, hlow, hhigh]
    rfl

/-- The checks after the header, on the PCI data where the header says it is. -/
def readImageBody (rom : List UInt8) (device : UInt16) (start : Nat) : Except EfiStatus RomImage :=
  let pcir22 :=
    { pcirOf rom start with configUtilityCodeHeaderOffset := 0, dmtfClpEntryPointOffset := 0 }
  if (rom.drop (start + pcirPlace rom start)).take 4 ≠ [0x50, 0x43, 0x49, 0x52] then .error .compromisedData
  else if (pcirOf rom start).imageLength = 0 then .error .compromisedData
  else if rangeIsInside rom.length start (sizeOfImage rom start) = false then .error .compromisedData
  else if (pcirOf rom start).length.toNat < 0x18 ∨
      rangeIsInside (sizeOfImage rom start) (pcirPlace rom start) (pcirOf rom start).length.toNat = false then
    .error .compromisedData
  else
    match readPcir rom start (sizeOfImage rom start) (start + pcirPlace rom start) pcir22 device with
    | .error status => .error status
    | .ok (pcir, listMatch) =>
        if pcir.indicator &&& optionRomIndicatorReserved ≠ 0 then .error .compromisedData
        else
          match computeChecksum rom start (sizeOfImage rom start) with
          | none => .error .compromisedData
          | some imageChecksum =>
              match validatePcat rom start (sizeOfImage rom start) (pcirPlace rom start) pcir with
              | .error status => .error status
              | .ok legacyChecksumValid =>
                  .ok
                    { size := sizeOfImage rom start
                      pcirOffset := start + pcirPlace rom start
                      pcir
                      deviceMatches := pcir.deviceId == device || listMatch
                      checksumsValid := imageChecksum == 0 && legacyChecksumValid }

theorem readImage_eq (hheader : start + 0x1A ≤ rom.length)
    (hpcir : start + pcirPlace rom start + 0x18 ≤ rom.length) :
    readImage rom start device =
      if readLe16 rom start ≠ 0xAA55 then .error .compromisedData
      else if pcirPlace rom start < 0x1A ∨ pcirPlace rom start % 4 ≠ 0 then .error .compromisedData
      else readImageBody rom device start := by
  have hplace : (readLe16 rom (start + 0x18)).toNat = pcirPlace rom start := rfl
  have htext : ((rom.drop (start + pcirPlace rom start)).take 0x18).take 4 =
      (rom.drop (start + pcirPlace rom start)).take 4 := by
    rw [List.take_take]
    rfl
  unfold readImage readImageBody
  rw [readRomBytes_inside (by decide) hheader]
  dsimp only
  rw [readLe16_slice (by decide), readLe16_slice (by decide), Nat.add_zero, hplace,
    readRomBytes_inside (by decide) hpcir]
  dsimp only
  rw [pciDataStructure_pcir22 hpcir, htext]
  rfl

/-- The rest of a well-formed image. -/
structure ImageBody (rom : List UInt8) (start : Nat) : Prop where
  text : (rom.drop (start + pcirPlace rom start)).take 4 = [0x50, 0x43, 0x49, 0x52]
  blocks : (pcirOf rom start).imageLength ≠ 0
  inside : start + sizeOfImage rom start ≤ rom.length
  pcir : 0x18 ≤ (pcirOf rom start).length.toNat ∧
    pcirPlace rom start + (pcirOf rom start).length.toNat ≤ sizeOfImage rom start
  extended : 3 ≤ (pcirOf rom start).revision → ExtendedPcir rom start
  reserved : (pcirOf rom start).indicator &&& optionRomIndicatorReserved = 0
  legacy : (pcirOf rom start).codeType = pciCodeTypePcatImage → LegacyPart rom start

theorem sizeOfImage_pos (hblocks : (pcirOf rom start).imageLength ≠ 0) : 512 ≤ sizeOfImage rom start := by
  have hne : (pcirOf rom start).imageLength.toNat ≠ 0 := fun hzero => hblocks (UInt16.toNat_inj.mp hzero)
  unfold sizeOfImage optionRomBlockSize
  omega

theorem readImageBody_ok {image : RomImage} (h : readImageBody rom device start = .ok image) :
    ImageBody rom start ∧ ReadsImage rom device start image := by
  unfold readImageBody at h
  rw [ite_error_eq_ok, ite_error_eq_ok, ite_error_eq_ok, ite_error_eq_ok, not_not, Bool.not_eq_false,
    rangeIsInside_iff, not_or, Nat.not_lt, Bool.not_eq_false, rangeIsInside_iff] at h
  obtain ⟨htext, hblocks, hinside, hpcir, h⟩ := h
  have hsize := sizeOfImage_pos hblocks
  split at h
  case h_1 => cases h
  case h_2 pcir listMatch hread =>
  obtain ⟨hextended, rfl, hlist⟩ := (readPcir_iff hinside hpcir.2).mp hread
  have hindicator := keptPcir_field rom start (·.indicator) fun _ _ _ => rfl
  have hdevice := keptPcir_field rom start (·.deviceId) fun _ _ _ => rfl
  rw [ite_error_eq_ok, computeChecksum_inside (by omega) hinside, not_not, hindicator] at h
  obtain ⟨hreserved, h⟩ := h
  dsimp only at h
  split at h
  case h_1 => cases h
  case h_2 legacyValid hpcat =>
  obtain ⟨hlegacy, hvalid⟩ := (validatePcat_iff hinside (by omega)).mp hpcat
  cases h
  refine ⟨⟨htext, hblocks, hinside, hpcir, hextended, hreserved, hlegacy⟩, rfl, rfl, rfl, ?_, ?_⟩
  · dsimp only
    rw [Bool.or_eq_true, beq_iff_eq, hdevice, hlist, NamesDevice]
  · dsimp only
    rw [Bool.and_eq_true, beq_iff_eq, hvalid]

theorem readImageBody_complete (h : ImageBody rom start) :
    ∃ image, readImageBody rom device start = .ok image := by
  classical
  have hinside := h.inside
  have hsize := sizeOfImage_pos h.blocks
  have hread := (@readPcir_iff rom start device _ _ hinside h.pcir.2).mpr
    ⟨h.extended, rfl, decide_eq_true_iff⟩
  have hpcat := (validatePcat_iff hinside (by omega)).mpr ⟨h.legacy, decide_eq_true_iff⟩
  have hindicator := keptPcir_field rom start (·.indicator) fun _ _ _ => rfl
  unfold readImageBody
  rw [if_neg (not_not.mpr h.text), if_neg h.blocks, if_neg (by simp [rangeIsInside_iff.mpr hinside]),
    if_neg (by simp [rangeIsInside_iff.mpr h.pcir.2, h.pcir.1]), hread]
  dsimp only
  rw [hindicator, if_neg (not_not.mpr h.reserved), computeChecksum_inside (by omega) hinside]
  dsimp only
  rw [hpcat]
  exact ⟨_, rfl⟩

theorem ImageAt.body (h : ImageAt rom start) : ImageBody rom start :=
  ⟨h.text, h.blocks, h.inside, h.pcir, h.extended, h.reserved, h.legacy⟩

theorem ImageAt.readImage_eq (h : ImageAt rom start) :
    readImage rom start device = readImageBody rom device start := by
  have hinside := h.inside
  have hsize := sizeOfImage_pos h.blocks
  have hpcir := h.pcir
  have haligned := h.aligned
  rw [CsmVgaSelector.readImage_eq (by omega) (by omega), if_neg (not_not.mpr (header_iff.mpr h.header)),
    if_neg (by omega)]

/-- An image that the reader accepts is well formed, and the reader keeps what it is. -/
theorem readImage_ok {image : RomImage} (h : readImage rom start device = .ok image) :
    ImageAt rom start ∧ ReadsImage rom device start image := by
  by_cases hheader : start + 0x1A ≤ rom.length
  swap
  · rw [readImage, readRomBytes_outside hheader] at h
    cases h
  by_cases hpcir : start + pcirPlace rom start + 0x18 ≤ rom.length
  swap
  · rw [readImage, readRomBytes_inside (by decide) hheader] at h
    dsimp only at h
    rw [readLe16_slice (by decide), readLe16_slice (by decide)] at h
    have houtside : readRomBytes rom (start + (readLe16 rom (start + 0x18)).toNat) 0x18 = none :=
      readRomBytes_outside hpcir
    rw [houtside, ite_error_eq_ok, ite_error_eq_ok] at h
    cases h.2.2
  rw [CsmVgaSelector.readImage_eq hheader hpcir, ite_error_eq_ok, ite_error_eq_ok, not_not, header_iff,
    not_or, Nat.not_lt, not_not] at h
  obtain ⟨hsignature, haligned, h⟩ := h
  obtain ⟨hbody, hreads⟩ := readImageBody_ok h
  exact ⟨⟨hsignature, haligned, hbody.text, hbody.blocks, hbody.inside, hbody.pcir, hbody.reserved,
    hbody.extended, hbody.legacy⟩, hreads⟩

/-- The reader accepts a well-formed image. -/
theorem readImage_complete (h : ImageAt rom start) : ∃ image, readImage rom start device = .ok image := by
  rw [h.readImage_eq]
  exact readImageBody_complete h.body

/-! ### The walk -/

variable {vendor : UInt16} {images : Nat} {walk end_ : RomWalk}

/-- An image adds itself to what has been found when it is for the target. -/
theorem see_found {image : RomImage} (h : ReadsImage rom device start image) :
    (walk.see start image vendor).validation.matchingLegacyImageFound = true ↔
      walk.validation.matchingLegacyImageFound = true ∨ TargetImage rom vendor device start := by
  have htype := keptPcir_field rom start (·.codeType) fun _ _ _ => rfl
  have hvendor := keptPcir_field rom start (·.vendorId) fun _ _ _ => rfl
  have htarget : TargetImage rom vendor device start ↔
      (image.pcir.codeType == pciCodeTypePcatImage &&
        (image.pcir.vendorId == vendor && image.deviceMatches)) = true ∧ image.checksumsValid = true := by
    simp only [Bool.and_eq_true, beq_iff_eq, h.pcir, htype, hvendor, h.device, h.checksums, LegacySumValid]
    constructor
    · rintro ⟨hlegacy, hvendor, hdevice, hsum, hlegacySum⟩
      exact ⟨⟨hlegacy, hvendor, hdevice⟩, hsum, hlegacy, hlegacySum⟩
    · rintro ⟨⟨hlegacy, hvendor, hdevice⟩, hsum, -, hlegacySum⟩
      exact ⟨hlegacy, hvendor, hdevice, hsum, hlegacySum⟩
  rw [htarget]
  unfold RomWalk.see
  dsimp only
  split
  case isTrue hmatched =>
    rw [and_iff_right hmatched]
    cases hchecksums : image.checksumsValid with
    | false => simp
    | true =>
        simp only [Bool.not_true, Bool.false_eq_true, if_false, or_true, iff_true]
        split
        case isTrue hfound => exact hfound
        case isFalse => rfl
  case isFalse hmatched =>
    rw [or_iff_left fun h => hmatched h.1]
    split
    · rfl
    · rfl

/-- What the walk has found after these images. -/
def FoundAmong (rom : List UInt8) (vendor device : UInt16) (starts : List Nat) (walk end_ : RomWalk) : Prop :=
  end_.validation.finalIndicatorSeen = true ∧
    (end_.validation.matchingLegacyImageFound = true ↔
      walk.validation.matchingLegacyImageFound = true ∨
        ∃ start ∈ starts, TargetImage rom vendor device start)

/-- One image of the walk, which then ends or goes on. -/
theorem walkImages_succ {image : RomImage} (himage : ImageAt rom start)
    (hread : readImage rom start device = .ok image) (hreads : ReadsImage rom device start image) :
    walkImages rom vendor device (images + 1) start walk =
      if (pcirOf rom start).indicator &&& optionRomLastImage ≠ 0 then
        if start + sizeOfImage rom start ≠ rom.length then .error .compromisedData
        else
          .ok { walk.see start image vendor with
            validation := { (walk.see start image vendor).validation with finalIndicatorSeen := true } }
      else if start + sizeOfImage rom start ≥ rom.length then .error .compromisedData
      else
        walkImages rom vendor device images (start + sizeOfImage rom start)
          (walk.see start image vendor) := by
  have hpos := sizeOfImage_pos himage.blocks
  have hindicator := keptPcir_field rom start (·.indicator) fun _ _ _ => rfl
  rw [walkImages, hread]
  dsimp only
  rw [hreads.size, if_neg (by omega), hreads.pcir, hindicator]

theorem walkImages_ok (hfuel : rom.length ≤ start + 512 * images) (hstart : start < rom.length)
    (h : walkImages rom vendor device images start walk = .ok end_) :
    ∃ starts, RomChain rom start starts ∧ FoundAmong rom vendor device starts walk end_ := by
  induction images generalizing start walk with
  | zero => omega
  | succ images ih =>
      cases hread : readImage rom start device with
      | error status =>
          rw [walkImages, hread] at h
          cases h
      | ok image =>
          obtain ⟨himage, hreads⟩ := readImage_ok hread
          have hfound := @see_found rom start device vendor walk image hreads
          have hpos := sizeOfImage_pos himage.blocks
          rw [walkImages_succ himage hread hreads] at h
          split at h
          case isTrue hlast =>
            rw [ite_error_eq_ok, not_not] at h
            obtain ⟨hend, h⟩ := h
            cases h
            refine ⟨[start], .last himage hlast hend, rfl, ?_⟩
            simpa using hfound
          case isFalse hnot =>
            rw [ite_error_eq_ok] at h
            obtain ⟨starts, hchain, hfinal, hrest⟩ := ih (by omega) (by omega) h.2
            refine ⟨start :: starts, .next himage hnot hchain, hfinal, ?_⟩
            simp only [hrest, hfound, List.mem_cons, exists_eq_or_imp, or_assoc]

theorem RomChain.start_lt {starts : List Nat} (h : RomChain rom start starts) : start < rom.length := by
  have hbounds : ImageAt rom start → start < rom.length := by
    intro himage
    have hpos := sizeOfImage_pos himage.blocks
    have hinside := himage.inside
    omega
  cases h with
  | last himage => exact hbounds himage
  | next himage => exact hbounds himage

theorem walkImages_complete {starts : List Nat} (hchain : RomChain rom start starts)
    (hfuel : rom.length ≤ start + 512 * images) :
    ∃ end_, walkImages rom vendor device images start walk = .ok end_ ∧
      FoundAmong rom vendor device starts walk end_ := by
  induction hchain generalizing images walk with
  | @last start himage hlast hend =>
      unfold MarkedLast at hlast
      obtain ⟨image, hread⟩ := readImage_complete himage
      obtain ⟨-, hreads⟩ := readImage_ok hread
      have hpos := sizeOfImage_pos himage.blocks
      have hfound := @see_found rom start device vendor walk image hreads
      obtain ⟨images, rfl⟩ : ∃ rest, images = rest + 1 := ⟨images - 1, by omega⟩
      rw [walkImages_succ himage hread hreads, if_pos hlast, if_neg (not_not.mpr hend)]
      refine ⟨_, rfl, rfl, ?_⟩
      simpa using hfound
  | @next start starts himage hnot hrest ih =>
      unfold MarkedLast at hnot
      obtain ⟨image, hread⟩ := readImage_complete himage
      obtain ⟨-, hreads⟩ := readImage_ok hread
      have hpos := sizeOfImage_pos himage.blocks
      have hlt := hrest.start_lt
      have hfound := @see_found rom start device vendor walk image hreads
      obtain ⟨images, rfl⟩ : ∃ rest, images = rest + 1 := ⟨images - 1, by omega⟩
      rw [walkImages_succ himage hread hreads, if_neg hnot, if_neg (by omega)]
      obtain ⟨end_, hwalk, hfinal, hend⟩ := @ih images (walk.see start image vendor) (by omega)
      refine ⟨end_, hwalk, hfinal, ?_⟩
      simp only [hend, hfound, List.mem_cons, exists_eq_or_imp, or_assoc]

/-! ### The ROM -/

/-- A ROM that stands at an address, in a whole number of blocks. -/
structure ExposedRom (address : Nat) (rom : List UInt8) : Prop where
  address_pos : 0 < address
  fits : address + rom.length ≤ 2 ^ 64
  pos : 0 < rom.length
  blocks : rom.length % optionRomBlockSize = 0

/-- What the parser does with a ROM of the expected size. -/
structure RomVerdict (address : Nat) (rom : List UInt8) (vendor device : UInt16) : Prop where
  accepts : (∃ validation, optionRomParseAndValidate address rom rom.length vendor device = .ok validation) ↔
    ∃ starts, OptionRom rom vendor device starts
  reads : ∀ offset length bytes, readRomBytes rom offset length = some bytes → offset + length ≤ rom.length
  sums : ∀ offset length sum, computeChecksum rom offset length = some sum → offset + length ≤ rom.length

theorem computeChecksum_bounds {length : Nat} {sum : UInt8}
    (h : computeChecksum rom start length = some sum) : start + length ≤ rom.length := by
  unfold computeChecksum at h
  split at h
  case isTrue => cases h
  case isFalse hinside =>
    rw [not_or, Bool.not_eq_false, rangeIsInside_iff] at hinside
    exact hinside.2

/-- **The parser accepts the ROMs of the grammar**, and no others. -/
theorem optionRomParse_exact {address : Nat} (hrom : ExposedRom address rom) (hvendor : vendor ≠ 0)
    (hdevice : device ≠ 0) : RomVerdict address rom vendor device := by
  have haddress := hrom.address_pos
  have hfits := hrom.fits
  have hpos := hrom.pos
  have hblocks := hrom.blocks
  have hfuel : rom.length ≤ 0 + 512 * (rom.length / optionRomBlockSize) := by
    unfold optionRomBlockSize at *
    omega
  refine ⟨?_, fun offset length bytes h => (readRomBytes_eq_some h).1,
    fun offset length sum h => computeChecksum_bounds h⟩
  unfold optionRomParseAndValidate
  rw [if_neg (by simp only [hvendor, hdevice, or_false]; omega), if_neg (by simp), if_neg (by
    unfold optionRomBlockSize at *
    omega)]
  constructor
  · rintro ⟨validation, h⟩
    split at h
    case h_1 => cases h
    case h_2 walk hwalk =>
      obtain ⟨starts, hchain, hfinal, hfound⟩ := walkImages_ok hfuel hpos hwalk
      rw [if_neg (by simp [hfinal])] at h
      split at h
      case isTrue hnone =>
        repeat' split at h
        all_goals cases h
      case isFalse hsome =>
        rw [Bool.not_eq_true, Bool.not_eq_false'] at hsome
        exact ⟨starts, hchain, (hfound.mp hsome).resolve_left (by simp)⟩
  · rintro ⟨starts, hchain, htarget⟩
    obtain ⟨walk, hwalk, hfinal, hfound⟩ :=
      @walkImages_complete rom 0 device vendor _ {} starts hchain hfuel
    rw [hwalk]
    dsimp only
    rw [if_neg (by simp [hfinal]), if_neg (by simp [hfound.mpr (.inr htarget)])]
    exact ⟨_, rfl⟩

/-- A ROM of one image. -/
theorem optionRomParse_oneBlock : RomVerdict 0xF0000000 oneBlockRom 0x10DE 0x1234 :=
  optionRomParse_exact ⟨by decide, by decide +kernel, by decide +kernel, by decide +kernel⟩ (by decide)
    (by decide)

end

end CsmVgaSelector
