import CsmVgaSelector.Rom.FirmwareDisk

/-!
# What the match of a firmware disk accepts

A hard disk of class 01/06 is accepted exactly when its one controller is in AHCI mode and what its entry
points to is in the snapshot: a handler that is not padding, and strings that are text. The bytes pointed to
must be as they were, each in a block that could be read; what else stands in such a block may have changed.
-/

namespace CsmVgaSelector

open Peek

/-- The place exists. -/
def InsideFirmware : SnapshotPlace → Prop
  | .snapshot offset => offset < diskFirmwareBytes
  | .valid block => block < diskFirmwareBytes / diskFirmwareBlock
  | .live offset => offset < diskFirmwareBytes

abbrev SnapshotMemory.snapshotAt (memory : SnapshotMemory) (address : Nat) : UInt8 :=
  memory (.snapshot (address - diskFirmwareBase))

abbrev SnapshotMemory.liveAt (memory : SnapshotMemory) (address : Nat) : UInt8 :=
  memory (.live (address - diskFirmwareBase))

/-- The byte at the address could be read for the snapshot, and is as it was. -/
structure StableByte (memory : SnapshotMemory) (address : Nat) : Prop where
  from_ : diskFirmwareBase ≤ address
  before : address < diskFirmwareBase + diskFirmwareBytes
  valid : memory (.valid ((address - diskFirmwareBase) / diskFirmwareBlock)) = 1
  same : memory.snapshotAt address = memory.liveAt address

def StableBytes (memory : SnapshotMemory) (address bytes : Nat) : Prop :=
  ∀ index < bytes, StableByte memory (address + index)

/-- One to 127 printable characters and a NUL. -/
def FirmwareText (memory : SnapshotMemory) (address : Nat) : Prop :=
  ∃ length, 1 ≤ length ∧ length ≤ 127 ∧ StableBytes memory address (length + 1) ∧
    (∀ index < length, 0x20 ≤ memory.snapshotAt (address + index) ∧
      memory.snapshotAt (address + index) ≤ 0x7E) ∧
    memory.snapshotAt (address + length) = 0

/-- Some byte is neither `00` nor `FF`. -/
def NotPadding (memory : SnapshotMemory) (address bytes : Nat) : Prop :=
  ∃ index < bytes, memory.snapshotAt (address + index) ≠ 0 ∧ memory.snapshotAt (address + index) ≠ 0xFF

variable {memory : SnapshotMemory} {devices : List LegacyPciIdentity} {entry : BbsTable}
  {address offset bytes block blocks limit index : Nat}

/-! ### Stable ranges -/

theorem stableRange_decides (hpos : 0 < bytes) :
    Decides InsideFirmware memory (stableRange address bytes) (StableBytes memory address bytes) := by
  unfold stableRange
  by_cases hbase : address < diskFirmwareBase
  · rw [if_pos (.inr hbase)]
    refine Decides.pure (iff_of_false Bool.false_ne_true fun h => ?_)
    exact absurd (h 0 hpos).from_ (Nat.not_le.mpr hbase)
  rw [if_neg (by omega)]
  dsimp only
  by_cases hend : address - diskFirmwareBase ≥ diskFirmwareBytes ∨
      bytes > diskFirmwareBytes - (address - diskFirmwareBase)
  · rw [if_pos hend]
    refine Decides.pure (iff_of_false Bool.false_ne_true fun h => ?_)
    have hlast := (h (bytes - 1) (by omega)).before
    omega
  rw [if_neg hend]
  obtain ⟨offset, rfl⟩ : ∃ offset, address = diskFirmwareBase + offset :=
    ⟨address - diskFirmwareBase, by omega⟩
  rw [Nat.add_sub_cancel_left] at *
  have hinside : offset + bytes ≤ diskFirmwareBytes := by omega
  have hblocks : offset / diskFirmwareBlock +
      ((offset + bytes - 1) / diskFirmwareBlock + 1 - offset / diskFirmwareBlock) ≤
        diskFirmwareBytes / diskFirmwareBlock := by
    unfold diskFirmwareBlock diskFirmwareBytes at *
    omega
  have hoffsets : ∀ index < bytes, offset + index < diskFirmwareBytes := by
    intro index hindex
    omega
  unfold diskFirmwareBlock at *
  refine ((blocksAreValid_decides fun index hindex => ?_).guard fun _ =>
    compareLive_decides hoffsets hoffsets).congr ?_
  · exact Nat.lt_of_lt_of_le (Nat.add_lt_add_left hindex _) hblocks
  rw [blocks_of_range (fun block => memory (.valid block) = 1) hpos]
  constructor
  · rintro ⟨hvalid, hsame⟩ index hindex
    have hoffset : diskFirmwareBase + offset + index - diskFirmwareBase = offset + index := by omega
    refine ⟨by omega, by omega, ?_, ?_⟩
    · rw [hoffset]
      exact hvalid index hindex
    · rw [SnapshotMemory.snapshotAt, SnapshotMemory.liveAt, hoffset]
      exact hsame index hindex
  · intro h
    have hoffset : ∀ index, diskFirmwareBase + offset + index - diskFirmwareBase = offset + index := by
      intro index
      omega
    constructor
    · intro index hindex
      have hvalid := (h index hindex).valid
      rwa [hoffset] at hvalid
    · intro index hindex
      have hsame := (h index hindex).same
      rwa [SnapshotMemory.snapshotAt, SnapshotMemory.liveAt, hoffset] at hsame

theorem StableByte.inside (h : StableByte memory address) : address - diskFirmwareBase < diskFirmwareBytes := by
  have hfrom := h.from_
  have hbefore := h.before
  omega

/-! ### Strings -/

/-- From this character on, with so many allowed, the text ends. -/
def TextFrom (memory : SnapshotMemory) (address limit index : Nat) : Prop :=
  ∃ length, index ≤ length ∧ length < index + limit ∧ length ≠ 0 ∧
    (∀ place, index ≤ place → place ≤ length → StableByte memory (address + place)) ∧
    (∀ place, index ≤ place → place < length → 0x20 ≤ memory.snapshotAt (address + place) ∧
      memory.snapshotAt (address + place) ≤ 0x7E) ∧
    memory.snapshotAt (address + length) = 0

/-- Past a printable character the text ends as it does from the next one. -/
theorem textFrom_succ (hstable : StableByte memory (address + index))
    (hlow : 0x20 ≤ memory.snapshotAt (address + index))
    (hhigh : memory.snapshotAt (address + index) ≤ 0x7E) :
    TextFrom memory address (limit + 1) index ↔ TextFrom memory address limit (index + 1) := by
  constructor
  · rintro ⟨length, hfrom, hto, hne, hbytes, hprintable, hend⟩
    have hlength : length ≠ index := by
      rintro rfl
      rw [hend] at hlow
      exact absurd hlow (by decide)
    exact ⟨length, by omega, by omega, hne, fun place hplace => hbytes place (by omega),
      fun place hplace => hprintable place (by omega), hend⟩
  · rintro ⟨length, hfrom, hto, hne, hbytes, hprintable, hend⟩
    refine ⟨length, by omega, by omega, hne, fun place hplace hle => ?_, fun place hplace hlt => ?_, hend⟩
    · rcases Nat.eq_or_lt_of_le hplace with rfl | hplace
      · exact hstable
      · exact hbytes place hplace hle
    · rcases Nat.eq_or_lt_of_le hplace with rfl | hplace
      · exact ⟨hlow, hhigh⟩
      · exact hprintable place hplace hlt

theorem scanFirmwareString_decides :
    Decides InsideFirmware memory (scanFirmwareString address limit index)
      (TextFrom memory address limit index) := by
  induction limit generalizing index with
  | zero =>
      refine Decides.pure (iff_of_false Bool.false_ne_true ?_)
      rintro ⟨length, hfrom, hto, -⟩
      omega
  | succ limit ih =>
      rw [scanFirmwareString]
      have hfirst : TextFrom memory address (limit + 1) index → StableBytes memory (address + index) 1 := by
        rintro ⟨length, hfrom, -, -, hbytes, -⟩ place hplace
        obtain rfl : place = 0 := by omega
        exact hbytes index (Nat.le_refl index) hfrom
      refine ((stableRange_decides Nat.one_pos).guard (q := TextFrom memory address (limit + 1) index)
        fun hstable => ?_).congr (and_iff_right_of_imp hfirst)
      have hbyte : StableByte memory (address + index) := hstable 0 Nat.one_pos
      have hinside : InsideFirmware (.snapshot (address + index - diskFirmwareBase)) := hbyte.inside
      refine Decides.bind (Yields.peek hinside) ?_
      change Decides _ _ (if memory.snapshotAt (address + index) = 0 then _ else _) _
      by_cases hzero : memory.snapshotAt (address + index) = 0
      · rw [if_pos hzero]
        refine Decides.pure ?_
        rw [decide_eq_true_eq]
        constructor
        · intro hne
          refine ⟨index, Nat.le_refl index, by omega, hne, fun place hfrom hto => ?_,
            fun place hfrom hto => ?_, hzero⟩
          · rwa [Nat.le_antisymm hto hfrom]
          · exact absurd hto (Nat.not_lt.mpr hfrom)
        · rintro ⟨length, hfrom, -, hne, -, hprintable, -⟩ rfl
          have hlow := (hprintable 0 (Nat.le_refl 0) (Nat.pos_of_ne_zero hne)).1
          rw [hzero] at hlow
          exact absurd hlow (by decide)
      rw [if_neg hzero]
      by_cases hrange : memory.snapshotAt (address + index) < 0x20 ∨
          memory.snapshotAt (address + index) > 0x7E
      · rw [if_pos hrange]
        refine Decides.pure (iff_of_false Bool.false_ne_true ?_)
        rintro ⟨length, hfrom, -, -, -, hprintable, hend⟩
        have hlength : index ≠ length := by
          rintro rfl
          exact hzero hend
        obtain ⟨hlow, hhigh⟩ := hprintable index (Nat.le_refl index) (by omega)
        exact hrange.elim (UInt8.not_lt.mpr hlow) (UInt8.not_lt.mpr hhigh)
      · rw [if_neg hrange]
        obtain ⟨hlow, hhigh⟩ := not_or.mp hrange
        exact ih.congr (textFrom_succ hbyte (UInt8.not_lt.mp hlow) (UInt8.not_lt.mp hhigh)).symm

theorem textFrom_zero : TextFrom memory address 128 0 ↔ FirmwareText memory address := by
  constructor
  · rintro ⟨length, -, hto, hne, hbytes, hprintable, hend⟩
    exact ⟨length, by omega, by omega, fun place hplace => hbytes place (Nat.zero_le _) (by omega),
      fun place hplace => hprintable place (Nat.zero_le _) hplace, hend⟩
  · rintro ⟨length, hpos, hle, hbytes, hprintable, hend⟩
    exact ⟨length, Nat.zero_le _, by omega, by omega, fun place _ hplace => hbytes place (by omega),
      fun place _ hplace => hprintable place hplace, hend⟩

theorem firmwareString_decides {segment offset : UInt16} {optional : Bool} :
    Decides InsideFirmware memory (firmwareString segment offset optional)
      (if segment = 0 ∧ offset = 0 then optional = true
        else FirmwareText memory (realModeAddress segment offset)) := by
  unfold firmwareString
  by_cases hnull : segment = 0 ∧ offset = 0
  · rw [if_pos hnull, if_pos hnull]
    exact Decides.pure Iff.rfl
  · rw [if_neg hnull, if_neg hnull]
    exact scanFirmwareString_decides.congr textFrom_zero

/-! ### The handler -/

theorem scanNonPadding_decides {nonPadding : Bool} (hinside : offset + bytes ≤ diskFirmwareBytes) :
    Decides InsideFirmware memory (scanNonPadding offset bytes nonPadding)
      (nonPadding = true ∨ ∃ index < bytes, memory (.snapshot (offset + index)) ≠ 0 ∧
        memory (.snapshot (offset + index)) ≠ 0xFF) := by
  induction bytes generalizing offset nonPadding with
  | zero => exact Decides.pure (by simp)
  | succ bytes ih =>
      rw [scanNonPadding]
      have hhere : InsideFirmware (.snapshot offset) := by
        change offset < _
        omega
      refine Decides.bind (Yields.peek hhere) ((@ih (offset + 1) _ (by omega)).congr ?_)
      rw [Nat.exists_lt_succ_left]
      simp only [Bool.or_eq_true, Bool.and_eq_true, bne_iff_ne, ne_eq, Nat.add_zero, or_assoc,
        Nat.add_assoc, Nat.add_comm 1]

theorem notPadding_decides (hpos : 0 < bytes) (hstable : StableBytes memory address bytes) :
    Decides InsideFirmware memory (scanNonPadding (address - diskFirmwareBase) bytes false)
      (NotPadding memory address bytes) := by
  have hfrom : diskFirmwareBase ≤ address := (hstable 0 hpos).from_
  have hlast := (hstable (bytes - 1) (by omega)).before
  refine (scanNonPadding_decides (by omega)).congr ?_
  simp only [Bool.false_eq_true, false_or, NotPadding, SnapshotMemory.snapshotAt]
  refine exists_congr fun index => ?_
  rw [Nat.sub_add_comm hfrom]

/-! ### The controller -/

/-- A controller in AHCI mode, on the first segment, with a vendor and a device. -/
structure AhciController (device : LegacyPciIdentity) : Prop where
  segment : device.segment = 0
  config : device.configStatus.isError = false
  vendor : readLe16 device.config 0 ≠ 0 ∧ readLe16 device.config 0 ≠ 0xFFFF
  deviceId : readLe16 device.config 2 ≠ 0xFFFF
  class_ : device.config[0x0B]! = 1 ∧ device.config[0x0A]! = 6 ∧ device.config[9]! = 1

/-- Exactly one controller is at the entry's bus, device and function, and it is in AHCI mode. -/
def OneAhciController (devices : List LegacyPciIdentity) (entry : BbsTable) : Prop :=
  ∃ device, devices.filter (atEntryAddress entry) = [device] ∧ AhciController device

theorem isAhciController_iff {device : LegacyPciIdentity} :
    isAhciController device = true ↔ AhciController device := by
  simp only [isAhciController, Bool.and_eq_true, beq_iff_eq, Bool.not_eq_true', Bool.and_eq_false_iff,
    beq_eq_false_iff_ne]
  constructor
  · rintro ⟨⟨⟨⟨⟨⟨⟨hsegment, hconfig⟩, hzero⟩, hones⟩, hdevice⟩, hclass⟩, hsub⟩, hinterface⟩
    refine ⟨hsegment, hconfig, ⟨?_, ?_⟩, ?_, hclass, hsub, hinterface⟩
    · rwa [ne_eq, readLe16_eq_zero, not_and_or]
    · rwa [ne_eq, readLe16_eq_ones, not_and_or]
    · rwa [ne_eq, readLe16_eq_ones, not_and_or]
  · rintro ⟨hsegment, hconfig, ⟨hzero, hones⟩, hdevice, hclass, hsub, hinterface⟩
    rw [ne_eq, readLe16_eq_zero, not_and_or] at hzero
    rw [ne_eq, readLe16_eq_ones, not_and_or] at hones hdevice
    exact ⟨⟨⟨⟨⟨⟨⟨hsegment, hconfig⟩, hzero⟩, hones⟩, hdevice⟩, hclass⟩, hsub⟩, hinterface⟩

theorem hasAhciController_iff :
    hasAhciController devices entry = true ↔ OneAhciController devices entry := by
  unfold hasAhciController OneAhciController
  split
  case h_1 device hone =>
    rw [hone]
    simp [isAhciController_iff]
  case h_2 hnot =>
    refine iff_of_false Bool.false_ne_true ?_
    rintro ⟨device, hone, -⟩
    exact hnot device hone

/-- The order of the inventory does not matter. -/
theorem OneAhciController.perm {devices' : List LegacyPciIdentity} (hperm : devices.Perm devices')
    (h : OneAhciController devices entry) : OneAhciController devices' entry := by
  obtain ⟨device, hone, hahci⟩ := h
  have hfilter := hperm.filter (atEntryAddress entry)
  rw [hone] at hfilter
  exact ⟨device, List.perm_singleton.mp hfilter.symm, hahci⟩

/-! ### The match -/

/-- The entry is a hard disk of class 01/06 with a handler, at numbers that PCI knows. -/
structure FirmwareEntry (entry : BbsTable) : Prop where
  hardDisk : entry.deviceType = bbsHardDisk
  class_ : entry.class_ = 1 ∧ entry.subClass = 6
  numbers : entry.bus ≤ 255 ∧ entry.device ≤ 31 ∧ entry.function ≤ 7
  handler : entry.bootHandlerSegment ≠ 0

/-- What the entry points to is in the snapshot. -/
structure FirmwareCode (memory : SnapshotMemory) (entry : BbsTable) : Prop where
  handler : StableBytes memory (realModeAddress entry.bootHandlerSegment entry.bootHandlerOffset) 64
  description : FirmwareText memory (realModeAddress entry.descStringSegment entry.descStringOffset)
  manufacturer : (entry.mfgStringSegment = 0 ∧ entry.mfgStringOffset = 0) ∨
    FirmwareText memory (realModeAddress entry.mfgStringSegment entry.mfgStringOffset)
  notPadding : NotPadding memory (realModeAddress entry.bootHandlerSegment entry.bootHandlerOffset) 64

structure FirmwareDisk (memory : SnapshotMemory) (devices : List LegacyPciIdentity) (entry : BbsTable) :
    Prop where
  disk : FirmwareEntry entry
  controller : OneAhciController devices entry
  code : FirmwareCode memory entry

/-- No text begins at the null pointer, which is not in the firmware area. -/
theorem not_firmwareText_null : ¬ FirmwareText memory (realModeAddress 0 0) := by
  rintro ⟨length, -, -, hbytes, -⟩
  exact absurd (hbytes 0 (Nat.succ_pos length)).from_ (by decide)

theorem description_decides {segment offset : UInt16} :
    Decides InsideFirmware memory (firmwareString segment offset false)
      (FirmwareText memory (realModeAddress segment offset)) := by
  refine firmwareString_decides.congr ?_
  split
  case isTrue hnull =>
    obtain ⟨rfl, rfl⟩ := hnull
    exact iff_of_false Bool.false_ne_true not_firmwareText_null
  case isFalse => exact Iff.rfl

theorem manufacturer_decides {segment offset : UInt16} :
    Decides InsideFirmware memory (firmwareString segment offset true)
      ((segment = 0 ∧ offset = 0) ∨ FirmwareText memory (realModeAddress segment offset)) := by
  refine firmwareString_decides.congr ?_
  split
  case isTrue hnull => exact iff_of_true rfl (.inl hnull)
  case isFalse hnull => exact (or_iff_right hnull).symm

theorem legacyFirmwareDiskMatch_decides :
    Decides InsideFirmware memory (legacyFirmwareDiskMatch devices entry)
      (FirmwareDisk memory devices entry) := by
  unfold legacyFirmwareDiskMatch
  split
  case isTrue hreject =>
    refine Decides.pure (iff_of_false Bool.false_ne_true fun h => ?_)
    obtain ⟨hdisk, ⟨hclass, hsub⟩, ⟨hbus, hdevice, hfunction⟩, hhandler⟩ := h.disk
    simp [hdisk, hclass, hsub, hhandler, UInt32.not_lt.mpr hbus, UInt32.not_lt.mpr hdevice,
      UInt32.not_lt.mpr hfunction] at hreject
  case isFalse haccept =>
  have hentry : FirmwareEntry entry := by
    simp only [ne_eq, not_or, not_not, gt_iff_lt, UInt32.not_lt] at haccept
    obtain ⟨hdisk, hclass, hsub, hbus, hdevice, hfunction, hhandler⟩ := haccept
    exact ⟨hdisk, ⟨hclass, hsub⟩, ⟨hbus, hdevice, hfunction⟩, hhandler⟩
  split
  case isTrue hnone =>
    refine Decides.pure (iff_of_false Bool.false_ne_true fun h => ?_)
    rw [hasAhciController_iff.mpr h.controller] at hnone
    cases hnone
  case isFalse hone =>
  have hcontroller : OneAhciController devices entry := hasAhciController_iff.mp (by simpa using hone)
  refine ((stableRange_decides (by decide)).guard fun hstable => description_decides.guard fun _ =>
    manufacturer_decides.guard fun _ => notPadding_decides (by decide) hstable).congr ?_
  constructor
  · rintro ⟨hstable, hdescription, hmanufacturer, hpadding⟩
    exact ⟨hentry, hcontroller, hstable, hdescription, hmanufacturer, hpadding⟩
  · rintro ⟨-, -, hstable, hdescription, hmanufacturer, hpadding⟩
    exact ⟨hstable, hdescription, hmanufacturer, hpadding⟩

/-- What the match says of an entry. -/
structure DiskVerdict (memory : SnapshotMemory) (devices : List LegacyPciIdentity) (entry : BbsTable) :
    Prop where
  accepts : (legacyFirmwareDiskMatch devices entry).run memory = true ↔ FirmwareDisk memory devices entry
  inside : (legacyFirmwareDiskMatch devices entry).Within InsideFirmware memory
  order : ∀ devices', devices.Perm devices' →
    (legacyFirmwareDiskMatch devices' entry).run memory = (legacyFirmwareDiskMatch devices entry).run memory

theorem FirmwareDisk.perm {devices' : List LegacyPciIdentity} (hperm : devices.Perm devices')
    (h : FirmwareDisk memory devices entry) : FirmwareDisk memory devices' entry :=
  ⟨h.disk, h.controller.perm hperm, h.code⟩

/-- **The match is exact**, reads inside the snapshot, and does not look at the order of the inventory. -/
theorem firmwareDiskMatch_exact : DiskVerdict memory devices entry := by
  have hdecides := @legacyFirmwareDiskMatch_decides memory
  refine ⟨hdecides.run_iff, hdecides.within, fun devices' hperm => ?_⟩
  rw [Bool.eq_iff_iff, hdecides.run_iff, hdecides.run_iff]
  exact ⟨FirmwareDisk.perm hperm.symm, FirmwareDisk.perm hperm⟩

/-! ### A changed block -/

/-- Every byte of the blocks of a range is as it was. -/
def BlocksUnchanged (memory : SnapshotMemory) (address bytes : Nat) : Prop :=
  ∀ offset < diskFirmwareBytes,
    (address - diskFirmwareBase) / diskFirmwareBlock ≤ offset / diskFirmwareBlock →
      offset / diskFirmwareBlock ≤ (address + bytes - 1 - diskFirmwareBase) / diskFirmwareBlock →
        memory (.snapshot offset) = memory (.live offset)

/-- A handler at `F000:0000` and a description at `F000:0100`; the last byte of the handler's block is no
longer what it was. -/
def changedFirmware : SnapshotMemory
  | .snapshot 0x10000 => 0xCF
  | .snapshot 0x10100 => 0x41
  | .snapshot _ => 0
  | .valid _ => 1
  | .live 0x10000 => 0xCF
  | .live 0x10100 => 0x41
  | .live 0x101FF => 1
  | .live _ => 0

def ahciDevice : LegacyPciIdentity where
  locationStatus := .success
  configStatus := .success
  segment := 0
  bus := 0
  device := 0x1F
  function := 2
  config := [0x86, 0x80, 0x22, 0x1D, 0, 0, 0, 0, 6, 1, 6, 1]

def ahciEntry : BbsTable :=
  { (default : BbsTable) with
    device := 0x1F
    function := 2
    class_ := 1
    subClass := 6
    deviceType := bbsHardDisk
    bootHandlerSegment := 0xF000
    descStringOffset := 0x100
    descStringSegment := 0xF000 }

/-- The entry is accepted although its handler's block has changed; at a bus that PCI does not know it is
not, although its controller is there. -/
theorem firmwareDiskMatch_changedBlock :
    ((legacyFirmwareDiskMatch [ahciDevice] ahciEntry).run changedFirmware = true ∧
      ¬ BlocksUnchanged changedFirmware
        (realModeAddress ahciEntry.bootHandlerSegment ahciEntry.bootHandlerOffset) 64) ∧
    (legacyFirmwareDiskMatch [{ ahciDevice with bus := 256 }] { ahciEntry with bus := 256 }).run
        changedFirmware = false ∧
      OneAhciController [{ ahciDevice with bus := 256 }] { ahciEntry with bus := 256 } := by
  refine ⟨⟨by decide +kernel, fun h => ?_⟩, by decide +kernel, ?_⟩
  · have hsame := h 0x101FF (by decide) (by decide) (by decide)
    exact absurd hsame (by decide)
  · exact hasAhciController_iff.mp (by decide +kernel)

end CsmVgaSelector
