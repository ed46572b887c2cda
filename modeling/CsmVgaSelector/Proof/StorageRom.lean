import CsmVgaSelector.Rom.Storage
import Mathlib.Logic.Function.Basic

/-!
# What the verification of the storage ROMs covers

The scan starts at the beginning of shadow memory and jumps over each storage ROM it has compared, so it
compares the leading ones: those that begin inside no leading ROM before them. A ROM that an entry matched
is covered when it leads or lies within those that do, and a change goes unseen exactly where it begins
inside a leading ROM and ends past what the leading ROMs cover (`verify_sound_iff`).
-/

namespace CsmVgaSelector

variable {state : StorageRomState} {live : Nat → UInt8} {offset bytes : Nat}

/-! ### Leading ROMs -/

/-- A storage ROM that begins inside no leading ROM before it. -/
def LeadingRom (state : StorageRomState) (offset : Nat) : Prop :=
  offset < shadowBytes ∧ offset % blockBytes = 0 ∧ (storageRom state offset).isSome = true ∧
    ∀ earlier, earlier < offset → LeadingRom state earlier →
      ∀ bytes ∈ storageRom state earlier, earlier + bytes ≤ offset
  termination_by offset

/-- No leading ROM reaches past the offset from before it. -/
def NoneReaches (state : StorageRomState) (offset : Nat) : Prop :=
  ∀ earlier, earlier < offset → LeadingRom state earlier →
    ∀ bytes ∈ storageRom state earlier, earlier + bytes ≤ offset

theorem leadingRom_iff : LeadingRom state offset ↔ offset < shadowBytes ∧ offset % blockBytes = 0 ∧
    (storageRom state offset).isSome = true ∧ NoneReaches state offset := by
  rw [LeadingRom, NoneReaches]

/-- Past a block with no storage ROM, nothing new reaches. -/
theorem NoneReaches.skip (h : NoneReaches state offset) (hblock : offset % blockBytes = 0)
    (hnone : storageRom state offset = none) : NoneReaches state (offset + blockBytes) := by
  intro earlier hlt hleading bytes hbytes
  obtain ⟨-, hblock', hsome, -⟩ := leadingRom_iff.mp hleading
  have hne : earlier ≠ offset := by
    rintro rfl
    rw [hnone] at hsome
    cases hsome
  unfold blockBytes at *
  have hle := h earlier (by omega) hleading bytes hbytes
  omega

/-- Past a leading ROM, nothing reaches: what begins inside it does not lead. -/
theorem NoneReaches.jump (h : NoneReaches state offset) (hleading : LeadingRom state offset)
    (hbytes : storageRom state offset = some bytes) : NoneReaches state (offset + bytes) := by
  intro earlier hlt hleading' bytes' hbytes'
  rcases Nat.lt_trichotomy earlier offset with hbefore | rfl | hinside
  · have hle := h earlier hbefore hleading' bytes' hbytes'
    omega
  · rw [Option.mem_def, hbytes, Option.some.injEq] at hbytes'
    omega
  · have hle := (leadingRom_iff.mp hleading').2.2.2 offset hinside hleading bytes hbytes
    omega

/-- **The scan compares the leading ROMs.** -/
theorem verifyFrom_iff (hreaches : NoneReaches state offset) (hblock : offset % blockBytes = 0) :
    verifyFrom state live offset = .success ↔ ∀ start ≥ offset, LeadingRom state start →
      ∀ bytes ∈ storageRom state start, sameMemory state.snapshot live start bytes = true := by
  fun_induction verifyFrom state live offset with
  | case1 offset hlt hnone ih =>
      have hblock' : (offset + blockBytes) % blockBytes = 0 := by
        rw [Nat.add_mod_right, hblock]
      rw [ih (hreaches.skip hblock hnone) hblock']
      constructor
      · intro h start hstart hleading
        obtain ⟨-, hstartBlock, hsome, -⟩ := leadingRom_iff.mp hleading
        have hne : start ≠ offset := by
          rintro rfl
          rw [hnone] at hsome
          cases hsome
        refine h start ?_ hleading
        unfold blockBytes at *
        omega
      · exact fun h start hstart => h start (Nat.le_of_add_right_le hstart)
  | case2 offset hlt bytes hbytes hdiffers =>
      have hleading : LeadingRom state offset :=
        leadingRom_iff.mpr ⟨hlt, hblock, by rw [hbytes]; rfl, hreaches⟩
      constructor
      · intro hcontra
        cases hcontra
      · intro h
        rw [h offset (Nat.le_refl offset) hleading bytes hbytes] at hdiffers
        cases hdiffers
  | case3 offset hlt bytes hbytes hsame ih =>
      have hleading : LeadingRom state offset :=
        leadingRom_iff.mpr ⟨hlt, hblock, by rw [hbytes]; rfl, hreaches⟩
      have hblock' : (offset + bytes) % blockBytes = 0 := by
        rw [Nat.add_mod, hblock, (storageRom_bytes hbytes).2, Nat.add_zero, Nat.zero_mod]
      rw [ih (hreaches.jump hleading hbytes) hblock']
      constructor
      · intro h start hstart hleading' bytes' hbytes'
        rcases Nat.lt_or_ge start (offset + bytes) with hinside | hafter
        · have hsame' : start = offset := by
            by_contra hne
            have hle := (leadingRom_iff.mp hleading').2.2.2 offset (by omega) hleading bytes hbytes
            omega
          subst hsame'
          obtain rfl := Option.mem_unique hbytes' hbytes
          simpa using hsame
        · exact h start hafter hleading' bytes' hbytes'
      · exact fun h start hstart => h start (Nat.le_of_add_right_le hstart)
  | case4 offset hend =>
      constructor
      · intro _ start hstart hleading
        have hlt := (leadingRom_iff.mp hleading).1
        omega
      · exact fun _ => rfl

theorem verify_iff : state.legacyStorageRomVerify live = .success ↔ ∀ start, LeadingRom state start →
    ∀ bytes ∈ storageRom state start, sameMemory state.snapshot live start bytes = true := by
  have hreaches : NoneReaches state 0 := fun earlier hlt => absurd hlt (Nat.not_lt_zero earlier)
  rw [StorageRomState.legacyStorageRomVerify, verifyFrom_iff hreaches rfl]
  exact forall_congr' fun start => imp_iff_right (Nat.zero_le start)

/-! ### Covered bytes -/

/-- The byte is in the ROM at the offset. -/
def InRom (state : StorageRomState) (offset address : Nat) : Prop :=
  ∃ bytes pcir, rom state offset = some (bytes, pcir) ∧ offset ≤ address ∧ address < offset + bytes

theorem inRom_iff_storageRom (h : (storageRom state offset).isSome = true) {address : Nat} :
    InRom state offset address ↔
      ∃ bytes ∈ storageRom state offset, offset ≤ address ∧ address < offset + bytes := by
  unfold storageRom at *
  unfold InRom
  cases hrom : rom state offset with
  | none =>
      rw [hrom] at h
      cases h
  | some found =>
      obtain ⟨bytes, pcir⟩ := found
      rw [hrom] at h
      dsimp only at h ⊢
      split at h
      case isFalse => cases h
      case isTrue hstorage => simp [hstorage]

theorem sameMemory_iff {memory memory' : Nat → UInt8} : sameMemory memory memory' offset bytes = true ↔
    ∀ address, offset ≤ address → address < offset + bytes → memory address = memory' address := by
  rw [sameMemory, List.all_eq_true]
  constructor
  · intro h address hle hlt
    have hsame := h (address - offset) (List.mem_range.mpr (by omega))
    rwa [beq_iff_eq, Nat.add_sub_cancel' hle] at hsame
  · intro h index hindex
    rw [List.mem_range] at hindex
    rw [beq_iff_eq]
    exact h (offset + index) (by omega) (by omega)

/-- The verification finds every change among some bytes when each of them is in a leading ROM, and
misses a change of any other. -/
theorem verify_finds_iff {among : Nat → Prop} :
    (∀ live, state.legacyStorageRomVerify live = .success →
      ∀ address, among address → live address = state.snapshot address) ↔
    ∀ address, among address → ∃ start, LeadingRom state start ∧ InRom state start address := by
  constructor
  · intro hfinds address hamong
    by_contra huncovered
    have hverified : state.legacyStorageRomVerify
        (Function.update state.snapshot address (state.snapshot address + 1)) = .success := by
      rw [verify_iff]
      intro start hleading bytes hbytes
      rw [sameMemory_iff]
      intro other hle hlt
      have hne : other ≠ address := by
        rintro rfl
        refine huncovered ⟨start, hleading, ?_⟩
        exact (inRom_iff_storageRom (leadingRom_iff.mp hleading).2.2.1).mpr
          ⟨bytes, hbytes, hle, hlt⟩
      rw [Function.update_of_ne hne]
    have hsame := hfinds _ hverified address hamong
    rw [Function.update_self] at hsame
    simp at hsame
  · intro hcovered live hverified address hamong
    obtain ⟨start, hleading, hin⟩ := hcovered address hamong
    obtain ⟨bytes, hbytes, hle, hlt⟩ :=
      (inRom_iff_storageRom (leadingRom_iff.mp hleading).2.2.1).mp hin
    have hsame := verify_iff.mp hverified start hleading bytes hbytes
    exact (sameMemory_iff.mp hsame address hle hlt).symm

/-! ### The ROM of an entry -/

/-- The ROM that an entry matched is a storage ROM to the verification too. -/
theorem storageRom_of_match {entry : BbsTable}
    (h : (legacyStorageRomMatch state live entry).1 = true) :
    handlerRom entry < shadowBytes ∧ handlerRom entry % blockBytes = 0 ∧
      (storageRom state (handlerRom entry)).isSome = true := by
  unfold legacyStorageRomMatch at h
  split at h
  case isTrue => cases h
  case isFalse hshadow =>
    split at h
    case h_1 => cases h
    case h_2 bytes pcir hrom =>
      split at h
      case isTrue => cases h
      case isFalse hchecks =>
        rw [Bool.or_eq_true, Bool.or_eq_true, not_or, not_or] at hchecks
        obtain ⟨-, hcontrollers⟩ := hchecks
        rw [Bool.not_eq_true, Bool.not_eq_false'] at hshadow hcontrollers
        simp only [entryInShadow, Bool.and_eq_true, beq_iff_eq, decide_eq_true_eq] at hshadow
        obtain ⟨⟨⟨⟨⟨⟨⟨-, hclass⟩, -⟩, -⟩, -⟩, hbase⟩, hend⟩, hblock⟩ := hshadow
        refine ⟨?_, ?_, ?_⟩
        · unfold handlerRom
          omega
        · unfold handlerRom blockBytes shadowBase at *
          omega
        · rw [storageRom, hrom]
          dsimp only
          rw [if_pos]
          · rfl
          · unfold romIsControllers at hcontrollers
            split at hcontrollers
            case h_2 => cases hcontrollers
            case h_1 device hdevices =>
              have hmem : device ∈ state.devices := by
                have hfilter := List.mem_singleton_self device
                rw [← hdevices] at hfilter
                exact (List.mem_filter.mp hfilter).1
              simp only [Bool.and_eq_true, beq_iff_eq] at hcontrollers
              obtain ⟨⟨⟨⟨-, hconfig⟩, hidentity⟩, hdeviceClass⟩, -⟩ := hcontrollers
              rw [romIsStorage, List.any_eq_true]
              refine ⟨device, hmem, ?_⟩
              rw [hconfig, hidentity, hdeviceClass, hclass]
              rfl

/-- The leading ROMs go on to the end of the entry's ROM from any of them that ends inside it. -/
def TailsCovered (state : StorageRomState) (entry : BbsTable) : Prop :=
  ∀ earlier < handlerRom entry, LeadingRom state earlier → ∀ bytes ∈ storageRom state earlier,
    handlerRom entry < earlier + bytes → ∀ address ≥ earlier + bytes,
      InRom state (handlerRom entry) address → ∃ start, LeadingRom state start ∧ InRom state start address

/-- **When the verification is sound for an entry.** A verification that succeeds finds the ROM of a
matched entry unchanged, unless the ROM begins inside a leading ROM and ends past what these cover. -/
theorem verify_sound_iff {entry : BbsTable} (h : (legacyStorageRomMatch state live entry).1 = true) :
    (∀ live', state.legacyStorageRomVerify live' = .success →
      ∀ address, InRom state (handlerRom entry) address → live' address = state.snapshot address) ↔
    TailsCovered state entry := by
  obtain ⟨hlt, hblock, hsome⟩ := storageRom_of_match h
  rw [verify_finds_iff]
  constructor
  · exact fun hcovered _ _ _ _ _ _ address _ hin => hcovered address hin
  · intro htails address hin
    by_cases hreaches : NoneReaches state (handlerRom entry)
    · exact ⟨_, leadingRom_iff.mpr ⟨hlt, hblock, hsome, hreaches⟩, hin⟩
    · unfold NoneReaches at hreaches
      push Not at hreaches
      obtain ⟨earlier, hearlier, hleading, bytes, hbytes, hinside⟩ := hreaches
      rcases Nat.lt_or_ge address (earlier + bytes) with hbefore | hafter
      · refine ⟨earlier, hleading, ?_⟩
        refine (inRom_iff_storageRom (leadingRom_iff.mp hleading).2.2.1).mpr
          ⟨bytes, hbytes, ?_, hbefore⟩
        obtain ⟨_, _, _, hle, _⟩ := hin
        omega
      · have hreached : handlerRom entry < earlier + bytes := by omega
        exact htails earlier hearlier hleading bytes hbytes hreached address hafter hin

/-! ### Two ROMs that overlap -/

/-- Memory that holds these bytes at these offsets, and zeros. -/
def memoryOf (pieces : List (Nat × List UInt8)) (offset : Nat) : UInt8 :=
  match pieces.find? fun (start, bytes) => start ≤ offset && offset < start + bytes.length with
  | none => 0
  | some (start, bytes) => bytes[offset - start]!

/-- PCI data of a controller. -/
def samplePcir : List UInt8 :=
  [0x50, 0x43, 0x49, 0x52, 0x86, 0x80, 0x22, 0x1C, 0, 0, 0x18, 0, 0, 0, 0, 0, 0, 0, 0, 0, 0, 0, 0, 0]

/-- A PnP header with its description at `80` and its handler at `0100`. -/
def samplePnp : List UInt8 :=
  [0x24, 0x50, 0x6E, 0x50, 1, 2, 0, 0, 0, 0x43, 0, 0, 0, 0, 0, 0, 0x80, 0, 1, 6, 0, 0, 0, 1, 0, 0, 0,
    0, 0, 0, 0, 0]

/-- A ROM of two blocks in the second and third block. -/
def sampleRom : List (Nat × List UInt8) :=
  [(0x200, [0x55, 0xAA, 2]), (0x218, [0x40, 0, 0x60, 0]), (0x240, samplePcir), (0x260, samplePnp),
    (0x280, [0x44])]

/-- And a ROM of two blocks in the first and second block. -/
def overlappingRoms : List (Nat × List UInt8) :=
  [(0, [0x55, 0xAA, 2]), (0x18, [0x1C, 0]), (0x1C, samplePcir)] ++ sampleRom

def romState (pieces : List (Nat × List UInt8)) : StorageRomState where
  snapshot := memoryOf pieces
  valid _ := 1
  devices :=
    [{ locationStatus := .success
       configStatus := .success
       segment := 0
       bus := 0
       device := 0
       function := 0
       config := [0x86, 0x80, 0x22, 0x1C, 0, 0, 0, 0, 0, 0, 6, 1] }]

/-- A disk whose boot handler is in the ROM at `0200`. -/
def romEntry : BbsTable :=
  { (default : BbsTable) with
    class_ := 1
    subClass := 6
    deviceType := bbsHardDisk
    bootHandlerSegment := 0xC020
    bootHandlerOffset := 0x100
    descStringSegment := 0xC020
    descStringOffset := 0x80 }

/-- The last byte of the second ROM has changed. -/
def changedRoms : Nat → UInt8 := memoryOf ((0x5FF, [0xFF]) :: overlappingRoms)

/-- The change in the ROM that begins inside the first is not seen. -/
theorem verify_sound_overlapping :
    (legacyStorageRomMatch (romState overlappingRoms) (memoryOf overlappingRoms) romEntry).1 = true ∧
    (romState overlappingRoms).legacyStorageRomVerify changedRoms = .success ∧
    InRom (romState overlappingRoms) (handlerRom romEntry) 0x5FF ∧
    changedRoms 0x5FF ≠ (romState overlappingRoms).snapshot 0x5FF := by
  refine ⟨by decide +kernel, by decide +kernel, ⟨1024, 0x40, ?_⟩, by decide +kernel⟩
  decide +kernel

/-- And a ROM of one block in the third, where the first ends. -/
def coveredRoms : List (Nat × List UInt8) :=
  [(0x400, [0x55, 0xAA, 1]), (0x418, [0x1C, 0]), (0x41C, samplePcir)] ++ overlappingRoms

theorem coveredRoms_first : storageRom (romState coveredRoms) 0 = some 0x400 := by decide +kernel

theorem coveredRoms_leads : NoneReaches (romState coveredRoms) 0 ∧ LeadingRom (romState coveredRoms) 0 := by
  have hnone : NoneReaches (romState coveredRoms) 0 := fun earlier hlt => absurd hlt (Nat.not_lt_zero earlier)
  exact ⟨hnone, leadingRom_iff.mpr ⟨by decide, rfl, by rw [coveredRoms_first]; rfl, hnone⟩⟩

/-- The third is compared from its beginning, and covers what the first leaves of the second. -/
theorem coveredRoms_tails : TailsCovered (romState coveredRoms) romEntry := by
  have hsecond : storageRom (romState coveredRoms) (handlerRom romEntry) = some 0x400 := by decide +kernel
  have hthird : storageRom (romState coveredRoms) 0x400 = some 0x200 := by decide +kernel
  have hplace : handlerRom romEntry = 0x200 := by decide
  have hleading : LeadingRom (romState coveredRoms) 0x400 := leadingRom_iff.mpr
    ⟨by decide, rfl, by rw [hthird]; rfl, coveredRoms_leads.1.jump coveredRoms_leads.2 coveredRoms_first⟩
  intro earlier hlt hearlier bytes hbytes hinside address haddress hin
  obtain ⟨size, hsize, -, hbelow⟩ := (inRom_iff_storageRom (by rw [hsecond]; rfl)).mp hin
  have hblock : earlier % 512 = 0 := (leadingRom_iff.mp hearlier).2.1
  obtain rfl : earlier = 0 := by omega
  rw [Option.mem_def, coveredRoms_first, Option.some.injEq] at hbytes
  rw [Option.mem_def, hsecond, Option.some.injEq] at hsize
  exact ⟨0x400, hleading, (inRom_iff_storageRom (by rw [hthird]; rfl)).mpr ⟨0x200, hthird, by omega, by omega⟩⟩

/-- The ROM that begins inside the first ends with the third, so that a change in its last byte is seen. -/
theorem verify_sound_iff_covered : ¬ NoneReaches (romState coveredRoms) (handlerRom romEntry) ∧
    (romState coveredRoms).legacyStorageRomVerify (memoryOf ((0x5FF, [0xFF]) :: coveredRoms)) ≠ .success := by
  have hmatch : (legacyStorageRomMatch (romState coveredRoms) (memoryOf coveredRoms) romEntry).1 = true := by
    decide +kernel
  have hin : InRom (romState coveredRoms) (handlerRom romEntry) 0x5FF :=
    ⟨1024, 0x40, by decide +kernel, by decide, by decide⟩
  refine ⟨fun hnone => ?_, fun hverified => ?_⟩
  · exact absurd (hnone 0 (by decide) coveredRoms_leads.2 0x400 coveredRoms_first) (by decide)
  · have hsame := (verify_sound_iff hmatch).mpr coveredRoms_tails _ hverified 0x5FF hin
    exact absurd hsame (by decide +kernel)

end CsmVgaSelector
