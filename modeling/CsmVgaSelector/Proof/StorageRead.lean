import CsmVgaSelector.Proof.RomGuard
import CsmVgaSelector.Rom.StorageRead

/-!
# The storage ROM match reads inside the ROM

Byte by byte the match yields what it yields of the whole memory, and every byte of the snapshot it reads is
one of the three that tell the extent of the ROM, or within that extent.
-/

namespace CsmVgaSelector

open Peek

/-- The memories of a state and the live area. -/
def StorageRomState.memory (state : StorageRomState) (live : Nat → UInt8) : SnapshotMemory
  | .snapshot offset => state.snapshot offset
  | .valid block => state.valid block
  | .live offset => live offset

/-- Every byte of the range may be read. -/
def Covers (inside : SnapshotPlace → Prop) (offset bytes : Nat) : Prop :=
  ∀ place, offset ≤ place → place < offset + bytes → inside (.snapshot place)

section

variable {state : StorageRomState} {live : Nat → UInt8} {inside : SnapshotPlace → Prop}
  {entry : BbsTable} {offset bytes pcir header start limit index place : Nat}

theorem Covers.part {first count : Nat} (h : Covers inside offset bytes) (hfirst : offset ≤ first)
    (hlast : first + count ≤ offset + bytes) : Covers inside first count :=
  fun place hfrom hto => h place (by omega) (by omega)

/-! ### Words and texts -/

theorem peekLe16_yields (h : Covers inside offset 2) :
    Yields inside (state.memory live) (peekLe16 offset) (le16 state.snapshot offset) := by
  have hlow := h offset (by omega) (by omega)
  have hhigh := h (offset + 1) (by omega) (by omega)
  exact Yields.bind_peek hlow (Yields.bind_peek hhigh Yields.pure)

theorem peekIs_yields {value : UInt8} (h : inside (.snapshot offset)) :
    Yields inside (state.memory live) (peekIs offset value) (state.snapshot offset == value) :=
  Yields.bind_peek h Yields.pure

theorem peekIs_decides {value : UInt8} (h : inside (.snapshot offset)) :
    Decides inside (state.memory live) (peekIs offset value) (state.snapshot offset = value) :=
  (Decides.of_yields (peekIs_yields h)).congr beq_iff_eq

theorem memoryHolds_cons {memory : Nat → UInt8} {value : UInt8} {text : List UInt8} :
    memoryHolds memory offset (value :: text) = true ↔
      memory offset = value ∧ memoryHolds memory (offset + 1) text = true := by
  simp only [memoryHolds, List.all_eq_true, List.mem_range, List.length_cons, beq_iff_eq,
    Nat.forall_lt_succ_left]
  simp only [Nat.add_zero, List.getElem!_cons_zero, List.getElem!_cons_succ, Nat.add_assoc,
    Nat.add_comm 1]

theorem peekHolds_decides {text : List UInt8} (h : Covers inside offset text.length) :
    Decides inside (state.memory live) (peekHolds offset text)
      (memoryHolds state.snapshot offset text = true) := by
  induction text generalizing offset with
  | nil => exact Decides.pure (by simp [memoryHolds])
  | cons value text ih =>
      rw [List.length_cons] at h
      have hhere := h offset (by omega) (by omega)
      have hrest : Covers inside (offset + 1) text.length := h.part (by omega) (by omega)
      exact ((peekIs_decides hhere).guard fun _ => ih hrest).congr memoryHolds_cons.symm

theorem peekReadable_decides (hvalid : ∀ block < shadowBytes / blockBytes, inside (.valid block)) :
    Decides inside (state.memory live) (peekReadable offset bytes)
      (ValidRange state.valid offset bytes) := by
  unfold peekReadable
  split
  case isTrue hoff =>
    refine Decides.pure (iff_of_false Bool.false_ne_true fun h => ?_)
    have hpos := h.pos
    have hinside := h.inside
    omega
  case isFalse hin =>
    have hbounds : 0 < bytes ∧ offset + bytes ≤ shadowBytes := by omega
    unfold blockBytes shadowBytes at *
    refine (blocksAreValid_decides fun index hindex => hvalid _ (by omega)).congr ?_
    rw [blocks_of_range (fun block => state.memory live (.valid block) = 1) hbounds.1]
    constructor
    · intro h
      refine ⟨hbounds.1, hbounds.2, fun place hfrom hto => ?_⟩
      have hplace := h (place - offset) (by omega)
      rwa [Nat.add_sub_cancel' hfrom] at hplace
    · exact fun h index hindex => h.valid _ (by omega) (by omega)

theorem romReadable_iff : romReadable state offset bytes = true ↔ ValidRange state.valid offset bytes :=
  blocksReadable_iff

theorem peekReadable_romReadable
    (hvalid : ∀ block < shadowBytes / blockBytes, inside (.valid block)) :
    Decides inside (state.memory live) (peekReadable offset bytes)
      (romReadable state offset bytes = true) :=
  (peekReadable_decides hvalid).congr romReadable_iff.symm

/-! ### The ROM -/

theorem peekPcir_yields (h : Covers inside offset bytes) (hheader : 0x1C ≤ bytes) :
    Yields inside (state.memory live) (peekPcir offset bytes)
      (let pcir := (le16 state.snapshot (offset + 0x18)).toNat
       if pcir < 0x1C ∨ pcir > bytes ∨ 0x18 > bytes - pcir then none
       else
         let length := (le16 state.snapshot (offset + pcir + 0x0A)).toNat
         let vendor := le16 state.snapshot (offset + pcir + 4)
         if memoryHolds state.snapshot (offset + pcir) [0x50, 0x43, 0x49, 0x52] && length ≥ 0x18 &&
             length ≤ bytes - pcir && state.snapshot (offset + pcir + 0x14) == 0 && vendor != 0 &&
             vendor != 0xFFFF then
           some (bytes, pcir)
         else none) := by
  unfold peekPcir
  refine Yields.bind (peekLe16_yields (h.part (by omega) (by omega))) ?_
  dsimp only
  generalize (le16 state.snapshot (offset + 0x18)).toNat = pcir
  refine Yields.unless (fun hpcir => ?_) fun hpcir => if_pos hpcir
  rw [if_neg hpcir]
  have hdata : Covers inside (offset + pcir) 0x18 := h.part (by omega) (by omega)
  refine Yields.bind (peekLe16_yields (hdata.part (by omega) (by omega))) ?_
  refine Yields.guard (peekHolds_decides (hdata.part (by omega) (by simp))) (fun hsigned => ?_)
    fun hsigned => if_neg (by simp [hsigned])
  refine Yields.unless (fun hlength => ?_) fun hlength => if_neg ?_
  · refine Yields.guard (peekIs_decides (hdata _ (by omega) (by omega))) (fun hlegacy => ?_)
      fun hlegacy => if_neg (by simp [hlegacy])
    refine Yields.bind (peekLe16_yields (hdata.part (by omega) (by omega))) ?_
    refine Yields.unless (fun hvendor => ?_) fun hvendor => if_neg ?_
    · obtain ⟨hzero, hones⟩ := not_or.mp hvendor
      rw [if_pos]
      · exact Yields.pure
      · simp only [hsigned, hlegacy, hzero, hones, bne_iff_ne, ne_eq, not_false_eq_true, beq_self_eq_true,
          Bool.and_eq_true, decide_eq_true_eq, true_and, and_true]
        omega
    · rcases hvendor with hvendor | hvendor <;> simp [hvendor]
  · simp only [Bool.and_eq_true, decide_eq_true_eq, not_and]
    omega

/-- How much of shadow memory the ROM at the offset says it takes. -/
def declaredBytes (state : StorageRomState) (offset : Nat) : Nat :=
  (state.snapshot (offset + 2)).toNat * blockBytes

/-- The bytes that tell the extent of the ROM at the offset, and those within it. -/
def InsideRom (state : StorageRomState) (offset : Nat) : SnapshotPlace → Prop
  | .snapshot place | .live place =>
      offset ≤ place ∧ place < offset + max 3 (declaredBytes state offset) ∧ place < shadowBytes
  | .valid block => block < shadowBytes / blockBytes

theorem covers_declared (h : offset + declaredBytes state offset ≤ shadowBytes) :
    Covers (InsideRom state offset) offset (declaredBytes state offset) :=
  fun place hfrom hto => ⟨hfrom, by omega, by omega⟩

theorem peekRom_yields :
    Yields (InsideRom state offset) (state.memory live) (peekRom offset) (rom state offset) := by
  unfold peekRom rom
  have hvalid : ∀ block < shadowBytes / blockBytes, InsideRom state offset (.valid block) :=
    fun block hblock => hblock
  refine Yields.guard_branch (peekReadable_romReadable hvalid) fun hheaded => ?_
  have hhead : Covers (InsideRom state offset) offset 3 := by
    intro place hfrom hto
    have hinside := (romReadable_iff.mp hheaded).inside
    exact ⟨hfrom, by omega, by omega⟩
  have hsignature : memoryHolds state.snapshot offset [0x55, 0xAA] = true ↔
      state.snapshot offset = 0x55 ∧ state.snapshot (offset + 1) = 0xAA := by
    rw [memoryHolds_cons, memoryHolds_cons]
    simp [memoryHolds]
  refine Yields.guard (peekHolds_decides (hhead.part (Nat.le_refl _) (by simp))) (fun hsigned => ?_)
    fun hsigned => if_pos ?_
  · obtain ⟨hfirst, hsecond⟩ := hsignature.mp hsigned
    rw [if_neg (by simp [hfirst, hsecond])]
    refine Yields.bind (Yields.peek (hhead _ (by omega) (by omega))) ?_
    refine Yields.guard_branch (peekReadable_romReadable hvalid) fun hreadable => ?_
    have hrange : ValidRange state.valid offset (declaredBytes state offset) :=
      romReadable_iff.mp hreadable
    refine peekPcir_yields (covers_declared hrange.inside) ?_
    have hpos := hrange.pos
    change 0x1C ≤ declaredBytes state offset
    unfold declaredBytes blockBytes at *
    omega
  · rwa [hsignature, not_and_or] at hsigned

/-- A ROM in blocks that could be read, with the PCI data of a legacy image that names a vendor. -/
structure StorageRomAt (state : StorageRomState) (offset bytes pcir : Nat) : Prop where
  readable : ValidRange state.valid offset bytes
  signature : state.snapshot offset = 0x55 ∧ state.snapshot (offset + 1) = 0xAA
  bytes_eq : bytes = declaredBytes state offset
  pcir_eq : pcir = (le16 state.snapshot (offset + 0x18)).toNat
  pcir_inside : 0x1C ≤ pcir ∧ pcir + 0x18 ≤ bytes
  pcir_signature : memoryHolds state.snapshot (offset + pcir) [0x50, 0x43, 0x49, 0x52] = true
  pcir_length : 0x18 ≤ (le16 state.snapshot (offset + pcir + 0x0A)).toNat ∧
    pcir + (le16 state.snapshot (offset + pcir + 0x0A)).toNat ≤ bytes
  legacy : state.snapshot (offset + pcir + 0x14) = 0
  vendor : le16 state.snapshot (offset + pcir + 4) ≠ 0 ∧ le16 state.snapshot (offset + pcir + 4) ≠ 0xFFFF

/-- The header of a readable ROM is readable. -/
theorem ValidRange.head (h : ValidRange state.valid offset bytes) (hbytes : 0x1C ≤ bytes) :
    ValidRange state.valid offset 0x1C := by
  have hinside := h.inside
  exact ⟨by decide, by omega, fun place hfrom hto => h.valid place hfrom (by omega)⟩

theorem rom_iff : rom state offset = some (bytes, pcir) ↔ StorageRomAt state offset bytes pcir := by
  unfold rom
  dsimp only
  constructor
  · intro h
    split at h
    case isTrue => cases h
    split at h
    case isTrue => cases h
    case isFalse hsignature =>
    split at h
    case isTrue => cases h
    case isFalse hreadable =>
    split at h
    case isTrue => cases h
    case isFalse hpcir =>
    split at h
    case isFalse => cases h
    case isTrue hdata =>
    cases h
    simp only [Bool.and_eq_true, decide_eq_true_eq, beq_iff_eq, bne_iff_ne] at hdata
    obtain ⟨⟨⟨⟨⟨hsigned, hlow⟩, hhigh⟩, hlegacy⟩, hzero⟩, hones⟩ := hdata
    have hrange := romReadable_iff.mp (by simpa using hreadable)
    exact ⟨hrange, by simpa [not_or] using hsignature, rfl, rfl, by omega, hsigned, by omega, hlegacy,
      hzero, hones⟩
  · rintro ⟨hreadable, hsignature, rfl, rfl, hinside, hsigned, hlength, hlegacy, hvendor⟩
    have hheader : romReadable state offset 0x1C = true :=
      romReadable_iff.mpr (hreadable.head (by omega))
    have hrange : romReadable state offset ((state.snapshot (offset + 2)).toNat * blockBytes) = true :=
      romReadable_iff.mpr hreadable
    change 0x1C ≤ _ ∧ _ ≤ (state.snapshot (offset + 2)).toNat * blockBytes at hinside
    have hbound := hlength.2
    change _ ≤ (state.snapshot (offset + 2)).toNat * blockBytes at hbound
    rw [if_neg (by simp [hheader]), if_neg (by simp [hsignature]), if_neg (by simp [hrange]),
      if_neg (by omega), if_pos]
    · rfl
    · simp only [hsigned, hlegacy, hvendor, Bool.and_eq_true, decide_eq_true_eq, beq_self_eq_true, bne_iff_ne,
        ne_eq, not_false_eq_true, true_and, and_true]
      omega

/-- What is known of a ROM that is there. -/
theorem rom_bounds {bytes pcir : Nat} (h : rom state offset = some (bytes, pcir)) :
    bytes = declaredBytes state offset ∧ offset + bytes ≤ shadowBytes ∧ 0x1C ≤ bytes ∧
      pcir + 0x18 ≤ bytes := by
  have hrom := rom_iff.mp h
  have hfrom := hrom.pcir_inside.1
  have hto := hrom.pcir_inside.2
  exact ⟨hrom.bytes_eq, hrom.readable.inside, by omega, hto⟩

/-! ### Strings -/

theorem peekScanRomString_yields (h : Covers inside offset bytes) :
    Yields inside (state.memory live) (peekScanRomString offset bytes start limit index)
      (scanRomString state offset bytes start limit index) := by
  induction limit generalizing index with
  | zero => exact Yields.pure
  | succ limit ih =>
      rw [peekScanRomString, scanRomString]
      refine Yields.branch Iff.rfl fun hin => ?_
      have hhere := h (offset + index) (by omega) (by omega)
      exact Yields.bind_peek hhere (Yields.branch beq_iff_eq.symm fun _ =>
        Yields.branch (by simp [StorageRomState.memory]) fun _ => ih)

theorem peekRomString_yields {first : UInt16} {optional : Bool} (h : Covers inside offset bytes) :
    Yields inside (state.memory live) (peekRomString offset bytes first optional)
      (romString state offset bytes first optional) := by
  unfold peekRomString romString
  exact Yields.branch beq_iff_eq.symm fun _ => Yields.branch Iff.rfl fun _ => peekScanRomString_yields h

/-! ### PnP headers -/

theorem peekSum_yields {sum : UInt8} (h : Covers inside offset bytes) :
    Yields inside (state.memory live) (peekSum offset bytes sum)
      ((List.range bytes).foldl (fun sum index => sum + state.snapshot (offset + index)) sum) := by
  induction bytes generalizing offset sum with
  | zero => exact Yields.pure
  | succ bytes ih =>
      rw [peekSum, List.range_succ_eq_map, List.foldl_cons, List.foldl_map]
      refine Yields.bind_peek (h offset (by omega) (by omega)) ?_
      have hrest := @ih (offset + 1) (sum + state.snapshot offset) (h.part (by omega) (by omega))
      simp only [Nat.add_assoc, Nat.add_comm 1] at hrest
      exact hrest

theorem peekPnpIsSound_yields (h : Covers inside offset bytes) (hheader : header + 32 ≤ bytes) :
    Yields inside (state.memory live) (peekPnpIsSound offset bytes header)
      (pnpIsSound state offset bytes header) := by
  have hhead : Covers inside (offset + header) 32 := h.part (by omega) (by omega)
  unfold peekPnpIsSound pnpIsSound
  refine Yields.bind_peek (hhead _ (by omega) (by omega)) ?_
  dsimp only [StorageRomState.memory]
  generalize hlength : (state.snapshot (offset + header + 5)).toNat * 16 = length
  refine Yields.guard (peekHolds_decides (hhead.part (by omega) (by simp))) (fun hsigned => ?_)
    fun hsigned => by simp [hsigned]
  refine Yields.guard (peekIs_decides (hhead _ (by omega) (by omega))) (fun hrevised => ?_)
    fun hrevised => by simp [hrevised]
  refine Yields.unless (fun hbounds => ?_) fun hbounds => ?_
  · have hcovers : Covers inside (offset + header) length := h.part (by omega) (by omega)
    refine Yields.bind (peekSum_yields hcovers) ?_
    obtain ⟨hlow, hhigh⟩ : length ≥ 32 ∧ length ≤ bytes - header := by omega
    simp only [hsigned, hrevised, hlow, hhigh, beq_self_eq_true, decide_true, Bool.and_true, Bool.true_and]
    exact Yields.pure
  · have hreject : ¬ (length ≥ 32 ∧ length ≤ bytes - header) := by omega
    rw [Bool.and_eq_false_iff]
    left
    rw [Bool.and_assoc, Bool.and_eq_false_iff]
    right
    rw [← Bool.decide_and]
    exact decide_eq_false hreject

theorem peekHandler_decides (h : Covers inside header 32) :
    Decides inside (state.memory live) (peekHandler entry header)
      (entry.bootHandlerOffset = le16 state.snapshot (header + 22) ∨
        entry.bootHandlerOffset = le16 state.snapshot (header + 26)) := by
  unfold peekHandler
  refine Decides.bind (peekLe16_yields (h.part (by omega) (by omega))) ?_
  by_cases hconnection : le16 state.snapshot (header + 22) = entry.bootHandlerOffset
  · rw [if_pos hconnection]
    exact Decides.pure (iff_of_true rfl (.inl hconnection.symm))
  · rw [if_neg hconnection]
    refine Decides.bind (peekLe16_yields (h.part (by omega) (by omega))) (Decides.pure ?_)
    rw [beq_iff_eq, or_iff_right (Ne.symm hconnection)]
    exact eq_comm

theorem peekPnpNames_yields (h : Covers inside offset bytes) (hheader : header + 32 ≤ bytes) :
    Yields inside (state.memory live) (peekPnpNames entry offset bytes header)
      (pnpNames state entry offset bytes header) := by
  have hhead : Covers inside (offset + header) 32 := h.part (by omega) (by omega)
  unfold peekPnpNames pnpNames
  dsimp only
  refine Yields.guard (peekIs_decides (hhead _ (by omega) (by omega))) (fun hclass => ?_)
    fun hclass => by simp [Ne.symm hclass]
  refine Yields.guard (peekIs_decides (hhead _ (by omega) (by omega))) (fun hsub => ?_)
    fun hsub => by simp [Ne.symm hsub]
  refine Yields.bind (peekLe16_yields (hhead.part (by omega) (by omega))) ?_
  refine Yields.unless (fun hdescription => ?_) fun hdescription => by simp [Ne.symm hdescription]
  refine Yields.bind (peekLe16_yields (hhead.part (by omega) (by omega))) ?_
  refine Yields.unless (fun hmanufacturer => ?_) fun hmanufacturer => by simp [Ne.symm hmanufacturer]
  refine Yields.guard (peekHandler_decides hhead) (fun hhandler => ?_) fun hhandler => by
    obtain ⟨hconnection, hbootstrap⟩ := not_or.mp hhandler
    simp [hconnection, hbootstrap]
  have hnamed : (entry.bootHandlerOffset == le16 state.snapshot (offset + header + 22) ||
      entry.bootHandlerOffset == le16 state.snapshot (offset + header + 26)) = true := by
    simpa using hhandler
  rw [not_not] at hdescription hmanufacturer
  rw [hclass, hsub, hdescription, hmanufacturer, hnamed]
  simp only [beq_self_eq_true, Bool.true_and]
  refine Yields.guard (Decides.of_yields (peekRomString_yields h)) (fun hdescribed => ?_)
    fun hdescribed => by simp [hdescribed]
  rw [hdescribed, Bool.true_and]
  exact peekRomString_yields h

theorem peekFound_yields {found : Nat × Bool} (h : Covers inside offset bytes)
    (hheader : header + 32 ≤ bytes) :
    Yields inside (state.memory live) (peekFound entry offset bytes header found)
      (if pnpNames state entry offset bytes header then
        (found.1 + 1, le16 state.snapshot (offset + header + 14) == 0)
      else found) := by
  refine Yields.guard (Decides.of_yields (peekPnpNames_yields h hheader)) (fun hnames => ?_)
    fun hnames => if_neg hnames
  rw [if_pos hnames]
  exact Yields.bind (peekLe16_yields (h.part (by omega) (by omega))) Yields.pure

theorem peekPnp_yields {turns : Nat} {seen : List Nat} {found : Nat × Bool}
    (h : Covers inside offset bytes) :
    Yields inside (state.memory live) (peekPnp entry offset bytes turns seen header found)
      (scanPnp state entry offset bytes turns seen header found) := by
  induction turns generalizing seen header found with
  | zero =>
      rw [peekPnp, scanPnp]
      exact Yields.branch Iff.rfl fun _ => Yields.pure
  | succ turns ih =>
      rw [peekPnp, scanPnp]
      refine Yields.branch Iff.rfl fun _ => Yields.branch Iff.rfl fun hbounds => ?_
      have hheader : header + 32 ≤ bytes := by omega
      refine Yields.branch Iff.rfl fun _ => ?_
      refine Yields.guard_branch (Decides.of_yields (peekPnpIsSound_yields h hheader)) fun _ => ?_
      exact Yields.bind (peekFound_yields h hheader)
        (Yields.bind (peekLe16_yields (h.part (by omega) (by omega))) ih)

/-! ### The controller -/

theorem peekIdentity_decides {device : LegacyPciIdentity} (h : Covers inside offset bytes)
    (hpcir : pcir + 0x18 ≤ bytes) :
    Decides inside (state.memory live) (peekIdentity device offset pcir)
      (identityMatches state device offset pcir = true) := by
  refine Decides.of_yields ?_
  unfold peekIdentity identityMatches
  refine Yields.bind (peekLe16_yields (h.part (by omega) (by omega))) ?_
  refine Yields.unless (fun hvendor => ?_) fun hvendor => by simp [hvendor]
  rw [beq_iff_eq.mpr (not_not.mp hvendor), Bool.true_and]
  exact Yields.bind (peekLe16_yields (h.part (by omega) (by omega))) Yields.pure

theorem peekIsControllers_yields (h : Covers inside offset bytes) (hpcir : pcir + 0x18 ≤ bytes) :
    Yields inside (state.memory live) (peekIsControllers state.devices entry offset pcir)
      (romIsControllers state entry offset pcir) := by
  unfold peekIsControllers romIsControllers
  generalize state.devices.filter _ = controllers
  rcases controllers with _ | ⟨device, _ | ⟨other, rest⟩⟩
  · exact Yields.pure
  · dsimp only
    refine Yields.unless (fun hsegment => ?_) fun hsegment => ?_
    · obtain ⟨hsegment, hconfig⟩ := not_or.mp hsegment
      rw [not_not] at hsegment
      rw [Bool.not_eq_true] at hconfig
      refine Yields.guard (peekIdentity_decides h hpcir) (fun hidentity => ?_) fun hidentity => by
        simp [hidentity]
      rw [hsegment, hconfig, hidentity]
      exact Yields.pure
    · rcases hsegment with hsegment | hconfig
      · simp [hsegment]
      · simp [hconfig]
  · exact Yields.pure

theorem compareLive_sameMemory (hin : Covers inside offset bytes)
    (hlive : ∀ place, offset ≤ place → place < offset + bytes → inside (.live place)) :
    Decides inside (state.memory live) (compareLive offset bytes)
      (sameMemory state.snapshot live offset bytes = true) := by
  refine (compareLive_decides (fun index hindex => hin _ (by omega) (by omega))
    fun index hindex => hlive _ (by omega) (by omega)).congr ?_
  simp only [sameMemory, List.all_eq_true, List.mem_range, beq_iff_eq, StorageRomState.memory]

/-- **The match reads inside the ROM**, and yields what it yields of the memory as a whole. -/
theorem peekStorageRomMatch_yields :
    Yields (InsideRom state (handlerRom entry)) (state.memory live)
      (peekStorageRomMatch state.devices entry) (legacyStorageRomMatch state live entry) := by
  unfold peekStorageRomMatch legacyStorageRomMatch
  refine Yields.branch Iff.rfl fun _ => ?_
  refine Yields.bind peekRom_yields ?_
  cases hrom : rom state (handlerRom entry) with
  | none => exact Yields.pure
  | some found =>
      obtain ⟨bytes, pcir⟩ := found
      obtain ⟨rfl, hend, hheader, hpcir⟩ := rom_bounds hrom
      have hcovers := covers_declared hend
      dsimp only
      refine Yields.guard (compareLive_sameMemory hcovers fun place hfrom hto => ⟨hfrom, by omega, by omega⟩)
        (fun hsame => ?_) fun hsame => by simp [hsame]
      refine Yields.unless (fun hin => ?_) fun hout => by simp [hout]
      refine Yields.guard (Decides.of_yields (peekIsControllers_yields hcovers hpcir))
        (fun howned => ?_) fun howned => by simp [howned]
      have hin' : entryInRom entry (declaredBytes state (handlerRom entry)) = true := by simpa using hin
      rw [hsame, hin', howned, if_neg (by decide)]
      refine Yields.bind (peekLe16_yields (hcovers.part (by omega) (by omega))) ?_
      exact Yields.bind (peekPnp_yields hcovers) Yields.pure

end

end CsmVgaSelector
