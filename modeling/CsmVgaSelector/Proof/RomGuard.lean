import CsmVgaSelector.Rom.Guard

/-!
# The first conflict

The guard reports clear when no header of the copy stands in its way and the disk handler is elsewhere; else
it names the first header that does. What stands in the way does not depend on the size of the copy, so a
smaller copy meets no conflict that a larger one does not (`romGuard_exact`).
-/

namespace CsmVgaSelector

section

variable {shadow valid : Nat → UInt8} {offset bytes : Nat}

/-! ### What the bytes say -/

/-- The range lies in shadow memory, in blocks that could be read. -/
structure ValidRange (valid : Nat → UInt8) (offset bytes : Nat) : Prop where
  pos : 0 < bytes
  inside : offset + bytes ≤ shadowBytes
  valid : ∀ place, offset ≤ place → place < offset + bytes → valid (place / blockBytes) = 1

theorem blocksReadable_iff : blocksReadable valid offset bytes = true ↔ ValidRange valid offset bytes := by
  simp only [blocksReadable, Bool.and_eq_true, Bool.not_eq_true', Bool.or_eq_false_iff,
    beq_eq_false_iff_ne, decide_eq_false_iff_not, List.all_eq_true, List.mem_range, Bool.or_eq_true,
    decide_eq_true_eq, beq_iff_eq]
  constructor
  · rintro ⟨⟨⟨hpos, hoffset⟩, hbytes⟩, hblocks⟩
    refine ⟨Nat.pos_of_ne_zero hpos, by omega, fun place hfrom hto => ?_⟩
    have hlast : place / blockBytes < (offset + bytes - 1) / blockBytes + 1 :=
      Nat.lt_succ_of_le (Nat.div_le_div_right (by omega))
    have hfirst : offset / blockBytes ≤ place / blockBytes := Nat.div_le_div_right hfrom
    exact (hblocks _ hlast).resolve_left (Nat.not_lt.mpr hfirst)
  · intro h
    have hpos := h.pos
    have hinside := h.inside
    refine ⟨⟨⟨by omega, by omega⟩, by omega⟩, fun block hblock => ?_⟩
    by_cases hbefore : block < offset / blockBytes
    · exact .inl hbefore
    · right
      have hlast : block * blockBytes ≤ offset + bytes - 1 :=
        Nat.le_trans (Nat.mul_le_mul_right _ (Nat.le_of_lt_succ hblock)) (Nat.div_mul_le_self _ _)
      have hfirst := Nat.mod_lt offset (show 0 < blockBytes by decide)
      have hsplit := Nat.div_add_mod offset blockBytes
      rw [Nat.mul_comm] at hsplit
      by_cases hsame : block * blockBytes ≤ offset
      · have heq : offset / blockBytes = block :=
          Nat.le_antisymm (Nat.not_lt.mp hbefore) ((Nat.le_div_iff_mul_le (by decide)).mpr hsame)
        rw [← heq]
        exact h.valid offset (Nat.le_refl _) (by omega)
      · have hstart : block * blockBytes / blockBytes = block := Nat.mul_div_cancel _ (by decide)
        rw [← hstart]
        exact h.valid _ (by omega) (by omega)

/-- The blocks of a copy are those of its range. -/
theorem validRange_copy {copyBytes : Nat} (hpos : 0 < copyBytes) (hsize : copyBytes ≤ shadowBytes) :
    ValidRange valid 0 copyBytes ↔ ∀ block, block * blockBytes < copyBytes → valid block = 1 := by
  constructor
  · intro h block hblock
    have hplace := h.valid (block * blockBytes) (Nat.zero_le _) (by omega)
    rwa [Nat.mul_div_cancel _ (by decide)] at hplace
  · intro h
    refine ⟨hpos, by omega, fun place _ hplace => h _ ?_⟩
    have hle := Nat.div_mul_le_self place blockBytes
    omega

/-- A header with a size, and room for a ROM of that size. -/
structure ExtentAt (shadow valid : Nat → UInt8) (offset bytes : Nat) : Prop where
  readable : ValidRange valid offset 3
  signature : shadow offset = 0x55 ∧ shadow (offset + 1) = 0xAA
  bytes_eq : bytes = (shadow (offset + 2)).toNat * blockBytes
  pos : 0 < bytes
  inside : offset + bytes ≤ shadowBytes

/-- PCI data of a legacy image, in the ROM and in blocks that could be read, that names a vendor. -/
structure IdentityAt (shadow valid : Nat → UInt8) (offset bytes : Nat) (vendor device : UInt16) : Prop where
  header : 0x1C ≤ bytes ∧ ValidRange valid offset 0x1C
  data : ∃ pcir length, pcir = (le16 shadow (offset + 0x18)).toNat ∧
    0x1C ≤ pcir ∧ pcir + 0x18 ≤ bytes ∧ ValidRange valid (offset + pcir) 0x18 ∧
    memoryHolds shadow (offset + pcir) [0x50, 0x43, 0x49, 0x52] = true ∧
    length = (le16 shadow (offset + pcir + 0x0A)).toNat ∧
    0x18 ≤ length ∧ pcir + length ≤ bytes ∧ ValidRange valid (offset + pcir) length ∧
    shadow (offset + pcir + 0x14) = 0 ∧
    vendor = le16 shadow (offset + pcir + 4) ∧ device = le16 shadow (offset + pcir + 6)
  vendor_ne : vendor ≠ 0 ∧ vendor ≠ 0xFFFF

theorem romExtent_iff : romExtent shadow valid offset = (true, bytes) ↔
    ExtentAt shadow valid offset bytes := by
  unfold romExtent
  dsimp only
  split
  case isTrue h =>
    refine iff_of_false (by simp) fun hextent => ?_
    simp [blocksReadable_iff.mpr hextent.readable, hextent.signature] at h
  case isFalse h =>
    simp only [Bool.or_eq_true, not_or, Bool.not_eq_true, Bool.not_eq_false', bne_iff_ne,
      not_not, blocksReadable_iff] at h
    obtain ⟨⟨hreadable, hfirst⟩, hsecond⟩ := h
    simp only [Prod.mk.injEq, Bool.and_eq_true, bne_iff_ne, decide_eq_true_eq]
    constructor
    · rintro ⟨⟨hne, hle⟩, rfl⟩
      have hinside := hreadable.inside
      exact ⟨hreadable, ⟨hfirst, hsecond⟩, rfl, Nat.pos_of_ne_zero hne, by omega⟩
    · intro hextent
      have hinside := hextent.inside
      have hpos := hextent.pos
      rw [hextent.bytes_eq] at hinside hpos
      exact ⟨⟨Nat.ne_of_gt hpos, by omega⟩, hextent.bytes_eq.symm⟩

theorem romIdentity_iff {vendor device : UInt16} :
    romIdentity shadow valid offset bytes = (true, vendor, device) ↔
      IdentityAt shadow valid offset bytes vendor device := by
  unfold romIdentity
  dsimp only
  constructor
  · intro h
    split at h
    case isTrue => cases h
    case isFalse hheader =>
    split at h
    case isTrue => cases h
    case isFalse hpcir =>
    split at h
    case isTrue => cases h
    case isFalse htext =>
    split at h
    case isTrue => cases h
    case isFalse hlength =>
      simp only [Bool.or_eq_true, decide_eq_true_eq, not_or, Bool.not_eq_true, Bool.not_eq_false',
        Nat.not_lt, gt_iff_lt, bne_iff_ne, not_not, blocksReadable_iff] at hheader hpcir htext hlength
      simp only [Prod.mk.injEq, Bool.and_eq_true, bne_iff_ne] at h
      obtain ⟨hne, rfl, rfl⟩ := h
      obtain ⟨⟨⟨hpcirMin, hpcirMax⟩, hroom⟩, hpcirReadable⟩ := hpcir
      obtain ⟨⟨⟨hlengthMin, hlengthMax⟩, hlengthReadable⟩, htype⟩ := hlength
      refine ⟨⟨by omega, hheader.2⟩, ⟨_, _, rfl, hpcirMin, by omega, hpcirReadable, htext, rfl,
        hlengthMin, by omega, hlengthReadable, htype, rfl, rfl⟩, hne⟩
  · rintro ⟨⟨hbytes, hheader⟩, ⟨pcir, length, rfl, hpcirMin, hroom, hpcirReadable, htext, rfl, hlengthMin,
      hlengthMax, hlengthReadable, htype, rfl, rfl⟩, hne⟩
    rw [if_neg, if_neg, if_neg, if_neg]
    · simpa using hne
    · simp [blocksReadable_iff.mpr hlengthReadable, htype]
      omega
    · simp [htext]
    · simp [blocksReadable_iff.mpr hpcirReadable]
      omega
    · simp [blocksReadable_iff.mpr hheader]
      omega

end

/-! ### One header -/

section

variable (shadow valid : Nat → UInt8) (activeVendor activeDevice : UInt16) (activeBytes offset : Nat)

def HeaderAt : Prop := shadow offset = 0x55 ∧ shadow (offset + 1) = 0xAA

/-- A header inside the active ROM that is no ROM, has no PCI identity, or has that of the active card. -/
def Harmless : Prop :=
  offset < activeBytes ∧
    ((¬ ∃ bytes, ExtentAt shadow valid offset bytes) ∨
      (¬ ∃ bytes vendor device, ExtentAt shadow valid offset bytes ∧
        IdentityAt shadow valid offset bytes vendor device) ∨
      ∃ bytes, ExtentAt shadow valid offset bytes ∧
        IdentityAt shadow valid offset bytes activeVendor activeDevice)

def Offends : Prop :=
  HeaderAt shadow offset ∧ ¬ Harmless shadow valid activeVendor activeDevice activeBytes offset

/-- What is reported about an offending header. -/
structure Reports (result : LegacyRomGuardResult) : Prop where
  address : result.address = shadowBase + offset
  reason : activeBytes ≤ offset ∧ (¬ ∃ bytes, ExtentAt shadow valid offset bytes) ∧
      result.reason = .unknownLayout ∨
    (∃ bytes, ExtentAt shadow valid offset bytes) ∧ result.reason = .overlap

end

section

variable {shadow valid : Nat → UInt8} {activeVendor activeDevice : UInt16}
  {activeBytes copyBytes diskHandler offset bytes : Nat} {result : LegacyRomGuardResult}

theorem ExtentAt.unique {bytes' : Nat} (h : ExtentAt shadow valid offset bytes)
    (h' : ExtentAt shadow valid offset bytes') : bytes = bytes' :=
  h.bytes_eq.trans h'.bytes_eq.symm

theorem IdentityAt.unique {vendor device vendor' device' : UInt16}
    (h : IdentityAt shadow valid offset bytes vendor device)
    (h' : IdentityAt shadow valid offset bytes vendor' device') :
    vendor = vendor' ∧ device = device' := by
  obtain ⟨_, _, rfl, _, _, _, _, _, _, _, _, _, hvendor, hdevice⟩ := h.data
  obtain ⟨_, _, rfl, _, _, _, _, _, _, _, _, _, hvendor', hdevice'⟩ := h'.data
  exact ⟨hvendor.trans hvendor'.symm, hdevice.trans hdevice'.symm⟩

theorem not_extentAt (h : (romExtent shadow valid offset).1 = false) :
    ¬ ∃ bytes, ExtentAt shadow valid offset bytes := by
  rintro ⟨bytes, hextent⟩
  rw [romExtent_iff.mpr hextent] at h
  cases h

theorem extentAt_of_romExtent (h : (romExtent shadow valid offset).1 = true) :
    ExtentAt shadow valid offset (romExtent shadow valid offset).2 :=
  romExtent_iff.mp (Prod.ext h rfl)

/-- For a ROM of this extent, harmlessness is what the identity read from it says. -/
theorem ExtentAt.harmless_iff (h : ExtentAt shadow valid offset bytes) :
    Harmless shadow valid activeVendor activeDevice activeBytes offset ↔
      offset < activeBytes ∧ ((romIdentity shadow valid offset bytes).1 = false ∨
        (romIdentity shadow valid offset bytes).2.1 = activeVendor ∧
          (romIdentity shadow valid offset bytes).2.2 = activeDevice) := by
  refine and_congr_right fun _ => ?_
  constructor
  · rintro (hnone | hnone | ⟨bytes', hextent, hidentity⟩)
    · exact absurd ⟨bytes, h⟩ hnone
    · left
      by_contra hidentified
      have htrue : (romIdentity shadow valid offset bytes).1 = true := by simpa using hidentified
      exact hnone ⟨bytes, _, _, h, romIdentity_iff.mp (Prod.ext htrue rfl)⟩
    · obtain rfl := h.unique hextent
      rw [romIdentity_iff.mpr hidentity]
      exact .inr ⟨rfl, rfl⟩
  · intro hjudged
    by_cases hidentified : (romIdentity shadow valid offset bytes).1 = true
    · obtain ⟨hvendor, hdevice⟩ := hjudged.resolve_left (by simp [hidentified])
      refine .inr (.inr ⟨bytes, h, romIdentity_iff.mp ?_⟩)
      rw [← hvendor, ← hdevice, ← hidentified]
    · refine .inr (.inl ?_)
      rintro ⟨bytes', vendor, device, hextent, hidentity⟩
      obtain rfl := h.unique hextent
      rw [romIdentity_iff.mpr hidentity] at hidentified
      exact hidentified rfl

theorem judgeHeader_spec :
    (judgeHeader shadow valid activeVendor activeDevice activeBytes offset = none →
      ¬ Offends shadow valid activeVendor activeDevice activeBytes offset) ∧
    ∀ result, judgeHeader shadow valid activeVendor activeDevice activeBytes offset = some result →
      Offends shadow valid activeVendor activeDevice activeBytes offset ∧
        Reports shadow valid activeBytes offset result := by
  unfold judgeHeader
  dsimp only
  split
  case isTrue hheader =>
    refine ⟨fun _ hoffends => ?_, fun result hresult => ?_⟩
    · exact hheader.elim (absurd hoffends.1.1) (absurd hoffends.1.2)
    · cases hresult
  case isFalse hheader =>
  have hheader' : HeaderAt shadow offset := by simpa [HeaderAt, not_or] using hheader
  split
  case isTrue hextent =>
    have hnone := not_extentAt (by simpa using hextent)
    split
    case isTrue hinside =>
      refine ⟨fun _ hoffends => hoffends.2 ⟨hinside, .inl hnone⟩, fun result hresult => ?_⟩
      cases hresult
    case isFalse hbeyond =>
      refine ⟨fun hresult => ?_, ?_⟩
      · cases hresult
      · rintro _ ⟨⟩
        exact ⟨⟨hheader', fun hharmless => hbeyond hharmless.1⟩, rfl, .inl ⟨Nat.not_lt.mp hbeyond, hnone, rfl⟩⟩
  case isFalse hextent =>
    have hextent' := extentAt_of_romExtent (by simpa using hextent)
    split
    case isTrue hinside =>
      refine ⟨fun _ hoffends => hoffends.2 (hextent'.harmless_iff.mpr hinside), fun result hresult => ?_⟩
      cases hresult
    case isFalse hconflict =>
      refine ⟨fun hresult => ?_, ?_⟩
      · cases hresult
      · rintro _ ⟨⟩
        exact ⟨⟨hheader', mt hextent'.harmless_iff.mp hconflict⟩, rfl, .inr ⟨⟨_, hextent'⟩, rfl⟩⟩

/-! ### The scan -/

/-- The offset is that of a block of the copy, from this one on. -/
structure BlockFrom (start copyBytes offset : Nat) : Prop where
  aligned : offset % blockBytes = 0
  from_ : start ≤ offset
  inside : offset < copyBytes

theorem scanShadow_spec (hblock : offset % blockBytes = 0) :
    (scanShadow shadow valid activeVendor activeDevice activeBytes copyBytes offset = none →
      ∀ later, BlockFrom offset copyBytes later →
        ¬ Offends shadow valid activeVendor activeDevice activeBytes later) ∧
    ∀ result, scanShadow shadow valid activeVendor activeDevice activeBytes copyBytes offset =
        some result →
      ∃ first, BlockFrom offset copyBytes first ∧
        Offends shadow valid activeVendor activeDevice activeBytes first ∧
        Reports shadow valid activeBytes first result ∧
        ∀ earlier, BlockFrom offset first earlier →
          ¬ Offends shadow valid activeVendor activeDevice activeBytes earlier := by
  fun_induction scanShadow shadow valid activeVendor activeDevice activeBytes copyBytes offset with
  | case1 offset hlt found hjudge =>
      refine ⟨fun hresult => ?_, ?_⟩
      · cases hresult
      · rintro _ ⟨⟩
        obtain ⟨hoffends, hreports⟩ := judgeHeader_spec.2 found hjudge
        refine ⟨offset, ⟨hblock, Nat.le_refl _, hlt⟩, hoffends, hreports, fun earlier hearlier => ?_⟩
        exact absurd hearlier.inside (Nat.not_lt.mpr hearlier.from_)
  | case2 offset hlt hjudge ih =>
      obtain ⟨hnone, hsome⟩ := ih (by rw [Nat.add_mod_right, hblock])
      have hhere := judgeHeader_spec.1 hjudge
      have hrest : ∀ {limit later}, BlockFrom offset limit later →
          later = offset ∨ BlockFrom (offset + blockBytes) limit later := by
        intro limit later hlater
        have haligned := hlater.aligned
        have hfrom := hlater.from_
        by_cases hsame : later = offset
        · exact .inl hsame
        · refine .inr ⟨haligned, ?_, hlater.inside⟩
          unfold blockBytes at *
          omega
      constructor
      · intro hresult later hlater
        rcases hrest hlater with rfl | hlater
        · exact hhere
        · exact hnone hresult later hlater
      · intro result hresult
        obtain ⟨first, hfirst, hoffends, hreports, hearlier⟩ := hsome result hresult
        have hbefore := hfirst.from_
        refine ⟨first, ⟨hfirst.aligned, by omega, hfirst.inside⟩, hoffends, hreports, ?_⟩
        intro earlier hearlier'
        rcases hrest hearlier' with rfl | hearlier'
        · exact hhere
        · exact hearlier earlier hearlier'
  | case3 offset hend =>
      refine ⟨fun _ later hlater => ?_, fun result hresult => ?_⟩
      · have hfrom := hlater.from_
        have hinside := hlater.inside
        omega
      · cases hresult

/-! ### The verdict -/

/-- The active card's ROM is at the start of shadow memory, with this extent. -/
structure ActiveRom (shadow valid : Nat → UInt8) (activeVendor activeDevice : UInt16)
    (activeBytes : Nat) : Prop where
  extent : ExtentAt shadow valid 0 activeBytes
  identity : IdentityAt shadow valid 0 activeBytes activeVendor activeDevice

/-- The handler of the disk interrupt is where the copy goes. -/
def HandlerInside (copyBytes diskHandler : Nat) : Prop :=
  shadowBase ≤ diskHandler ∧ diskHandler < shadowBase + copyBytes

/-- The copy is a whole number of blocks, and fits into shadow memory. -/
structure CopySize (copyBytes : Nat) : Prop where
  pos : 0 < copyBytes
  fits : copyBytes ≤ shadowBytes
  whole : copyBytes % blockBytes = 0

/-- Nothing stands in the way of the copy. -/
structure NoConflict (shadow valid : Nat → UInt8) (copyBytes : Nat) (activeVendor activeDevice : UInt16)
    (diskHandler : Nat) : Prop where
  readable : ∀ block, block * blockBytes < copyBytes → valid block = 1
  active : ∃ activeBytes, ActiveRom shadow valid activeVendor activeDevice activeBytes ∧
    ∀ offset, BlockFrom blockBytes copyBytes offset →
      HeaderAt shadow offset → Harmless shadow valid activeVendor activeDevice activeBytes offset
  handler : ¬ HandlerInside copyBytes diskHandler

/-- The first conflict of the copy, in address order, and what is reported about it. -/
inductive FirstConflict (shadow valid : Nat → UInt8) (copyBytes : Nat)
    (activeVendor activeDevice : UInt16) (diskHandler activeBytes : Nat) (result : LegacyRomGuardResult) :
    Prop where
  | header (first : Nat) (hblock : BlockFrom blockBytes copyBytes first)
      (hoffends : Offends shadow valid activeVendor activeDevice activeBytes first)
      (hearlier : ∀ earlier, BlockFrom blockBytes first earlier →
        ¬ Offends shadow valid activeVendor activeDevice activeBytes earlier)
      (hreports : Reports shadow valid activeBytes first result)
  | handler (hnone : ∀ offset, BlockFrom blockBytes copyBytes offset →
        ¬ Offends shadow valid activeVendor activeDevice activeBytes offset)
      (hinside : HandlerInside copyBytes diskHandler) (hreason : result.reason = .diskHandlerOverlap)
      (haddress : result.address = diskHandler)

theorem ActiveRom.unique {activeBytes' : Nat}
    (h : ActiveRom shadow valid activeVendor activeDevice activeBytes)
    (h' : ActiveRom shadow valid activeVendor activeDevice activeBytes') : activeBytes = activeBytes' :=
  h.extent.unique h'.extent

theorem not_offends : ¬ Offends shadow valid activeVendor activeDevice activeBytes offset ↔
    (HeaderAt shadow offset → Harmless shadow valid activeVendor activeDevice activeBytes offset) := by
  rw [Offends, not_and, not_not]

theorem Reports.not_clear (h : Reports shadow valid activeBytes offset result) :
    result.reason ≠ .clear := by
  rcases h.reason with ⟨-, -, hreason⟩ | ⟨-, hreason⟩
  · simp [hreason]
  · simp [hreason]

/-- Once the copy is readable and the active ROM identified, the guard finds the first conflict or none. -/
theorem inspect_of_active (hsize : CopySize copyBytes)
    (hreadable : ∀ block, block * blockBytes < copyBytes → valid block = 1)
    (hactive : ActiveRom shadow valid activeVendor activeDevice activeBytes)
    (hresult : legacyRomGuardInspect shadow valid copyBytes activeVendor activeDevice diskHandler =
      result) :
    result.reason ≠ .clear ∧
        FirstConflict shadow valid copyBytes activeVendor activeDevice diskHandler activeBytes result ∨
      result.reason = .clear ∧
        (∀ offset, BlockFrom blockBytes copyBytes offset →
          ¬ Offends shadow valid activeVendor activeDevice activeBytes offset) ∧
        ¬ HandlerInside copyBytes diskHandler := by
  have hguard : ¬ (copyBytes = 0 ∨ copyBytes > shadowBytes ∨ copyBytes % blockBytes ≠ 0 ∨
      activeVendor = 0 ∨ activeVendor = 0xFFFF) := by
    have hpos := hsize.pos
    have hfits := hsize.fits
    have hvendor := hactive.identity.vendor_ne
    simp only [hsize.whole, hvendor, ne_eq, not_true_eq_false, or_false]
    omega
  have hrange := blocksReadable_iff.mpr ((validRange_copy hsize.pos hsize.fits).mpr hreadable)
  unfold legacyRomGuardInspect at hresult
  rw [if_neg hguard, if_neg (by simp [hrange])] at hresult
  simp only [romExtent_iff.mpr hactive.extent, romIdentity_iff.mpr hactive.identity, Bool.not_true,
    bne_self_eq_false, Bool.or_self, Bool.false_eq_true, if_false] at hresult
  obtain ⟨hnone, hsome⟩ := @scanShadow_spec shadow valid activeVendor activeDevice activeBytes copyBytes
    blockBytes (Nat.mod_self _)
  split at hresult
  case h_1 found hscan =>
    obtain ⟨first, hblock, hoffends, hreports, hearlier⟩ := hsome found hscan
    subst hresult
    exact .inl ⟨hreports.not_clear, .header first hblock hoffends hearlier hreports⟩
  case h_2 hscan =>
    split at hresult
    case isTrue hinside =>
      subst hresult
      exact .inl ⟨by simp, .handler (hnone hscan) hinside rfl rfl⟩
    case isFalse houtside =>
      subst hresult
      exact .inr ⟨rfl, hnone hscan, houtside⟩

/-- Clear is reported only of a copy that is readable, over an active ROM that is identified. -/
theorem active_of_clear (hsize : CopySize copyBytes)
    (h : (legacyRomGuardInspect shadow valid copyBytes activeVendor activeDevice diskHandler).reason =
      .clear) :
    (∀ block, block * blockBytes < copyBytes → valid block = 1) ∧
      ∃ activeBytes, ActiveRom shadow valid activeVendor activeDevice activeBytes := by
  unfold legacyRomGuardInspect at h
  split at h
  case isTrue => cases h
  split at h
  case isTrue => cases h
  case isFalse hreadable =>
  dsimp only at h
  split at h
  case isTrue => cases h
  case isFalse hactive =>
    simp only [Bool.or_eq_true, not_or, Bool.not_eq_true, Bool.not_eq_false', bne_iff_ne, not_not]
      at hreadable hactive
    obtain ⟨⟨⟨hextent, hidentified⟩, hvendor⟩, hdevice⟩ := hactive
    have hrange := blocksReadable_iff.mp hreadable
    refine ⟨(validRange_copy hsize.pos hsize.fits).mp hrange, _, extentAt_of_romExtent hextent, ?_⟩
    refine romIdentity_iff.mp (Prod.ext hidentified (Prod.ext hvendor hdevice))

theorem clear_iff (hsize : CopySize copyBytes) :
    (legacyRomGuardInspect shadow valid copyBytes activeVendor activeDevice diskHandler).reason = .clear ↔
      NoConflict shadow valid copyBytes activeVendor activeDevice diskHandler := by
  constructor
  · intro h
    obtain ⟨hreadable, activeBytes, hactive⟩ := active_of_clear hsize h
    rcases inspect_of_active hsize hreadable hactive rfl with ⟨hnot, -⟩ | ⟨-, hnone, hhandler⟩
    · exact absurd h hnot
    · exact ⟨hreadable, ⟨activeBytes, hactive, fun offset hoffset => not_offends.mp (hnone offset hoffset)⟩,
        hhandler⟩
  · rintro ⟨hreadable, ⟨activeBytes, hactive, hharmless⟩, hhandler⟩
    rcases inspect_of_active hsize hreadable hactive rfl with ⟨-, hconflict⟩ | ⟨hclear, -⟩
    · cases hconflict with
      | header first hblock hoffends => exact absurd (hharmless first hblock) (mt not_offends.mpr (not_not.mpr hoffends))
      | handler _ hinside => exact absurd hinside hhandler
    · exact hclear

/-- A smaller copy meets no conflict that a larger one does not. -/
theorem NoConflict.smaller {copyBytes' : Nat}
    (h : NoConflict shadow valid copyBytes activeVendor activeDevice diskHandler)
    (hle : copyBytes' ≤ copyBytes) :
    NoConflict shadow valid copyBytes' activeVendor activeDevice diskHandler := by
  obtain ⟨activeBytes, hactive, hharmless⟩ := h.active
  refine ⟨fun block hblock => h.readable block (by omega), ⟨activeBytes, hactive, ?_⟩, ?_⟩
  · exact fun offset hoffset =>
      hharmless offset ⟨hoffset.aligned, hoffset.from_, Nat.lt_of_lt_of_le hoffset.inside hle⟩
  · exact fun hinside => h.handler ⟨hinside.1, by
      have hupper := hinside.2
      omega⟩

/-- What the guard reports. -/
structure GuardVerdict (shadow valid : Nat → UInt8) (copyBytes : Nat) (activeVendor activeDevice : UInt16)
    (diskHandler : Nat) : Prop where
  clear :
    (legacyRomGuardInspect shadow valid copyBytes activeVendor activeDevice diskHandler).reason = .clear ↔
      NoConflict shadow valid copyBytes activeVendor activeDevice diskHandler
  conflict : ∀ activeBytes, (∀ block, block * blockBytes < copyBytes → valid block = 1) →
    ActiveRom shadow valid activeVendor activeDevice activeBytes →
    (legacyRomGuardInspect shadow valid copyBytes activeVendor activeDevice diskHandler).reason ≠ .clear →
      FirstConflict shadow valid copyBytes activeVendor activeDevice diskHandler activeBytes
        (legacyRomGuardInspect shadow valid copyBytes activeVendor activeDevice diskHandler)
  smaller : ∀ copyBytes', CopySize copyBytes' → copyBytes' < copyBytes →
    (legacyRomGuardInspect shadow valid copyBytes activeVendor activeDevice diskHandler).reason = .clear →
      (legacyRomGuardInspect shadow valid copyBytes' activeVendor activeDevice diskHandler).reason = .clear

/-- **The guard is exact**, and reports conflicts in address order. -/
theorem romGuard_exact (hsize : CopySize copyBytes) :
    GuardVerdict shadow valid copyBytes activeVendor activeDevice diskHandler := by
  refine ⟨clear_iff hsize, fun activeBytes hreadable hactive hnot => ?_, fun copyBytes' hsize' hlt h => ?_⟩
  · rcases inspect_of_active hsize hreadable hactive rfl with ⟨-, hconflict⟩ | ⟨hclear, -⟩
    · exact hconflict
    · exact absurd hclear hnot
  · have hnone := (clear_iff hsize).mp h
    exact (clear_iff hsize').mpr (hnone.smaller (Nat.le_of_lt hlt))

/-- A ROM of four blocks with PCI data, in which another header stands that has none; and behind it a header
of one block. -/
def twoRoms (offset : Nat) : UInt8 :=
  ([(0, 0x55), (1, 0xAA), (2, 4), (0x18, 0x1C), (0x1C, 0x50), (0x1D, 0x43), (0x1E, 0x49), (0x1F, 0x52),
    (0x20, 0xDE), (0x21, 0x10), (0x22, 0x34), (0x23, 0x12), (0x26, 0x18), (1024, 0x55), (1025, 0xAA), (1026, 1),
    (2048, 0x55), (2049, 0xAA), (2050, 1)].lookup offset).getD 0

/-- A copy of five blocks meets the second ROM, and one of three blocks would not. -/
theorem romGuard_exact_twoRoms :
    (legacyRomGuardInspect twoRoms (fun _ => 1) 2560 0x10DE 0x1234 0).address = shadowBase + 2048 ∧
    FirstConflict twoRoms (fun _ => 1) 2560 0x10DE 0x1234 0 2048
        (legacyRomGuardInspect twoRoms (fun _ => 1) 2560 0x10DE 0x1234 0) ∧
      (legacyRomGuardInspect twoRoms (fun _ => 1) 1536 0x10DE 0x1234 0).reason = .clear := by
  have hactive : ActiveRom twoRoms (fun _ => 1) 0x10DE 0x1234 2048 :=
    ⟨romExtent_iff.mp (by decide +kernel), romIdentity_iff.mp (by decide +kernel)⟩
  have hmeets : (legacyRomGuardInspect twoRoms (fun _ => 1) 2560 0x10DE 0x1234 0).reason ≠ .clear := by
    decide +kernel
  have hclear : (legacyRomGuardInspect twoRoms (fun _ => 1) 2048 0x10DE 0x1234 0).reason = .clear := by
    decide +kernel
  have hlarge : CopySize 2560 := ⟨by decide, by decide, by decide⟩
  have hwhole : CopySize 2048 := ⟨by decide, by decide, by decide⟩
  have hsmall : CopySize 1536 := ⟨by decide, by decide, by decide⟩
  exact ⟨by decide +kernel, (romGuard_exact hlarge).conflict 2048 (fun _ _ => rfl) hactive hmeets,
    (romGuard_exact hwhole).smaller 1536 hsmall (by decide) hclear⟩

end

end CsmVgaSelector
