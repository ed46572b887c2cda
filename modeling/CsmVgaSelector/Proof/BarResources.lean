import CsmVgaSelector.Lib.Tiles
import CsmVgaSelector.Pci.BarResources
import CsmVgaSelector.Proof.Compatibility16
import Mathlib.Data.List.Chain
import Mathlib.Data.List.Induction

/-!
# What the report believes of a base address

A list of descriptors is believed exactly when it ends, every part of it is readable, and its ranges lie one
behind the other, on the host's side and on the bus, from the base that the configuration space holds
(`barResources_exact`).
-/

namespace CsmVgaSelector

open Peek

variable {bar : BarExpected} {resource resource' : AddressSpace} {listed : List AddressSpace}
  {scan : BarScan} {snapshot : MemoryMapSnapshot} {memory : Nat → UInt8}

/-! ### One descriptor -/

namespace AddressSpace

/-- Where the range begins on the bus. -/
def bus (resource : AddressSpace) : Nat := resource.hostBase.toNat + resource.translation.toNat

/-- The range fits on both sides, and is of the kind that the configuration space names. -/
structure Acceptable (bar : BarExpected) (resource : AddressSpace) : Prop where
  positive : 0 < resource.length.toNat
  host : resource.hostBase.toNat + resource.length.toNat ≤ 2 ^ 64
  bus : resource.bus + resource.length.toNat ≤ 2 ^ 64
  type : resource.resType = if bar.expectedIo then acpiAddressSpaceTypeIo else acpiAddressSpaceTypeMem
  width : bar.expectedIo = false → resource.granularity = if bar.expected64Bit then 64 else 32
  /-- The last address, or a mask of ones that the bus address is aligned to. -/
  rangeMaximum : resource.rangeMaximum.toNat + 1 = resource.hostBase.toNat + resource.length.toNat ∨
    ∃ bits, resource.rangeMaximum.toNat + 1 = 2 ^ bits ∧ resource.length.toNat ≤ 2 ^ bits ∧
      2 ^ bits ∣ resource.bus

/-- The range behind this one, on both sides. -/
def Follows (resource resource' : AddressSpace) : Prop :=
  resource'.hostBase.toNat = resource.hostBase.toNat + resource.length.toNat ∧
    resource'.bus = resource.bus + resource.length.toNat

/-- Neither end overflows. -/
structure Fits (resource : AddressSpace) : Prop where
  positive : 0 < resource.length.toNat
  host : resource.hostBase.toNat + resource.length.toNat ≤ 2 ^ 64
  bus : resource.bus + resource.length.toNat ≤ 2 ^ 64

theorem gt_max_sub {x y : UInt64} : x > uint64Max - y ↔ 2 ^ 64 ≤ x.toNat + y.toNat := by
  have hx := x.toNat_lt
  have hy := y.toNat_lt
  rw [gt_iff_lt, UInt64.lt_iff_toNat_lt, UInt64.toNat_sub, show uint64Max.toNat = 2 ^ 64 - 1 from rfl]
  omega

theorem toNat_sub_one {x : UInt64} (h : 0 < x.toNat) : (x - 1).toNat = x.toNat - 1 := by
  have hx := x.toNat_lt
  rw [UInt64.toNat_sub, show (1 : UInt64).toNat = 1 from rfl]
  omega

theorem beq_zero_iff {x : UInt64} : (x == 0) = true ↔ x.toNat = 0 := by
  rw [beq_iff_eq, ← UInt64.toNat_inj]
  rfl

theorem hostOverflows_eq_false : resource.hostOverflows = false ↔ 0 < resource.length.toNat ∧
    resource.hostBase.toNat + resource.length.toNat ≤ 2 ^ 64 ∧ resource.bus < 2 ^ 64 := by
  unfold hostOverflows bus
  rw [← Bool.not_eq_true, Bool.or_eq_true, Bool.or_eq_true, decide_eq_true_eq, decide_eq_true_eq,
    beq_zero_iff, gt_max_sub, gt_max_sub]
  constructor
  · intro h
    have hpos : 0 < resource.length.toNat := by omega
    rw [toNat_sub_one hpos] at h
    omega
  · rintro ⟨hpos, hhost, hbus⟩
    rw [toNat_sub_one hpos]
    omega

theorem busBase_toNat (h : resource.hostOverflows = false) : resource.busBase.toNat = resource.bus := by
  have hfits := (hostOverflows_eq_false.mp h).2.2
  unfold bus at hfits ⊢
  rw [busBase, h, if_neg Bool.false_ne_true, UInt64.toNat_add, Nat.mod_eq_of_lt hfits]

theorem fits_iff : (resource.hostOverflows || resource.busOverflows) = false ↔ resource.Fits := by
  rw [Bool.or_eq_false_iff]
  have hbus (h : resource.hostOverflows = false) : resource.busOverflows = false ↔
      resource.bus + resource.length.toNat ≤ 2 ^ 64 := by
    have hpos := (hostOverflows_eq_false.mp h).1
    rw [busOverflows, decide_eq_false_iff_not, gt_max_sub, busBase_toNat h, toNat_sub_one hpos]
    omega
  constructor
  · rintro ⟨h, hbusFits⟩
    obtain ⟨hpos, hhost, -⟩ := hostOverflows_eq_false.mp h
    exact ⟨hpos, hhost, (hbus h).mp hbusFits⟩
  · rintro ⟨hpos, hhost, hbusFits⟩
    have h : resource.hostOverflows = false := hostOverflows_eq_false.mpr ⟨hpos, hhost, by omega⟩
    exact ⟨h, (hbus h).mpr hbusFits⟩

theorem Fits.hostEnd_toNat (h : resource.Fits) :
    resource.hostEnd.toNat + 1 = resource.hostBase.toNat + resource.length.toNat := by
  have hpos := h.positive
  have hhost := h.host
  have hover := (Bool.or_eq_false_iff.mp (fits_iff.mpr h)).1
  rw [hostEnd, hover, if_neg Bool.false_ne_true, UInt64.toNat_sub, UInt64.toNat_add,
    show (1 : UInt64).toNat = 1 from rfl]
  omega

theorem Fits.busBase_toNat (h : resource.Fits) : resource.busBase.toNat = resource.bus :=
  AddressSpace.busBase_toNat (Bool.or_eq_false_iff.mp (fits_iff.mpr h)).1

theorem Fits.busEnd_toNat (h : resource.Fits) :
    resource.busEnd.toNat + 1 = resource.bus + resource.length.toNat := by
  have hbus := h.busBase_toNat
  have hpos := h.positive
  have hfits := h.bus
  rw [busEnd, fits_iff.mpr h, if_neg Bool.false_ne_true, UInt64.toNat_sub, UInt64.toNat_add, hbus,
    show (1 : UInt64).toNat = 1 from rfl]
  omega

/-- A mask of ones is one less than a power of two. -/
theorem mask_iff {mask : UInt64} : (mask &&& (mask + 1) == 0) = true ↔ ∃ bits, mask.toNat + 1 = 2 ^ bits := by
  have hlt := mask.toNat_lt
  rw [beq_zero_iff, UInt64.toNat_and, UInt64.toNat_add, show (1 : UInt64).toNat = 1 from rfl]
  by_cases htop : mask.toNat + 1 = 2 ^ 64
  · rw [htop, Nat.mod_self, Nat.and_zero]
    exact iff_of_true rfl ⟨64, rfl⟩
  · rw [Nat.mod_eq_of_lt (by omega), Nat.and_comm]
    exact Nat.and_sub_one_eq_zero_iff_isPowerOfTwo (Nat.succ_ne_zero _)

theorem aligned_iff {base mask : UInt64} {bits : Nat} (h : mask.toNat + 1 = 2 ^ bits) :
    (base &&& mask == 0) = true ↔ 2 ^ bits ∣ base.toNat := by
  rw [beq_zero_iff, UInt64.toNat_and, show mask.toNat = 2 ^ bits - 1 by omega,
    Nat.and_two_pow_sub_one_eq_mod, Nat.dvd_iff_mod_eq_zero]

theorem rangeMaximumIsValid_iff (h : resource.Fits) : resource.rangeMaximumIsValid = true ↔
    resource.rangeMaximum.toNat + 1 = resource.hostBase.toNat + resource.length.toNat ∨
      ∃ bits, resource.rangeMaximum.toNat + 1 = 2 ^ bits ∧ resource.length.toNat ≤ 2 ^ bits ∧
        2 ^ bits ∣ resource.bus := by
  have hend := h.hostEnd_toNat
  have hliteral : (resource.rangeMaximum == resource.hostEnd) = true ↔
      resource.rangeMaximum.toNat + 1 = resource.hostBase.toNat + resource.length.toNat := by
    rw [beq_iff_eq, ← UInt64.toNat_inj]
    omega
  have hlong : resource.rangeMaximum ≥ resource.length - 1 ↔
      resource.length.toNat ≤ resource.rangeMaximum.toNat + 1 := by
    rw [ge_iff_le, UInt64.le_iff_toNat_le, toNat_sub_one h.positive]
    have hpos := h.positive
    omega
  unfold rangeMaximumIsValid
  split
  case isTrue hends => exact iff_of_true rfl (.inl (hliteral.mp hends))
  case isFalse hends =>
    rw [or_iff_right (mt hliteral.mpr hends)]
    split
    case isTrue hmask =>
      rw [Bool.and_eq_true, decide_eq_true_eq, hlong, mask_iff] at hmask
      obtain ⟨hlength, bits, hbits⟩ := hmask
      rw [aligned_iff hbits, h.busBase_toNat]
      constructor
      · exact fun hdvd => ⟨bits, hbits, by omega, hdvd⟩
      · rintro ⟨bits', hbits', -, hdvd⟩
        rwa [← hbits, hbits']
    case isFalse hmask =>
      refine iff_of_false Bool.false_ne_true ?_
      rintro ⟨bits, hbits, hlength, -⟩
      rw [Bool.and_eq_true, decide_eq_true_eq, hlong, mask_iff] at hmask
      exact hmask ⟨by omega, bits, hbits⟩

theorem typeIsExpected_iff : resource.typeIsExpected bar = true ↔
    resource.resType = if bar.expectedIo then acpiAddressSpaceTypeIo else acpiAddressSpaceTypeMem := by
  unfold typeIsExpected
  by_cases hio : resource.resType = acpiAddressSpaceTypeIo
  · rw [hio]
    cases bar.expectedIo <;> decide
  · by_cases hmem : resource.resType = acpiAddressSpaceTypeMem
    · rw [hmem]
      cases bar.expectedIo <;> decide
    · rw [if_pos (by simp [hio, hmem])]
      refine iff_of_false Bool.false_ne_true fun htype => ?_
      split at htype
      · exact hio htype
      · exact hmem htype

theorem widthIsExpected_iff (h : resource.typeIsExpected bar = true) : resource.widthIsExpected bar = true ↔
    (bar.expectedIo = false → resource.granularity = if bar.expected64Bit then 64 else 32) := by
  unfold widthIsExpected
  rw [typeIsExpected_iff.mp h]
  cases bar.expectedIo with
  | true => exact iff_of_true rfl (fun h => by cases h)
  | false =>
      simp only [Bool.false_eq_true, if_false, beq_self_eq_true, if_true, forall_const]
      by_cases hwide : resource.granularity = 64
      · rw [hwide]
        cases bar.expected64Bit <;> decide
      · by_cases hnarrow : resource.granularity = 32
        · rw [hnarrow]
          cases bar.expected64Bit <;> decide
        · rw [if_pos (by simp [hwide, hnarrow])]
          refine iff_of_false Bool.false_ne_true fun hwidth => ?_
          split at hwidth
          · exact hwide hwidth
          · exact hnarrow hwidth

theorem accepted_iff : resource.Acceptable bar ↔
    resource.typeIsExpected bar = true ∧ resource.widthIsExpected bar = true ∧ resource.Fits ∧
      resource.rangeMaximumIsValid = true := by
  constructor
  · rintro ⟨hpos, hhost, hbus, htype, hwidth, hmaximum⟩
    have hexpected := typeIsExpected_iff.mpr htype
    have hfits : resource.Fits := ⟨hpos, hhost, hbus⟩
    exact ⟨hexpected, (widthIsExpected_iff hexpected).mpr hwidth, hfits,
      (rangeMaximumIsValid_iff hfits).mpr hmaximum⟩
  · rintro ⟨hexpected, hwidth, hfits, hmaximum⟩
    exact ⟨hfits.positive, hfits.host, hfits.bus, typeIsExpected_iff.mp hexpected,
      (widthIsExpected_iff hexpected).mp hwidth, (rangeMaximumIsValid_iff hfits).mp hmaximum⟩

end AddressSpace

/-! ### The descriptors together -/

open AddressSpace

def totalLength (listed : List AddressSpace) : Nat := (listed.map (·.length.toNat)).sum

/-- The ranges make up one window at the base that the configuration space holds. -/
structure Describes (bar : BarExpected) (listed : List AddressSpace) : Prop where
  acceptable : ∀ resource ∈ listed, resource.Acceptable bar
  consecutive : listed.IsChain AddressSpace.Follows
  base : ∀ resource ∈ listed.head?, resource.bus = bar.configBusBase.toNat
  size : totalLength listed < 2 ^ 64

/-- What the loop has put together from these descriptors. -/
structure Gathered (bar : BarExpected) (listed : List AddressSpace) (scan : BarScan) : Prop where
  count : scan.resourceCount = listed.length
  valid : scan.listValid = true ↔ Describes bar listed
  first : Describes bar listed → ∀ resource ∈ listed.head?,
    scan.firstHostBase = resource.hostBase ∧ scan.firstBusBase.toNat = resource.bus
  last : Describes bar listed → ∀ resource ∈ listed.getLast?,
    scan.previousHostEnd = resource.hostEnd ∧ scan.previousBusEnd = resource.busEnd
  combined : Describes bar listed → scan.combinedLength.toNat = totalLength listed

theorem totalLength_concat : totalLength (listed ++ [resource]) = totalLength listed + resource.length.toNat := by
  rw [totalLength, List.map_append, List.sum_append]
  rfl

theorem describes_concat : Describes bar (listed ++ [resource]) ↔
    Describes bar listed ∧ resource.Acceptable bar ∧
      (listed = [] → resource.bus = bar.configBusBase.toNat) ∧
      (∀ last ∈ listed.getLast?, AddressSpace.Follows last resource) ∧
      totalLength listed + resource.length.toNat < 2 ^ 64 := by
  constructor
  · rintro ⟨hacceptable, hconsecutive, hbase, hsize⟩
    rw [List.isChain_append] at hconsecutive
    rw [totalLength_concat] at hsize
    refine ⟨⟨fun other hother => hacceptable other (List.mem_append_left _ hother), hconsecutive.1,
      fun other hother => hbase other ?_, by omega⟩, hacceptable resource (by simp), ?_,
      fun last hlast => hconsecutive.2.2 last hlast resource rfl, hsize⟩
    · rw [List.head?_append, Option.mem_def.mp hother]
      rfl
    · rintro rfl
      exact hbase resource rfl
  · rintro ⟨⟨hacceptable, hconsecutive, hbase, -⟩, haccepted, hfirst, hfollows, hsize⟩
    refine ⟨?_, List.isChain_append.mpr ⟨hconsecutive, List.isChain_singleton _, ?_⟩, ?_, ?_⟩
    · intro other hother
      rcases List.mem_append.mp hother with hother | hother
      · exact hacceptable other hother
      · rwa [List.mem_singleton.mp hother]
    · rintro last hlast other hother
      rw [← Option.mem_some_iff.mp hother]
      exact hfollows last hlast
    · intro other hother
      cases listed with
      | nil =>
          rw [← Option.mem_some_iff.mp hother]
          exact hfirst rfl
      | cons head rest => exact hbase other hother
    · rwa [totalLength_concat]

theorem follows_iff (h : resource.Fits) (h' : resource'.Fits) :
    (!(resource.hostEnd == uint64Max || resource.busEnd == uint64Max ||
      resource'.hostBase != resource.hostEnd + 1 || resource'.busBase != resource.busEnd + 1)) = true ↔
      AddressSpace.Follows resource resource' := by
  have hhost := h.hostEnd_toNat
  have hbus := h.busEnd_toNat
  have hhostEnd := resource.hostEnd.toNat_lt
  have hbusEnd := resource.busEnd.toNat_lt
  have hpos := h'.positive
  have hfits := h'.host
  have hbusFits := h'.bus
  simp only [Bool.not_eq_true', Bool.or_eq_false_iff, beq_eq_false_iff_ne, bne_eq_false_iff_eq, ne_eq,
    ← UInt64.toNat_inj, UInt64.toNat_add, h'.busBase_toNat, show (1 : UInt64).toNat = 1 from rfl,
    show uint64Max.toNat = 2 ^ 64 - 1 from rfl, AddressSpace.Follows]
  omega

theorem gathered_nil : Gathered bar [] {} where
  count := rfl
  valid := iff_of_true rfl ⟨nofun, List.isChain_nil, nofun, Nat.two_pow_pos 64⟩
  first := fun _ => nofun
  last := fun _ => nofun
  combined := fun _ => rfl

theorem joins_iff (h : Gathered bar listed scan) (hdescribes : Describes bar listed) (hfits : resource.Fits) :
    scan.joins bar resource = true ↔ (listed = [] → resource.bus = bar.configBusBase.toNat) ∧
      ∀ last ∈ listed.getLast?, AddressSpace.Follows last resource := by
  unfold BarScan.joins
  have hcount := h.count
  rcases List.eq_nil_or_concat listed with rfl | ⟨before, last, rfl⟩
  · rw [if_pos (show scan.resourceCount = 0 from hcount), beq_iff_eq, ← UInt64.toNat_inj, hfits.busBase_toNat]
    simp
  · obtain ⟨hhostEnd, hbusEnd⟩ := h.last hdescribes last (by simp)
    have hlast := accepted_iff.mp (hdescribes.acceptable last (by simp))
    rw [if_neg (by simp [hcount]), hhostEnd, hbusEnd, follows_iff hlast.2.2.1 hfits]
    simp

/-- One descriptor more. -/
theorem Gathered.add (h : Gathered bar listed scan) :
    Gathered bar (listed ++ [resource]) (scan.add bar resource) := by
  have hcount : (scan.add bar resource).resourceCount = (listed ++ [resource]).length := by
    rw [List.length_append, ← h.count]
    unfold BarScan.add
    split <;> rfl
  by_cases hfits : resource.Fits
  case neg =>
    have hnot : ¬ Describes bar (listed ++ [resource]) := fun hdescribes =>
      hfits (accepted_iff.mp (hdescribes.acceptable resource (by simp))).2.2.1
    refine ⟨hcount, iff_of_false ?_ hnot, fun hdescribes => absurd hdescribes hnot,
      fun hdescribes => absurd hdescribes hnot, fun hdescribes => absurd hdescribes hnot⟩
    rw [BarScan.add, if_pos (by rwa [← Bool.not_eq_false, fits_iff])]
    exact Bool.false_ne_true
  case pos =>
    have hadd : scan.add bar resource = { BarScan.addRange bar { scan with
        listValid := scan.listValid && resource.typeIsExpected bar && resource.widthIsExpected bar } resource with
        resourceCount := scan.resourceCount + 1 } := by
      rw [BarScan.add, if_neg (by rw [fits_iff.mpr hfits]; exact Bool.false_ne_true)]
      rfl
    have hoverflow : Describes bar listed → (scan.combinedLength > uint64Max - resource.length ↔
        2 ^ 64 ≤ totalLength listed + resource.length.toNat) := fun hdescribes => by
      rw [gt_max_sub, h.combined hdescribes]
    have hvalid : (scan.add bar resource).listValid = true ↔ Describes bar (listed ++ [resource]) := by
      rw [hadd, describes_concat, accepted_iff]
      simp only [BarScan.addRange, Bool.and_eq_true, Bool.not_eq_true', decide_eq_false_iff_not, and_assoc]
      constructor
      · rintro ⟨hlist, htype, hwidth, hmaximum, hjoins, hsize⟩
        have hdescribes := h.valid.mp hlist
        obtain ⟨hfirst, hfollows⟩ := (joins_iff h hdescribes hfits).mp hjoins
        exact ⟨hdescribes, htype, hwidth, hfits, hmaximum, hfirst, hfollows,
          Nat.not_le.mp (mt (hoverflow hdescribes).mpr hsize)⟩
      · rintro ⟨hdescribes, htype, hwidth, -, hmaximum, hfirst, hfollows, hsize⟩
        exact ⟨h.valid.mpr hdescribes, htype, hwidth, hmaximum,
          (joins_iff h hdescribes hfits).mpr ⟨hfirst, hfollows⟩,
          mt (hoverflow hdescribes).mp (Nat.not_le.mpr hsize)⟩
    refine ⟨hcount, hvalid, ?_, ?_, ?_⟩
    · intro hboth first hfirst
      have hdescribes := (describes_concat.mp hboth).1
      rw [hadd]
      simp only [BarScan.addRange, h.count, List.length_eq_zero_iff]
      cases listed with
      | nil =>
          rw [← Option.mem_some_iff.mp hfirst]
          exact ⟨rfl, hfits.busBase_toNat⟩
      | cons head rest => exact h.first hdescribes first hfirst
    · intro hboth last hlast
      rw [List.getLast?_append, List.getLast?_singleton] at hlast
      rw [hadd, ← Option.mem_some_iff.mp hlast]
      exact ⟨rfl, rfl⟩
    · intro hboth
      obtain ⟨hdescribes, -, -, -, hsize⟩ := describes_concat.mp hboth
      rw [hadd, totalLength_concat]
      simp only [BarScan.addRange]
      have hroom : ¬ scan.combinedLength > uint64Max - resource.length :=
        mt (hoverflow hdescribes).mp (Nat.not_le.mpr hsize)
      rw [decide_eq_false hroom, if_neg Bool.false_ne_true, UInt64.toNat_add, h.combined hdescribes,
        Nat.mod_eq_of_lt hsize]

theorem gathered_foldl : Gathered bar listed (listed.foldl (BarScan.add bar) {}) := by
  induction listed using List.reverseRecOn with
  | nil => exact gathered_nil
  | append_singleton listed resource ih =>
      rw [List.foldl_append]
      exact ih.add

/-! ### Readable ranges -/

/-- The place is in a range that the memory map lets the program read. -/
def Readable (snapshot : MemoryMapSnapshot) (place : Nat) : Prop :=
  ∃ start length, isReadable snapshot start length = true ∧ start ≤ place ∧ place < start + length

variable {address length start offset limit count : Nat} {checksum : UInt8}

theorem Readable.of_range (h : isReadable snapshot address length = true) (index : Nat) (hindex : index < length) :
    Readable snapshot (address + index) :=
  ⟨address, length, h, Nat.le_add_right _ _, Nat.add_lt_add_left hindex _⟩

/-- What a readable range says of the map and of itself. -/
theorem isReadable_iff (hpos : 0 < length) (hnative : length ≤ maxUintn) :
    isReadable snapshot address length = true ↔ snapshot.WellFormed ∧ snapshot.mapSize ≠ 0 ∧
      address + length ≤ 2 ^ 64 ∧ MapFits snapshot.descriptors ∧
        ∀ byte, address ≤ byte → byte < address + length → SoleAccessible snapshot.descriptors false byte := by
  by_cases hguard : snapshot.descriptorSize < efiMemoryDescriptorBytes ∨ snapshot.mapSize = 0 ∨
      snapshot.mapSize % snapshot.descriptorSize ≠ 0 ∨ length = 0 ∨ address > maxUintn - (length - 1)
  · rw [isReadable, MemoryMapSnapshot.memoryMapRangeIsReadable, memoryMapRangeAccessible, if_pos hguard]
    refine iff_of_false Bool.false_ne_true ?_
    rintro ⟨⟨hsize, hwhole⟩, hmap, hwrap, -⟩
    unfold maxUintn at hguard
    omega
  · have hwhole : snapshot.WellFormed := ⟨by omega, by omega⟩
    have hwrap : address + length ≤ 2 ^ 64 := by
      unfold maxUintn at hguard hnative
      omega
    have hanswer : RangeAnswer snapshot address length false :=
      rangeAccessible_exact hwhole hpos hnative hwrap
    rw [isReadable, MemoryMapSnapshot.memoryMapRangeIsReadable, hanswer.accepts]
    exact ⟨fun h => ⟨hwhole, by omega, hwrap, h⟩, fun h => h.2.2.2⟩

theorem isReadable_within (h : isReadable snapshot address length = true) (hpos : 0 < count)
    (hnative : length ≤ maxUintn) (hto : start + count ≤ length) :
    isReadable snapshot (address + start) count = true := by
  rw [isReadable_iff (by omega) hnative] at h
  rw [isReadable_iff hpos (by omega)]
  obtain ⟨hwhole, hmap, hwrap, hfits, hsole⟩ := h
  exact ⟨hwhole, hmap, by omega, hfits, fun byte hfrom hbefore => hsole byte (by omega) (by omega)⟩

theorem isReadable_append (h : isReadable snapshot address length = true)
    (h' : isReadable snapshot (address + length) count = true) (hpos : 0 < length) (hpos' : 0 < count)
    (hnative : length + count ≤ maxUintn) : isReadable snapshot address (length + count) = true := by
  rw [isReadable_iff (by omega) (by omega)] at h h'
  rw [isReadable_iff (by omega) hnative]
  obtain ⟨hwhole, hmap, -, hfits, hsole⟩ := h
  obtain ⟨-, -, hwrap, -, hsole'⟩ := h'
  refine ⟨hwhole, hmap, by omega, hfits, fun byte hfrom hbefore => ?_⟩
  by_cases hhere : byte < address + length
  · exact hsole byte hfrom hhere
  · exact hsole' byte (by omega) (by omega)

/-! ### The list in memory -/

/-- These descriptors stand from the address on, and the end tag behind them. -/
inductive Listed (memory : Nat → UInt8) : Nat → List AddressSpace → Prop where
  | endTag {address : Nat} (tag : memory address = acpiEndTagDescriptor) : Listed memory address []
  | descriptor {address : Nat} {rest : List AddressSpace} (tag : memory address = acpiAddressSpaceDescriptor)
      (bytes : (le16 memory (address + 1)).toNat = acpiAddressSpaceBytes - acpiLargeDescriptorHeaderSize)
      (behind : Listed memory (address + acpiAddressSpaceBytes) rest) :
      Listed memory address (addressSpace (memoryBytes memory address acpiAddressSpaceBytes) :: rest)

/-- The descriptors and the end tag. -/
def listBytes (listed : List AddressSpace) : Nat := acpiAddressSpaceBytes * listed.length + acpiEndTagSize

theorem listBytes_cons : listBytes (resource :: listed) = acpiAddressSpaceBytes + listBytes listed := by
  rw [listBytes, listBytes, List.length_cons, Nat.mul_succ]
  omega

/-- A list of fewer than so many descriptors that is readable to its end. -/
structure ListedWithin (snapshot : MemoryMapSnapshot) (memory : Nat → UInt8) (address limit : Nat)
    (listed : List AddressSpace) : Prop where
  count : listed.length < limit
  stands : Listed memory address listed
  readable : isReadable snapshot address (listBytes listed) = true

/-- No checksum, or the one of the bytes from the address on and of those before. -/
def ChecksumHolds (memory : Nat → UInt8) (address : Nat) (checksum : UInt8) (listed : List AddressSpace) : Prop :=
  memory (address + listBytes listed - 1) = 0 ∨
    checksum + (memoryBytes memory address (listBytes listed)).sum = 0

/-- What the loop makes of the list that stands in memory. -/
structure ListRead (snapshot : MemoryMapSnapshot) (memory : Nat → UInt8) (bar : BarExpected)
    (address limit : Nat) (checksum : UInt8) (scan : BarScan) (list : BarList) : Prop where
  found : list.endTagFound = true ↔ ∃ listed, ListedWithin snapshot memory address limit listed
  count : ∀ listed, ListedWithin snapshot memory address limit listed →
    list.scan = { listed.foldl (BarScan.add bar) scan with listValid := list.scan.listValid } ∧
      (list.scan.listValid = true ↔ (listed.foldl (BarScan.add bar) scan).listValid = true ∧
        ChecksumHolds memory address checksum listed)

theorem memoryBytes_append : memoryBytes memory address (length + count) =
    memoryBytes memory address length ++ memoryBytes memory (address + length) count := by
  induction length generalizing address with
  | zero => simp [memoryBytes]
  | succ length ih =>
      rw [Nat.succ_add, memoryBytes_succ, ih, memoryBytes_succ, List.cons_append, Nat.add_assoc address 1,
        Nat.add_comm 1 length]

theorem listRead_stop (h : ∀ listed, ¬ ListedWithin snapshot memory address limit listed) (hscan : BarScan) :
    ListRead snapshot memory bar address limit checksum scan ⟨hscan, false⟩ where
  found := iff_of_false Bool.false_ne_true fun ⟨listed, hlisted⟩ => h listed hlisted
  count := fun listed hlisted => absurd hlisted (h listed)

theorem ListedWithin.native (h : ListedWithin snapshot memory address limit listed)
    (hlimit : limit ≤ barResourceDescriptorLimit) : listBytes listed ≤ maxUintn := by
  have hcount := h.count
  unfold listBytes acpiAddressSpaceBytes acpiEndTagSize maxUintn
  unfold barResourceDescriptorLimit at hlimit
  omega

theorem ListedWithin.readable_part (h : ListedWithin snapshot memory address limit listed)
    (hlimit : limit ≤ barResourceDescriptorLimit) (hpos : 0 < count) (hcount : count ≤ listBytes listed) :
    isReadable snapshot address count = true := by
  rw [← Nat.add_zero address]
  exact isReadable_within h.readable hpos (h.native hlimit) (by rwa [Nat.zero_add])

theorem listedWithin_cons (hlimit : limit + 1 ≤ barResourceDescriptorLimit) :
    ListedWithin snapshot memory address (limit + 1) (resource :: listed) ↔
      memory address = acpiAddressSpaceDescriptor ∧
        (le16 memory (address + 1)).toNat = acpiAddressSpaceBytes - acpiLargeDescriptorHeaderSize ∧
        isReadable snapshot address acpiAddressSpaceBytes = true ∧
        resource = addressSpace (memoryBytes memory address acpiAddressSpaceBytes) ∧
        ListedWithin snapshot memory (address + acpiAddressSpaceBytes) limit listed := by
  constructor
  · intro h
    have hnative := h.native hlimit
    have hreadable := h.readable
    rw [listBytes_cons] at hnative hreadable
    have hcount := h.count
    cases h.stands with
    | descriptor tag bytes behind =>
        refine ⟨tag, bytes, h.readable_part hlimit (by decide) (by rw [listBytes_cons]; omega), rfl, ?_, behind, ?_⟩
        · rw [List.length_cons] at hcount
          omega
        · exact isReadable_within hreadable (by rw [listBytes]; exact Nat.succ_pos _) hnative le_rfl
  · rintro ⟨htag, hbytes, hreadable, rfl, hrest⟩
    refine ⟨Nat.succ_lt_succ hrest.count, .descriptor htag hbytes hrest.stands, ?_⟩
    rw [listBytes_cons]
    refine isReadable_append hreadable hrest.readable (by decide) (by rw [listBytes]; exact Nat.succ_pos _) ?_
    have hcount := hrest.count
    unfold listBytes acpiAddressSpaceBytes acpiEndTagSize maxUintn
    unfold barResourceDescriptorLimit at hlimit
    omega

theorem listedWithin_nil : ListedWithin snapshot memory address (limit + 1) [] ↔
    memory address = acpiEndTagDescriptor ∧ isReadable snapshot address acpiEndTagSize = true := by
  constructor
  · rintro ⟨-, hstands, hreadable⟩
    cases hstands with
    | endTag tag => exact ⟨tag, hreadable⟩
  · exact fun h => ⟨Nat.succ_pos _, .endTag h.1, h.2⟩

/-- Nothing but the end tag begins with the end tag's byte. -/
theorem ListedWithin.nil_of_endTag (h : ListedWithin snapshot memory address limit listed)
    (hend : memory address = acpiEndTagDescriptor) : listed = [] := by
  cases h.stands with
  | endTag => rfl
  | descriptor tag => exact absurd (hend.symm.trans tag) (by decide)

/-- What does not begin with the end tag begins with a whole descriptor. -/
theorem ListedWithin.descriptor_of_ne (h : ListedWithin snapshot memory address (limit + 1) listed)
    (hlimit : limit + 1 ≤ barResourceDescriptorLimit) (hend : memory address ≠ acpiEndTagDescriptor) :
    memory address = acpiAddressSpaceDescriptor ∧
      (le16 memory (address + 1)).toNat = acpiAddressSpaceBytes - acpiLargeDescriptorHeaderSize ∧
      isReadable snapshot address acpiAddressSpaceBytes = true := by
  cases listed with
  | nil => exact absurd (listedWithin_nil.mp h).1 hend
  | cons resource listed =>
      obtain ⟨htag, hbytes, hreadable, -, -⟩ := (listedWithin_cons hlimit).mp h
      exact ⟨htag, hbytes, hreadable⟩

theorem peekWord_memory {inside : Nat → Prop} (h : inside address) (h' : inside (address + 1)) :
    Yields inside memory (peekWord address) (le16 memory address) :=
  Yields.bind_peek h (Yields.bind_peek h' Yields.pure)

theorem checksumHolds_cons : ChecksumHolds memory address checksum (resource :: listed) ↔
    ChecksumHolds memory (address + acpiAddressSpaceBytes)
      (checksum + (memoryBytes memory address acpiAddressSpaceBytes).sum) listed := by
  rw [ChecksumHolds, ChecksumHolds, listBytes_cons, memoryBytes_append, List.sum_append, ← Nat.add_assoc,
    UInt8.add_assoc]

/-- The empty list at its end tag. -/
theorem listRead_endTag (hend : memory address = acpiEndTagDescriptor)
    (hreadable : isReadable snapshot address acpiEndTagSize = true) {list : BarList}
    (hfound : list.endTagFound = true)
    (hscan : list.scan = { scan with listValid := list.scan.listValid })
    (hvalid : list.scan.listValid = true ↔ scan.listValid = true ∧ ChecksumHolds memory address checksum []) :
    ListRead snapshot memory bar address (limit + 1) checksum scan list where
  found := iff_of_true hfound ⟨[], listedWithin_nil.mpr ⟨hend, hreadable⟩⟩
  count := by
    intro listed h
    rw [h.nil_of_endTag hend]
    exact ⟨hscan, hvalid⟩

/-- A list behind one more descriptor. -/
theorem ListRead.behind {list : BarList} (hlimit : limit + 1 ≤ barResourceDescriptorLimit)
    (htag : memory address = acpiAddressSpaceDescriptor)
    (hbytes : (le16 memory (address + 1)).toNat = acpiAddressSpaceBytes - acpiLargeDescriptorHeaderSize)
    (hreadable : isReadable snapshot address acpiAddressSpaceBytes = true)
    (h : ListRead snapshot memory bar (address + acpiAddressSpaceBytes) limit
      (checksum + (memoryBytes memory address acpiAddressSpaceBytes).sum)
      (scan.add bar (addressSpace (memoryBytes memory address acpiAddressSpaceBytes))) list) :
    ListRead snapshot memory bar address (limit + 1) checksum scan list := by
  have hcons : ∀ {rest}, ListedWithin snapshot memory (address + acpiAddressSpaceBytes) limit rest →
      ListedWithin snapshot memory address (limit + 1)
        (addressSpace (memoryBytes memory address acpiAddressSpaceBytes) :: rest) := fun hrest =>
    (listedWithin_cons hlimit).mpr ⟨htag, hbytes, hreadable, rfl, hrest⟩
  have huncons : ∀ {listed}, ListedWithin snapshot memory address (limit + 1) listed → ∃ rest,
      listed = addressSpace (memoryBytes memory address acpiAddressSpaceBytes) :: rest ∧
        ListedWithin snapshot memory (address + acpiAddressSpaceBytes) limit rest := by
    intro listed hlisted
    cases listed with
    | nil => exact absurd (htag.symm.trans (listedWithin_nil.mp hlisted).1) (by decide)
    | cons first rest =>
        obtain ⟨-, -, -, rfl, hrest⟩ := (listedWithin_cons hlimit).mp hlisted
        exact ⟨rest, rfl, hrest⟩
  constructor
  · rw [h.found]
    constructor
    · exact fun ⟨rest, hrest⟩ => ⟨_, hcons hrest⟩
    · rintro ⟨listed, hlisted⟩
      obtain ⟨rest, -, hrest⟩ := huncons hlisted
      exact ⟨rest, hrest⟩
  · intro listed hlisted
    obtain ⟨rest, rfl, hrest⟩ := huncons hlisted
    rw [List.foldl_cons, checksumHolds_cons]
    exact h.count rest hrest

/-- The loop reads only what is readable, and makes of the list what its descriptors say. -/
theorem readBarResources_read {resources : Nat} (hlimit : limit ≤ barResourceDescriptorLimit)
    (hoffset : offset + acpiAddressSpaceBytes * limit ≤ acpiAddressSpaceBytes * barResourceDescriptorLimit) :
    Meets (Readable snapshot) memory (readBarResources snapshot bar resources limit offset checksum scan)
      (ListRead snapshot memory bar (resources + offset) limit checksum scan) := by
  induction limit generalizing offset checksum scan with
  | zero => exact Meets.pure (listRead_stop (fun listed h => absurd h.count (Nat.not_lt_zero _)) scan)
  | succ limit ih =>
      have hroom : offset + acpiAddressSpaceBytes ≤ barResourceScanLimit := by
        rw [Nat.mul_succ] at hoffset
        have hlist : acpiAddressSpaceBytes * barResourceDescriptorLimit ≤ barResourceScanLimit := by decide
        omega
      have hinside : ∀ bytes ≤ acpiAddressSpaceBytes, ¬ offset > barResourceScanLimit - bytes := by
        intro bytes hbytes
        omega
      unfold readBarResources
      rw [if_neg (by unfold acpiAddressSpaceBytes at hroom; omega)]
      by_cases htagged : isReadable snapshot (resources + offset) 1 = true
      case neg =>
        rw [if_pos (.inr htagged)]
        refine Meets.pure (listRead_stop (fun listed h => htagged ?_) _)
        exact h.readable_part hlimit Nat.one_pos (Nat.le_add_left 1 _ |>.trans (Nat.le_succ _))
      have hwrap : ¬ resources > maxUintn - offset := by
        have h := ((isReadable_iff Nat.one_pos (by decide)).mp htagged).2.2.1
        unfold maxUintn
        omega
      rw [if_neg (by simp [hwrap, htagged])]
      refine Meets.bind_peek (Readable.of_range htagged 0 Nat.one_pos) ?_
      by_cases hend : memory (resources + offset) = acpiEndTagDescriptor
      case pos =>
        rw [if_pos hend]
        by_cases hreadable : isReadable snapshot (resources + offset) acpiEndTagSize = true
        case neg =>
          rw [if_pos (.inr hreadable)]
          refine Meets.pure (listRead_stop (fun listed h => hreadable ?_) _)
          exact h.readable_part hlimit (by decide) (Nat.le_add_left _ _)
        case pos =>
          rw [if_neg (by simp [hinside _ (by decide : acpiEndTagSize ≤ _), hreadable])]
          refine Meets.bind (peekBytes_memory (Readable.of_range hreadable))
            (Meets.pure (listRead_endTag hend hreadable rfl rfl ?_))
          rw [Bool.and_eq_true, Bool.not_eq_true', Bool.and_eq_false_iff, bne_eq_false_iff_eq, bne_eq_false_iff_eq]
          rfl
      have hhead := fun listed (h : ListedWithin snapshot memory (resources + offset) (limit + 1) listed) =>
        h.descriptor_of_ne hlimit hend
      rw [if_neg hend]
      by_cases hspace : memory (resources + offset) = acpiAddressSpaceDescriptor
      case neg =>
        have hnone : ∀ listed, ¬ ListedWithin snapshot memory (resources + offset) (limit + 1) listed :=
          fun listed h => hspace (hhead listed h).1
        rw [if_pos hspace]
        split
        case isTrue hlarge =>
          have hbyte := Readable.of_range hlarge.2.2
          exact Meets.bind (peekWord_memory (hbyte 1 (by decide)) (hbyte 2 (by decide)))
            (Meets.pure (listRead_stop hnone _))
        case isFalse => exact Meets.pure (listRead_stop hnone _)
      rw [if_neg (not_not.mpr hspace)]
      by_cases hheader : isReadable snapshot (resources + offset) acpiLargeDescriptorHeaderSize = true
      case neg =>
        rw [if_pos (.inr hheader)]
        refine Meets.pure (listRead_stop (fun listed h => hheader ?_) _)
        exact Nat.add_zero (resources + offset) ▸
          isReadable_within (hhead listed h).2.2 (by decide) (by decide) (by decide)
      rw [if_neg (by simp [hinside _ (by decide : acpiLargeDescriptorHeaderSize ≤ _), hheader])]
      have hbyte := Readable.of_range hheader
      refine Meets.bind (peekWord_memory (hbyte 1 (by decide)) (hbyte 2 (by decide))) ?_
      by_cases hbytes : (le16 memory (resources + offset + 1)).toNat =
          acpiAddressSpaceBytes - acpiLargeDescriptorHeaderSize
      case neg =>
        rw [if_pos hbytes]
        exact Meets.pure (listRead_stop (fun listed h => hbytes (hhead listed h).2.1) _)
      have htotal : acpiLargeDescriptorHeaderSize + (le16 memory (resources + offset + 1)).toNat =
          acpiAddressSpaceBytes := by
        rw [hbytes]
        rfl
      rw [if_neg (not_not.mpr hbytes)]
      dsimp only
      rw [htotal]
      by_cases hwhole : isReadable snapshot (resources + offset) acpiAddressSpaceBytes = true
      case neg =>
        rw [if_pos (.inr hwhole)]
        exact Meets.pure (listRead_stop (fun listed h => hwhole (hhead listed h).2.2) _)
      rw [if_neg (by simp [hinside _ le_rfl, hwhole])]
      refine Meets.bind (peekBytes_memory (Readable.of_range hwhole))
        ((ih (Nat.le_of_succ_le hlimit) (by rw [Nat.mul_succ] at hoffset; omega)).mono fun list h => ?_)
      rw [← Nat.add_assoc] at h
      exact h.behind hlimit hspace hbytes hwhole

/-! ### The window -/

/-- A list that the report believes. -/
structure BarResourceList (snapshot : MemoryMapSnapshot) (memory : Nat → UInt8) (bar : BarExpected)
    (address : Nat) (listed : List AddressSpace) : Prop where
  list : ListedWithin snapshot memory address barResourceDescriptorLimit listed
  checksum : ChecksumHolds memory address 0 listed
  describes : Describes bar listed
  /-- An empty list belongs to a base address that was not given out. -/
  unassigned : listed = [] → bar.configBusBase = 0

/-- The window is made up of the descriptors, each of which moves it to the bus alike. -/
structure TiledWindow (bar : BarExpected) (listed : List AddressSpace) (window : BarWindow) : Prop where
  descriptors : window.descriptors = listed.length
  busBase : window.busBase = bar.configBusBase
  size : window.size.toNat = totalLength listed
  hostFits : window.hostBase.toNat + window.size.toNat ≤ 2 ^ 64
  busFits : window.busBase.toNat + window.size.toNat ≤ 2 ^ 64
  covered : ∀ place, window.hostBase.toNat ≤ place → place < window.hostBase.toNat + window.size.toNat →
    ∃! index : Nat, ∃ resource, listed[index]? = some resource ∧ resource.hostBase.toNat ≤ place ∧
      place < resource.hostBase.toNat + resource.length.toNat
  moved : ∀ resource ∈ listed,
    window.hostBase.toNat + resource.translation.toNat = window.busBase.toNat

/-- What the report says of a list of resources. -/
structure BarVerdict (snapshot : MemoryMapSnapshot) (memory : Nat → UInt8) (bar : BarExpected) (address : Nat)
    (verdict : EfiStatus × Option BarWindow) : Prop where
  accepts : verdict.1 = .success ↔ ∃ listed, BarResourceList snapshot memory bar address listed
  refuses : verdict.1 ≠ .success → verdict = (.compromisedData, none)
  window : ∀ listed, BarResourceList snapshot memory bar address listed →
    verdict.2 = none ∧ listed = [] ∨
      ∃ window, verdict.2 = some window ∧ listed ≠ [] ∧ TiledWindow bar listed window

/-- There is only one list at an address. -/
theorem Listed.unique {listed' : List AddressSpace} (h : Listed memory address listed)
    (h' : Listed memory address listed') : listed = listed' := by
  induction h generalizing listed' with
  | endTag tag =>
      cases h' with
      | endTag => rfl
      | descriptor tag' => exact absurd (tag.symm.trans tag') (by decide)
  | descriptor tag bytes behind ih =>
      cases h' with
      | endTag tag' => exact absurd (tag'.symm.trans tag) (by decide)
      | descriptor tag' bytes' behind' => rw [ih behind']

theorem barVerdict_refused (h : ∀ listed, ¬ BarResourceList snapshot memory bar address listed) :
    BarVerdict snapshot memory bar address (.compromisedData, none) where
  accepts := iff_of_false nofun fun ⟨listed, hlisted⟩ => h listed hlisted
  refuses := fun _ => rfl
  window := fun listed hlisted => absurd hlisted (h listed)

theorem Describes.windowOf (h : Describes bar listed) (hsome : listed ≠ []) (hgathered : Gathered bar listed scan) :
    TiledWindow bar listed ⟨scan.resourceCount, scan.firstHostBase, scan.firstBusBase, scan.combinedLength⟩ := by
  obtain ⟨first, rest, rfl⟩ := List.exists_cons_of_ne_nil hsome
  obtain ⟨hhostBase, hbusBase⟩ := hgathered.first h first rfl
  have hbase := h.base first rfl
  have hsize := hgathered.combined h
  have hhost : Tiles (·.hostBase.toNat) (·.length.toNat) scan.firstHostBase.toNat (first :: rest) := by
    refine Tiles.of_isChain (h.consecutive.imp fun _ _ hnext => hnext.1) fun piece hpiece => ?_
    rw [← Option.mem_some_iff.mp hpiece, hhostBase]
  have hbus : Tiles AddressSpace.bus (·.length.toNat) scan.firstBusBase.toNat (first :: rest) := by
    refine Tiles.of_isChain (h.consecutive.imp fun _ _ hnext => hnext.2) fun piece hpiece => ?_
    rw [← Option.mem_some_iff.mp hpiece, hbusBase]
  refine ⟨hgathered.count, ?_, hsize, ?_, ?_, fun place hfrom hbefore => ?_, fun resource hresource => ?_⟩
  · rw [← UInt64.toNat_inj, ← hbase, hbusBase]
  · rw [hsize]
    exact hhost.le_of_forall (UInt64.toNat_lt _).le fun piece hpiece => (h.acceptable piece hpiece).host
  · rw [hsize]
    exact hbus.le_of_forall (UInt64.toNat_lt _).le fun piece hpiece => (h.acceptable piece hpiece).bus
  · rw [hsize] at hbefore
    exact hhost.existsUnique hfrom hbefore
  · obtain ⟨index, hindex⟩ := List.mem_iff_getElem?.mp hresource
    have hhostStart := hhost.start_eq hindex
    have hbusStart := hbus.start_eq hindex
    rw [AddressSpace.bus] at hbusStart
    dsimp only
    omega

/-- **The list of resources behind a base address.** It is read only where the memory map lets it be, it is believed
exactly when it describes one window at the configured base, and that window is reported. -/
theorem barResources_exact {resources logicalBarIndex : Nat} (hresources : resources ≠ 0)
    (hlogical : logicalBarIndex < 6) :
    Meets (Readable snapshot) memory (printBarResourceList (.ok snapshot) bar resources logicalBarIndex)
      (BarVerdict snapshot memory bar resources) := by
  unfold printBarResourceList
  rw [if_neg (by omega)]
  have hread := @readBarResources_read bar {} snapshot memory 0 barResourceDescriptorLimit 0 resources le_rfl
    (Nat.zero_add _).le
  refine Meets.bind ⟨hread.within, rfl⟩ (Meets.pure ?_)
  obtain ⟨-, hfound, hcount⟩ := hread
  generalize (readBarResources snapshot bar resources barResourceDescriptorLimit 0 0 {}).run memory = list at *
  rw [Nat.add_zero] at hfound hcount
  obtain ⟨scan, endTagFound⟩ := list
  unfold BarList.finish
  cases endTagFound with
  | false => exact barVerdict_refused fun listed h => absurd (hfound.mpr ⟨listed, h.list⟩) Bool.false_ne_true
  | true =>
      obtain ⟨listed, hlisted⟩ := hfound.mp rfl
      have hgathered := @gathered_foldl bar listed
      obtain ⟨hscan, hvalid⟩ := hcount listed hlisted
      dsimp only at hscan hvalid ⊢
      rw [hgathered.valid] at hvalid
      have hresourceCount : scan.resourceCount = listed.length := by
        rw [hscan]
        exact hgathered.count
      have honly : ∀ {listed'}, BarResourceList snapshot memory bar resources listed' → listed' = listed :=
        fun h => h.list.stands.unique hlisted.stands
      simp only [Bool.not_true, Bool.false_eq_true, if_false, hresourceCount, List.length_eq_zero_iff]
      by_cases hempty : listed = []
      case pos =>
        rw [if_pos hempty]
        by_cases hbase : bar.configBusBase = 0
        case neg =>
          rw [if_pos hbase]
          exact barVerdict_refused fun listed' h => hbase (h.unassigned ((honly h).trans hempty))
        case pos =>
          rw [if_neg (not_not.mpr hbase)]
          cases hlist : scan.listValid with
          | true =>
              obtain ⟨hdescribes, hchecksum⟩ := hvalid.mp hlist
              refine ⟨iff_of_true rfl ⟨listed, hlisted, hchecksum, hdescribes, fun _ => hbase⟩, fun h => absurd rfl h,
                fun listed' h => .inl ⟨rfl, (honly h).trans hempty⟩⟩
          | false =>
              refine barVerdict_refused fun listed' h => ?_
              obtain rfl := honly h
              exact Bool.false_ne_true (hlist.symm.trans (hvalid.mpr ⟨h.describes, h.checksum⟩))
      case neg =>
        rw [if_neg hempty]
        cases hlist : scan.listValid with
        | true =>
            obtain ⟨hdescribes, hchecksum⟩ := hvalid.mp hlist
            refine ⟨iff_of_true rfl ⟨listed, hlisted, hchecksum, hdescribes, fun h => absurd h hempty⟩,
              fun h => absurd rfl h, fun listed' h => ?_⟩
            obtain rfl := honly h
            have hwindow := hdescribes.windowOf hempty hgathered
            rw [hgathered.count] at hwindow
            rw [hscan]
            exact .inr ⟨_, rfl, hempty, hwindow⟩
        | false =>
            refine barVerdict_refused fun listed' h => ?_
            obtain rfl := honly h
            exact Bool.false_ne_true (hlist.symm.trans (hvalid.mpr ⟨h.describes, h.checksum⟩))

/-- One memory range of 64 KiB at the first page of the sample map, and an end tag without a checksum. -/
def sampleBarList : List UInt8 :=
  [0x8A, 43, 0, 0, 0, 0] ++ [64, 0, 0, 0, 0, 0, 0, 0] ++ [0, 0, 0, 0xE0, 0, 0, 0, 0] ++
    [0xFF, 0xFF, 0, 0xE0, 0, 0, 0, 0] ++ [0, 0, 0, 0, 0, 0, 0, 0] ++ [0, 0, 1, 0, 0, 0, 0, 0] ++ [0x79, 0]

theorem barResources_exact_sample :
    Meets (Readable sampleMemoryMap) (fun place => sampleBarList.getD (place - 0x1000) 0)
      (printBarResourceList (.ok sampleMemoryMap) ⟨false, true, 0xE0000000⟩ 0x1000 0)
      (BarVerdict sampleMemoryMap (fun place => sampleBarList.getD (place - 0x1000) 0) ⟨false, true, 0xE0000000⟩
        0x1000) :=
  barResources_exact (by decide) (by decide)

/-! ### The base addresses of a display -/

section

variable {config : List UInt8} {firmware : BarFirmware} {barIndex logicalBarIndex : Nat}

/-- The dwords of the configuration space that hold the base address. -/
def barDwords (config : List UInt8) (barIndex : Nat) : List Nat :=
  if (configBar config barIndex).consumesNextBar then [barIndex, barIndex + 1] else [barIndex]

theorem mem_barDwords : barIndex ∈ barDwords config barIndex := by
  unfold barDwords
  split <;> exact List.mem_cons_self

theorem consumes_lt (h : (configBar config barIndex).consumesNextBar = true) : barIndex < 5 := by
  unfold configBar at h
  dsimp only at h
  split at h
  · cases h
  · split at h
    case isTrue hwide =>
      rw [Bool.and_eq_true, decide_eq_true_eq] at hwide
      exact hwide.2
    case isFalse => cases h

/-- The loop from a dword on goes over the dwords behind it, and counts. -/
theorem barIndices_from (h : barIndex ≤ 6) :
    ((barIndices config barIndex logicalBarIndex).flatMap fun bar => barDwords config bar.1) =
        List.range' barIndex (6 - barIndex) ∧
      (barIndices config barIndex logicalBarIndex).map Prod.snd =
        List.range' logicalBarIndex (barIndices config barIndex logicalBarIndex).length := by
  induction barIndex, logicalBarIndex using barIndices.induct config with
  | case1 barIndex logicalBarIndex hlt ih =>
      simp only [dite_eq_ite] at ih
      have hnext : barIndex + (if (configBar config barIndex).consumesNextBar then 2 else 1) ≤ 6 := by
        split
        case isTrue hconsumes =>
          have := consumes_lt hconsumes
          omega
        case isFalse => omega
      obtain ⟨hdwords, hcounts⟩ := ih hnext
      rw [barIndices, if_pos hlt]
      constructor
      · rw [List.flatMap_cons, hdwords, barDwords]
        cases hconsumes : (configBar config barIndex).consumesNextBar with
        | true =>
            have hlt' := consumes_lt hconsumes
            obtain ⟨left, hleft⟩ : ∃ left, 6 - barIndex = left + 2 := ⟨4 - barIndex, by omega⟩
            rw [hleft, if_pos rfl, if_pos rfl, show 6 - (barIndex + 2) = left by omega]
            rfl
        | false =>
            obtain ⟨left, hleft⟩ : ∃ left, 6 - barIndex = left + 1 := ⟨5 - barIndex, by omega⟩
            rw [hleft, if_neg Bool.false_ne_true, if_neg Bool.false_ne_true,
              show 6 - (barIndex + 1) = left by omega]
            rfl
      · rw [List.map_cons, hcounts, List.length_cons]
        rfl
  | case2 barIndex logicalBarIndex hnot =>
      rw [barIndices, if_neg hnot, show 6 - barIndex = 0 by omega]
      exact ⟨rfl, rfl⟩

/-- A place that one of the memory maps of the report lets the program read. -/
def ReportReadable (firmware : BarFirmware) (place : Nat) : Prop :=
  ∃ logicalBarIndex snapshot, firmware.captured logicalBarIndex = .ok snapshot ∧ Readable snapshot place

/-- What the report leaves of one base address. -/
structure BarReported (firmware : BarFirmware) (config : List UInt8) (memory : Nat → UInt8) (bar : Nat × Nat)
    (outcome : BarOutcome) : Prop where
  /-- The firmware's list is given back when it was handed over, once, and nothing else is. -/
  freed : ∀ resources, outcome.freed = some resources ↔ resources ≠ 0 ∧ ∃ answers,
    firmware.getBarAttributes = some answers ∧ (answers bar.2).status.isError = false ∧
      (answers bar.2).resources = resources
  /-- A window is reported only of a list that is believed. -/
  window : ∀ window, outcome.window = some window → ∃ resources snapshot listed,
    outcome.freed = some resources ∧ firmware.captured bar.2 = .ok snapshot ∧
      BarResourceList snapshot memory (configBar config bar.1).expected resources listed ∧
      TiledWindow (configBar config bar.1).expected listed window

theorem printBarResourceList_meets {resources : Nat} {captured : Except EfiStatus MemoryMapSnapshot}
    (hresources : resources ≠ 0) (hlogical : logicalBarIndex < 6) :
    Meets (fun place => ∃ snapshot, captured = .ok snapshot ∧ Readable snapshot place) memory
      (printBarResourceList captured bar resources logicalBarIndex) fun verdict =>
        ∀ window, verdict.2 = some window → ∃ snapshot listed, captured = .ok snapshot ∧
          BarResourceList snapshot memory bar resources listed ∧ TiledWindow bar listed window := by
  cases captured with
  | error status =>
      unfold printBarResourceList
      rw [if_neg (by omega)]
      exact Meets.pure fun window h => by cases h
  | ok snapshot =>
      have hexact := @barResources_exact bar snapshot memory resources logicalBarIndex hresources hlogical
      refine (hexact.weaken fun place h => ⟨snapshot, rfl, h⟩).mono fun verdict h window hwindow => ?_
      have haccepted : verdict.1 = .success := by
        by_contra hrefused
        rw [h.refuses hrefused] at hwindow
        cases hwindow
      obtain ⟨listed, hlisted⟩ := h.accepts.mp haccepted
      rcases h.window listed hlisted with ⟨hnone, -⟩ | ⟨window', hsome, -, hmade⟩
      · cases hnone.symm.trans hwindow
      · obtain rfl := Option.some.inj (hsome.symm.trans hwindow)
        exact ⟨snapshot, listed, rfl, hlisted, hmade⟩

theorem printBar_reported (hbar : barIndex < 6) (hlogical : logicalBarIndex < 6) :
    Meets (ReportReadable firmware) memory (printBar firmware config barIndex logicalBarIndex)
      (BarReported firmware config memory (barIndex, logicalBarIndex)) := by
  unfold printBar
  rw [if_neg (by omega)]
  dsimp only
  cases hcall : firmware.getBarAttributes with
  | none =>
      rw [Option.elim_none, if_pos rfl]
      refine Meets.pure ⟨fun resources => iff_of_false nofun ?_, nofun⟩
      rintro ⟨-, answers, hanswers, -⟩
      cases hcall.symm.trans hanswers
  | some answers =>
      rw [Option.elim_some]
      by_cases hanswered : (answers logicalBarIndex).status.isError = true
      case pos =>
        rw [if_pos hanswered]
        refine Meets.pure ⟨fun resources => iff_of_false nofun ?_, nofun⟩
        rintro ⟨-, answers', hanswers, hgood, -⟩
        obtain rfl := Option.some.inj (hcall.symm.trans hanswers)
        cases hanswered.symm.trans hgood
      rw [if_neg hanswered]
      by_cases hnull : (answers logicalBarIndex).resources = 0
      case pos =>
        rw [if_pos hnull]
        refine Meets.pure ⟨fun resources => iff_of_false nofun ?_, nofun⟩
        rintro ⟨hne, answers', hanswers, -, rfl⟩
        obtain rfl := Option.some.inj (hcall.symm.trans hanswers)
        exact hne hnull
      rw [if_neg hnull]
      have hlist := @printBarResourceList_meets (configBar config barIndex).expected memory logicalBarIndex _
        (firmware.captured logicalBarIndex) hnull hlogical
      refine Meets.bind ⟨fun place hplace => ?_, rfl⟩ (Meets.pure ⟨fun resources => ?_, fun window hwindow => ?_⟩)
      · obtain ⟨snapshot, hcaptured, hreadable⟩ := hlist.within place hplace
        exact ⟨logicalBarIndex, snapshot, hcaptured, hreadable⟩
      · rw [Option.some_inj]
        constructor
        · rintro rfl
          exact ⟨hnull, answers, hcall, Bool.not_eq_true _ ▸ hanswered, rfl⟩
        · rintro ⟨-, answers', hanswers, -, rfl⟩
          rw [Option.some.inj (hcall.symm.trans hanswers)]
      · obtain ⟨snapshot, listed, hcaptured, hlisted, hmade⟩ := hlist.run window hwindow
        exact ⟨_, snapshot, listed, rfl, hcaptured, hlisted, hmade⟩

theorem printBars_reported {bars : List (Nat × Nat)} (h : ∀ bar ∈ bars, bar.1 < 6 ∧ bar.2 < 6) :
    Meets (ReportReadable firmware) memory (printBars firmware config bars)
      (List.Forall₂ (BarReported firmware config memory) bars) := by
  induction bars with
  | nil => exact Meets.pure .nil
  | cons bar bars ih =>
      obtain ⟨hbar, hlogical⟩ := h bar List.mem_cons_self
      have hfirst := @printBar_reported memory config firmware bar.1 bar.2 hbar hlogical
      have hrest := ih fun other hother => h other (List.mem_cons_of_mem _ hother)
      unfold printBars
      exact Meets.bind ⟨hfirst.within, rfl⟩
        (Meets.bind ⟨hrest.within, rfl⟩ (Meets.pure (.cons hfirst.run hrest.run)))

/-- What the report says of the base addresses of a display. -/
structure DisplayBars (firmware : BarFirmware) (config : List UInt8) (memory : Nat → UInt8) (bars : List (Nat × Nat))
    (outcomes : List BarOutcome) : Prop where
  /-- Each of the six dwords is looked at as one base address, or as the upper half of the one before. -/
  dwords : (bars.flatMap fun bar => barDwords config bar.1) = List.range 6
  logical : bars.map Prod.snd = List.range bars.length
  reported : List.Forall₂ (BarReported firmware config memory) bars outcomes

/-- **The base addresses of a display.** Every dword of them is looked at once, whatever the firmware answers, and only
what is readable is read. -/
theorem displayBars_exact : Meets (ReportReadable firmware) memory (printDisplayBars firmware config)
    (DisplayBars firmware config memory (barIndices config 0 0)) := by
  obtain ⟨hdwords, hlogical⟩ := @barIndices_from config 0 0 (by decide)
  rw [← List.range_eq_range'] at hdwords hlogical
  have hcount : (barIndices config 0 0).length ≤ 6 := by
    calc (barIndices config 0 0).length
        = ((barIndices config 0 0).map fun bar => (barDwords config bar.1).length).length := by
          rw [List.length_map]
      _ ≤ ((barIndices config 0 0).map fun bar => (barDwords config bar.1).length).sum := by
          refine List.length_le_sum_of_one_le _ fun length hlength => ?_
          obtain ⟨bar, -, rfl⟩ := List.mem_map.mp hlength
          exact List.length_pos_of_mem mem_barDwords
      _ = 6 := by
          rw [← List.length_flatMap, hdwords]
          rfl
  have hbars : ∀ bar ∈ barIndices config 0 0, bar.1 < 6 ∧ bar.2 < 6 := by
    intro bar hbar
    have hdword : bar.1 ∈ List.range 6 := hdwords ▸ List.mem_flatMap.mpr ⟨bar, hbar, mem_barDwords⟩
    have hnumber : bar.2 ∈ List.range (barIndices config 0 0).length :=
      hlogical ▸ List.mem_map_of_mem hbar
    rw [List.mem_range] at hdword hnumber
    exact ⟨hdword, hnumber.trans_le hcount⟩
  exact (printBars_reported hbars).mono fun outcomes h => ⟨hdwords, hlogical, h⟩

end

end CsmVgaSelector
