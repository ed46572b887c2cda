import CsmVgaSelector.MemoryMap
import Mathlib.Data.List.Induction
import Mathlib.Order.Bounds.Basic

/-!
# Accessible ranges

One pass over the map says who covers the cursor and where the next descriptor begins, so up to there the
covering descriptor has every byte to itself. The walk strings such extents together, and ends with the
longest run of bytes that each have one accessible owner (`rangeAccessible_exact`).
-/

namespace CsmVgaSelector

variable {descriptors : List EfiMemoryDescriptor} {descriptor : EfiMemoryDescriptor}
  {scan : MapScan} {writable measured : Bool} {address length cursor byte : Nat}

/-! ### What the map says -/

namespace EfiMemoryDescriptor

def bytes (descriptor : EfiMemoryDescriptor) : Nat := descriptor.numberOfPages * efiPageSize

/-- Neither the page count nor the end address passes 64 bits. -/
def Fits (descriptor : EfiMemoryDescriptor) : Prop :=
  descriptor.bytes < 2 ^ 64 ∧
    (descriptor.numberOfPages ≠ 0 → descriptor.physicalStart + descriptor.bytes ≤ 2 ^ 64)

/-- An empty descriptor covers nothing. -/
def Covers (descriptor : EfiMemoryDescriptor) (byte : Nat) : Prop :=
  descriptor.physicalStart ≤ byte ∧ byte < descriptor.physicalStart + descriptor.bytes

instance : Decidable (descriptor.Covers byte) := inferInstanceAs (Decidable (_ ∧ _))

/-- Of a readable type and not protected against reads; for writes, not protected against these either and
of no code or persistent type. -/
structure Accessible (descriptor : EfiMemoryDescriptor) (writable : Bool) : Prop where
  readable : memoryTypeMayBeRead descriptor.type = true
  notReadProtected : descriptor.attribute_ &&& efiMemoryRp = 0
  notReadOnly : writable = true → descriptor.attribute_ &&& (efiMemoryRo ||| efiMemoryWp) = 0
  notCode : writable = true →
    descriptor.type ∉ [efiLoaderCode, efiBootServicesCode, efiRuntimeServicesCode, efiPersistentMemory]

theorem accessible_iff :
    descriptor.Accessible writable ↔ mayNotAccess descriptor writable = false := by
  cases writable
  · simp only [mayNotAccess, Bool.false_and, Bool.or_false, Bool.or_eq_false_iff, Bool.not_eq_false',
      bne_eq_false_iff_eq]
    exact ⟨fun h => ⟨h.readable, h.notReadProtected⟩, fun h => ⟨h.1, h.2, by simp, by simp⟩⟩
  · simp only [mayNotAccess, Bool.true_and, Bool.or_eq_false_iff, Bool.not_eq_false',
      bne_eq_false_iff_eq, beq_eq_false_iff_ne]
    constructor
    · intro h
      have hcode := h.notCode rfl
      simp only [List.mem_cons, List.not_mem_nil, or_false, not_or] at hcode
      obtain ⟨hloader, hboot, hruntime, hpersistent⟩ := hcode
      exact ⟨⟨h.readable, h.notReadProtected⟩,
        ⟨⟨⟨h.notReadOnly rfl, hloader⟩, hboot⟩, hruntime⟩, hpersistent⟩
    · rintro ⟨⟨hreadable, hread⟩, ⟨⟨⟨honly, hloader⟩, hboot⟩, hruntime⟩, hpersistent⟩
      exact ⟨hreadable, hread, fun _ => honly, fun _ => by simp [hloader, hboot, hruntime, hpersistent]⟩

end EfiMemoryDescriptor

/-- No descriptor of the map overflows. -/
def MapFits (descriptors : List EfiMemoryDescriptor) : Prop :=
  ∀ descriptor ∈ descriptors, descriptor.Fits

/-- Exactly one descriptor covers the byte, and it may be accessed. -/
def SoleAccessible (descriptors : List EfiMemoryDescriptor) (writable : Bool) (byte : Nat) : Prop :=
  ∃ descriptor, descriptors.filter (·.Covers byte) = [descriptor] ∧ descriptor.Accessible writable

/-- So many bytes from the address on are accessible, in a map that does not overflow. -/
def AccessibleRun (descriptors : List EfiMemoryDescriptor) (writable : Bool) (address run : Nat) : Prop :=
  ∀ byte, address ≤ byte → byte < address + run →
    MapFits descriptors ∧ SoleAccessible descriptors writable byte

/-! ### One pass -/

/-- What a pass over these descriptors finds out about the cursor. -/
structure Scanned (cursor : Nat) (descriptors : List EfiMemoryDescriptor) (scan : MapScan) : Prop where
  fits : MapFits descriptors
  alone : scan.overlap = false → descriptors.filter (·.Covers cursor) = scan.covering.toList
  shared : scan.overlap = true → 2 ≤ (descriptors.filter (·.Covers cursor)).length
  coveredLast : ∀ descriptor, scan.covering = some descriptor →
    descriptor.Covers cursor ∧ scan.coveredLast + 1 = descriptor.physicalStart + descriptor.bytes
  nextLe : ∀ descriptor ∈ descriptors, descriptor.numberOfPages ≠ 0 →
    cursor < descriptor.physicalStart → scan.nextStart ≤ descriptor.physicalStart
  nextStart : scan.nextStart ≤ maxUint64
  nextBehind : scan.nextStart = maxUint64 ∨ cursor < scan.nextStart

theorem scanDescriptor_eq_none :
    scanDescriptor cursor scan descriptor = none ↔ ¬ descriptor.Fits := by
  unfold scanDescriptor EfiMemoryDescriptor.Fits EfiMemoryDescriptor.bytes maxUint64 efiPageSize
  dsimp only
  split_ifs
  · exact iff_of_true rfl (by omega)
  · exact iff_of_false (by simp) (by omega)
  · exact iff_of_true rfl (by omega)
  · exact iff_of_false (by simp) (by omega)
  · exact iff_of_false (by simp) (by omega)
  · exact iff_of_false (by simp) (by omega)

/-- A descriptor that does not cover the cursor changes nothing but where the next one starts. -/
theorem Scanned.skip {nextStart : Nat} (h : Scanned cursor descriptors scan) (hfits : descriptor.Fits)
    (hskip : ¬ descriptor.Covers cursor)
    (hnext : descriptor.numberOfPages ≠ 0 → cursor < descriptor.physicalStart →
      nextStart ≤ descriptor.physicalStart)
    (hle : nextStart ≤ scan.nextStart) (hbehind : nextStart = scan.nextStart ∨ cursor < nextStart) :
    Scanned cursor (descriptors ++ [descriptor]) { scan with nextStart } where
  fits := List.forall_mem_append.mpr ⟨h.fits, by simpa using hfits⟩
  alone := by simpa [hskip] using h.alone
  shared := by simpa [hskip] using h.shared
  coveredLast := h.coveredLast
  nextLe := by
    refine List.forall_mem_append.mpr ⟨fun other hother hpages hafter => ?_, by simpa using hnext⟩
    exact hle.trans (h.nextLe other hother hpages hafter)
  nextStart := hle.trans h.nextStart
  nextBehind := by
    rcases hbehind with rfl | hbehind
    · exact h.nextBehind
    · exact .inr hbehind

/-- A descriptor that covers the cursor is its owner, or one owner too many. -/
theorem Scanned.cover (h : Scanned cursor descriptors scan) (hfits : descriptor.Fits)
    (hcovers : descriptor.Covers cursor) :
    Scanned cursor (descriptors ++ [descriptor])
      { scan with
        covering := some descriptor
        overlap := scan.overlap || scan.covering.isSome
        coveredLast := descriptor.physicalStart + descriptor.bytes - 1 } where
  fits := List.forall_mem_append.mpr ⟨h.fits, by simpa using hfits⟩
  alone := by
    intro hoverlap
    obtain ⟨hoverlap, hnone⟩ := Bool.or_eq_false_iff.mp hoverlap
    rw [Option.isSome_eq_false_iff, Option.isNone_iff_eq_none] at hnone
    simp [hcovers, h.alone hoverlap, hnone]
  shared := by
    intro hoverlap
    rw [List.filter_append, List.length_append]
    have hone : ([descriptor].filter (·.Covers cursor)).length = 1 := by simp [hcovers]
    cases hbefore : scan.overlap with
    | true =>
        have hshared := h.shared hbefore
        omega
    | false =>
        have hsome : scan.covering.isSome = true := by simpa [hbefore] using hoverlap
        obtain ⟨owner, howner⟩ := Option.isSome_iff_exists.mp hsome
        have halone : (descriptors.filter (·.Covers cursor)).length = 1 := by
          rw [h.alone hbefore, howner]
          rfl
        omega
  coveredLast := by
    rintro _ ⟨⟩
    refine ⟨hcovers, Nat.sub_add_cancel ?_⟩
    exact Nat.lt_of_le_of_lt (Nat.zero_le cursor) hcovers.2
  nextLe := by
    refine List.forall_mem_append.mpr ⟨h.nextLe, ?_⟩
    intro other hother _ hafter
    rw [List.mem_singleton.mp hother] at hafter
    exact absurd hafter (Nat.not_lt.mpr hcovers.1)
  nextStart := h.nextStart
  nextBehind := h.nextBehind

theorem Scanned.concat (h : Scanned cursor descriptors scan) (hfits : descriptor.Fits) :
    ∃ scan', scanDescriptor cursor scan descriptor = some scan' ∧
      Scanned cursor (descriptors ++ [descriptor]) scan' := by
  have hsome : scanDescriptor cursor scan descriptor ≠ none :=
    mt scanDescriptor_eq_none.mp (not_not.mpr hfits)
  obtain ⟨scan', hscan⟩ := Option.ne_none_iff_exists'.mp hsome
  refine ⟨scan', hscan, ?_⟩
  unfold scanDescriptor at hscan
  rw [← EfiMemoryDescriptor.bytes] at hscan
  dsimp only at hscan
  split at hscan
  case isTrue => cases hscan
  split at hscan
  case isTrue hempty =>
    cases hscan
    refine h.skip hfits ?_ (fun hpages => ?_) le_rfl (.inl rfl)
    · unfold EfiMemoryDescriptor.Covers
      omega
    · unfold EfiMemoryDescriptor.bytes efiPageSize at hempty
      omega
  case isFalse hpos =>
  split at hscan
  case isTrue => cases hscan
  split at hscan
  case isTrue hcovers =>
    cases hscan
    exact h.cover hfits ⟨hcovers.1, by omega⟩
  case isFalse hcovers =>
    have hskip : ¬ descriptor.Covers cursor := by
      unfold EfiMemoryDescriptor.Covers
      omega
    split at hscan
    case isTrue hnext =>
      cases hscan
      exact h.skip hfits hskip (fun _ _ => le_rfl) (Nat.le_of_lt hnext.2) (.inr hnext.1)
    case isFalse hnext =>
      cases hscan
      refine h.skip hfits hskip (fun _ hbehind => ?_) le_rfl (.inl rfl)
      omega

theorem scanMap_spec (cursor : Nat) (hfits : MapFits descriptors) :
    ∃ scan, scanMap descriptors cursor = some scan ∧ Scanned cursor descriptors scan := by
  induction descriptors using List.reverseRecOn with
  | nil =>
      refine ⟨{}, rfl, ⟨hfits, fun _ => rfl, ?_, ?_, ?_, le_rfl, .inl rfl⟩⟩
      · rintro ⟨⟩
      · rintro descriptor ⟨⟩
      · rintro descriptor ⟨⟩
  | append_singleton descriptors descriptor ih =>
      obtain ⟨scan, hscan, hscanned⟩ := ih fun other hother => hfits other (by simp [hother])
      obtain ⟨scan', hscan', hscanned'⟩ := hscanned.concat (hfits descriptor (by simp))
      refine ⟨scan', ?_, hscanned'⟩
      rw [scanMap] at hscan ⊢
      rw [List.foldlM_append, hscan]
      simpa using hscan'

theorem mapFits_of_scanMap {start : MapScan}
    (h : descriptors.foldlM (scanDescriptor cursor) start = some scan) : MapFits descriptors := by
  induction descriptors generalizing start with
  | nil =>
      rintro descriptor ⟨⟩
  | cons descriptor rest ih =>
      rw [List.foldlM_cons, Option.bind_eq_bind, Option.bind_eq_some_iff] at h
      obtain ⟨next, hnext, hrest⟩ := h
      refine List.forall_mem_cons.mpr ⟨?_, ih hrest⟩
      by_contra hfits
      rw [scanDescriptor_eq_none.mpr hfits] at hnext
      cases hnext

/-! ### One extent -/

theorem MapScan.soleLast_le : scan.soleLast ≤ scan.coveredLast ∧ scan.soleLast ≤ maxUintn := by
  unfold MapScan.soleLast
  dsimp only
  split_ifs <;> omega

theorem MapScan.soleLast_lt_next (h : scan.nextStart ≠ maxUint64) (hpos : 0 < scan.nextStart) :
    scan.soleLast < scan.nextStart := by
  unfold MapScan.soleLast
  dsimp only
  split_ifs <;> omega

/-- From the cursor to the end of the extent every byte has the cursor's owner. -/
theorem Scanned.sole (h : Scanned cursor descriptors scan) (hoverlap : scan.overlap = false)
    (hcovering : scan.covering = some descriptor) (hcursor : cursor ≤ byte)
    (hbyte : byte ≤ scan.soleLast) : descriptors.filter (·.Covers byte) = [descriptor] := by
  have halone : descriptors.filter (·.Covers cursor) = [descriptor] := by
    rw [h.alone hoverlap, hcovering]
    rfl
  have hlast := scan.soleLast_le
  obtain ⟨hcovers, hend⟩ := h.coveredLast descriptor hcovering
  rw [← halone]
  refine List.filter_congr fun other hother => decide_eq_decide.mpr ?_
  refine ⟨fun hcovers' => ?_, fun hcovers' => ?_⟩
  · -- an owner of the byte that begins behind the cursor would have ended the extent
    refine ⟨Nat.not_lt.mp fun hbehind => ?_, Nat.lt_of_le_of_lt hcursor hcovers'.2⟩
    have hbytes : 0 < other.bytes := by
      have hstart := hcovers'.1
      have hstop := hcovers'.2
      omega
    have hpages : other.numberOfPages ≠ 0 := by
      rintro hzero
      simp [EfiMemoryDescriptor.bytes, hzero] at hbytes
    have hnext := h.nextLe other hother hpages hbehind
    have hfits := (h.fits other hother).2 hpages
    have hsize : efiPageSize ≤ other.bytes := Nat.le_mul_of_pos_left _ (Nat.pos_of_ne_zero hpages)
    have hnot : scan.nextStart ≠ maxUint64 := by
      unfold efiPageSize at hsize
      unfold maxUint64
      omega
    have hbefore := MapScan.soleLast_lt_next hnot (by have := h.nextBehind; omega)
    have hstart := hcovers'.1
    omega
  · have hmem : other ∈ descriptors.filter (·.Covers cursor) := by simp [hother, hcovers']
    rw [halone, List.mem_singleton] at hmem
    rw [hmem]
    exact ⟨hcovers.1.trans hcursor, by omega⟩

theorem Scanned.not_sole (h : Scanned cursor descriptors scan)
    (hblocked : ∀ descriptor, scan.covering = some descriptor →
      scan.overlap = true ∨ mayNotAccess descriptor writable = true) :
    ¬ SoleAccessible descriptors writable cursor := by
  rintro ⟨descriptor, hsole, haccessible⟩
  have halone : scan.overlap = false := by
    by_contra hoverlap
    have hshared := h.shared (by simpa using hoverlap)
    rw [hsole] at hshared
    simp at hshared
  have hcovering : scan.covering = some descriptor := by
    have hlist := h.alone halone
    rw [hsole] at hlist
    cases hsome : scan.covering with
    | none => simp [hsome] at hlist
    | some owner => simpa [hsome] using hlist.symm
  rcases hblocked descriptor hcovering with hoverlap | hforbidden
  · rw [halone] at hoverlap
    cases hoverlap
  · rw [EfiMemoryDescriptor.accessible_iff.mp haccessible] at hforbidden
    cases hforbidden

/-! ### The walk -/

theorem not_soleAccessible_top (hfits : MapFits descriptors) :
    ¬ SoleAccessible descriptors writable (2 ^ 64) := by
  rintro ⟨descriptor, hsole, -⟩
  have hmem : descriptor ∈ descriptors.filter (·.Covers (2 ^ 64)) := by
    rw [hsole]
    exact List.mem_singleton_self _
  obtain ⟨hmem, hcovers⟩ := List.mem_filter.mp hmem
  rw [decide_eq_true_eq] at hcovers
  have hstart := hcovers.1
  have hstop := hcovers.2
  by_cases hpages : descriptor.numberOfPages = 0
  · simp [EfiMemoryDescriptor.bytes, hpages] at hstop
    omega
  · have hend := (hfits descriptor hmem).2 hpages
    omega

theorem AccessibleRun.extend {run run' : Nat} (h : AccessibleRun descriptors writable address run)
    (hfits : MapFits descriptors) (hmore : ∀ byte, address + run ≤ byte → byte < address + run' →
      SoleAccessible descriptors writable byte) : AccessibleRun descriptors writable address run' := by
  intro byte hfrom hto
  by_cases hold : byte < address + run
  · exact h byte hfrom hold
  · exact ⟨hfits, hmore byte (Nat.not_lt.mp hold) hto⟩

theorem AccessibleRun.not_past {run : Nat}
    (h : ¬ SoleAccessible descriptors writable (address + run)) :
    ¬ AccessibleRun descriptors writable address (run + 1) := fun hrun =>
  h (hrun (address + run) (Nat.le_add_right _ _) (by omega)).2

/-- The walk ends with the length of a run: of the longest one, unless the bytes asked for were reached and
that was all that was asked. -/
theorem walkRange_spec {available : Nat} (hfits : MapFits descriptors) (haddress : address ≤ cursor)
    (hcursor : cursor ≤ maxUintn) (havailable : available = cursor - address)
    (hrun : AccessibleRun descriptors writable address (cursor - address)) :
    ∃ run, walkRange descriptors address length measured writable cursor available =
        some (min run maxUintn) ∧
      AccessibleRun descriptors writable address run ∧
      (¬ AccessibleRun descriptors writable address (run + 1) ∨
        measured = false ∧ length ≤ min run maxUintn) := by
  induction hmeasure : maxUintn + 1 - cursor using Nat.strong_induction_on generalizing cursor available with
  | _ measure ih =>
      obtain ⟨scan, hscan, hscanned⟩ := scanMap_spec cursor hfits
      have hstop : ¬ SoleAccessible descriptors writable cursor →
          ∃ run, some available = some (min run maxUintn) ∧
            AccessibleRun descriptors writable address run ∧
            (¬ AccessibleRun descriptors writable address (run + 1) ∨
              measured = false ∧ length ≤ min run maxUintn) := by
        intro hsole
        refine ⟨cursor - address, ?_, hrun, .inl (AccessibleRun.not_past ?_)⟩
        · rw [havailable, Nat.min_eq_left (by omega)]
        · rwa [Nat.add_sub_of_le haddress]
      rw [walkRange]
      split
      case h_1 hnone =>
        rw [hscan] at hnone
        cases hnone
      case h_2 scan' hscan' =>
        rw [hscan] at hscan'
        cases hscan'
        split
        case h_1 hcovering =>
          refine hstop (hscanned.not_sole fun descriptor hsome => ?_)
          rw [hcovering] at hsome
          cases hsome
        case h_2 covering hcovering =>
          split
          case isTrue hblocked =>
            refine hstop (hscanned.not_sole fun descriptor hsome => ?_)
            rw [hcovering] at hsome
            cases hsome
            simpa using hblocked
          case isFalse hfree =>
            rw [Bool.or_eq_true, not_or, Bool.not_eq_true, Bool.not_eq_true] at hfree
            have hlast := scan.soleLast_le
            have hahead : cursor ≤ scan.soleLast := by
              by_cases hbelow : scan.soleLast < maxUintn
              · exact (foldlM_ahead ⟨by simp, .inl rfl⟩ hscan).le_soleLast (by simp [hcovering]) hbelow
              · omega
            have hlonger : AccessibleRun descriptors writable address (scan.soleLast + 1 - address) := by
              refine hrun.extend hfits fun byte hfrom hto => ⟨covering, ?_, ?_⟩
              · exact hscanned.sole hfree.1 hcovering (by omega) (by omega)
              · exact EfiMemoryDescriptor.accessible_iff.mpr hfree.2
            have hmin : availableUpTo address scan.soleLast = min (scan.soleLast + 1 - address) maxUintn := by
              unfold availableUpTo
              split_ifs <;> omega
            dsimp only
            split
            case isTrue hend =>
              refine ⟨_, congrArg some hmin, hlonger, ?_⟩
              rw [hmin, Bool.or_eq_true, Bool.and_eq_true, decide_eq_true_eq, decide_eq_true_eq] at hend
              rcases hend with ⟨hmeasured, hlength⟩ | htop
              · exact .inr ⟨by simpa using hmeasured, hlength⟩
              · refine .inl (AccessibleRun.not_past ?_)
                have hcount : address + (scan.soleLast + 1 - address) = 2 ^ 64 := by
                  unfold maxUintn at htop hlast
                  omega
                rw [hcount]
                exact not_soleAccessible_top hfits
            case isFalse hmore =>
              rw [Bool.or_eq_true, not_or, decide_eq_true_eq] at hmore
              rw [hmin]
              exact ih (maxUintn + 1 - (scan.soleLast + 1)) (by omega) (by omega) (by omega) (by omega)
                hlonger rfl

/-! ### The answer -/

/-- A snapshot as the capture leaves it: whole descriptors, none smaller than the structure. -/
structure MemoryMapSnapshot.WellFormed (snapshot : MemoryMapSnapshot) : Prop where
  descriptorSize : efiMemoryDescriptorBytes ≤ snapshot.descriptorSize
  whole : snapshot.mapSize % snapshot.descriptorSize = 0

/-- What the check answers about a range. -/
structure RangeAnswer (snapshot : MemoryMapSnapshot) (address length : Nat) (writable : Bool) : Prop where
  /-- It accepts when nothing overflows and every byte has exactly one owner that may be accessed, whether
  or not `ReadableBytes` is asked for. -/
  accepts : ∀ measured, (memoryMapRangeAccessible snapshot address length measured writable).1 = true ↔
    MapFits snapshot.descriptors ∧ ∀ byte, address ≤ byte → byte < address + length →
      SoleAccessible snapshot.descriptors writable byte
  /-- `ReadableBytes` is the length of the longest such run, as far as the native word counts. -/
  readableBytes : ∃ run,
    IsGreatest { run | AccessibleRun snapshot.descriptors writable address run } run ∧
    (memoryMapRangeAccessible snapshot address length true writable).2 = min run maxUintn

theorem AccessibleRun.isGreatest {run : Nat} (h : AccessibleRun descriptors writable address run)
    (hpast : ¬ AccessibleRun descriptors writable address (run + 1)) :
    IsGreatest { run | AccessibleRun descriptors writable address run } run := by
  refine ⟨h, fun longer hlonger => Nat.not_lt.mp fun hlt => hpast ?_⟩
  exact fun byte hfrom hto => hlonger byte hfrom (by omega)

/-- The walk decides; a map without descriptors is one it ends in at once. -/
theorem memoryMapRangeAccessible_eq {snapshot : MemoryMapSnapshot} (h : snapshot.WellFormed)
    (hlength : 0 < length) (hwrap : address + length ≤ 2 ^ 64) :
    memoryMapRangeAccessible snapshot address length measured writable =
      match walkRange snapshot.descriptors address length measured writable address 0 with
      | none => (false, 0)
      | some available => (decide (available ≥ length), available) := by
  unfold memoryMapRangeAccessible
  split
  case isFalse => rfl
  case isTrue hguard =>
    have hempty : snapshot.mapSize = 0 := by
      have hsize := h.descriptorSize
      have hwhole := h.whole
      unfold maxUintn at hguard
      omega
    have hnone : snapshot.descriptors = [] := by simp [MemoryMapSnapshot.descriptors, hempty]
    rw [hnone, walkRange]
    simp [scanMap, Nat.ne_of_gt hlength]

/-- **The range check is exact**: its answer is about every byte of the range and every descriptor of the
map, in whatever order they come. -/
theorem rangeAccessible_exact {snapshot : MemoryMapSnapshot} (h : snapshot.WellFormed)
    (hlength : 0 < length) (hnative : length ≤ maxUintn) (hwrap : address + length ≤ 2 ^ 64) :
    RangeAnswer snapshot address length writable := by
  have haddress : address ≤ maxUintn := by
    unfold maxUintn
    omega
  by_cases hfits : MapFits snapshot.descriptors
  · have hwalk : ∀ measured, ∃ run,
        walkRange snapshot.descriptors address length measured writable address 0 =
          some (min run maxUintn) ∧
        AccessibleRun snapshot.descriptors writable address run ∧
        (¬ AccessibleRun snapshot.descriptors writable address (run + 1) ∨
          measured = false ∧ length ≤ min run maxUintn) := fun measured =>
      walkRange_spec hfits le_rfl haddress (by simp) fun byte hfrom hto => absurd hto (by omega)
    constructor
    · intro measured
      obtain ⟨run, hwalk, hrun, hend⟩ := hwalk measured
      rw [memoryMapRangeAccessible_eq h hlength hwrap, hwalk]
      simp only [decide_eq_true_eq]
      constructor
      · exact fun hlong => ⟨hfits, fun byte hfrom hto => (hrun byte hfrom (by omega)).2⟩
      · rintro ⟨-, hsole⟩
        rcases hend with hpast | ⟨-, hlong⟩
        · have hall : AccessibleRun snapshot.descriptors writable address length := fun byte hfrom hto =>
            ⟨hfits, hsole byte hfrom hto⟩
          have hle := (hrun.isGreatest hpast).2 hall
          omega
        · exact hlong
    · obtain ⟨run, hwalk, hrun, hend⟩ := hwalk true
      refine ⟨run, hrun.isGreatest (hend.resolve_right (by simp)), ?_⟩
      rw [memoryMapRangeAccessible_eq h hlength hwrap, hwalk]
  · have hnone : ∀ measured, walkRange snapshot.descriptors address length measured writable address 0 =
        none := by
      intro measured
      rw [walkRange]
      split
      · rfl
      · exact absurd (mapFits_of_scanMap ‹_›) hfits
    constructor
    · intro measured
      rw [memoryMapRangeAccessible_eq h hlength hwrap, hnone]
      exact iff_of_false (by simp) fun haccepts => hfits haccepts.1
    · refine ⟨0, ⟨fun byte hfrom hto => absurd hto (by omega), fun run hrun => ?_⟩, ?_⟩
      · by_contra hpos
        exact hfits (hrun address le_rfl (by omega)).1
      · rw [memoryMapRangeAccessible_eq h hlength hwrap, hnone]
        rfl

/-- One page of conventional memory and two of boot-services data behind it, in descriptors of 48 bytes. -/
def sampleMemoryMap : MemoryMapSnapshot where
  map := [7] ++ List.replicate 8 0 ++ [0x10] ++ List.replicate 14 0 ++ [1] ++ List.replicate 23 0 ++
    ([4] ++ List.replicate 8 0 ++ [0x20] ++ List.replicate 14 0 ++ [2] ++ List.replicate 23 0)
  descriptorSize := 48

theorem rangeAccessible_exact_sample : RangeAnswer sampleMemoryMap 0x1800 0x1000 false :=
  rangeAccessible_exact ⟨by decide, by decide⟩ (by decide) (by decide) (by decide)

end CsmVgaSelector
