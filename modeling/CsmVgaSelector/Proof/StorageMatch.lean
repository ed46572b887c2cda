import CsmVgaSelector.Proof.StorageRead
import CsmVgaSelector.Proof.StorageRom
import CsmVgaSelector.Rom.FirmwareDisk
import Mathlib.Data.List.Nodup

/-!
# What the storage ROM match accepts

A disk is matched exactly when its handler's segment is that of a ROM that is as it was, when the ROM belongs
to the entry's one controller, and when the chain of PnP headers is sound and has exactly one header for the
entry. A chain that comes round, or that has more than 32 headers, ends the search.
-/

namespace CsmVgaSelector

open Peek

section

variable {state : StorageRomState} {live : Nat → UInt8} {entry : BbsTable}
  {offset bytes pcir header start limit index : Nat}

/-! ### Strings -/

/-- From this index of the ROM, one to so many printable characters and a NUL before its end. -/
def RomText (state : StorageRomState) (offset bytes start : Nat) : Prop :=
  ∃ length, 1 ≤ length ∧ length ≤ 127 ∧ start + length < bytes ∧
    (∀ index < length, 0x20 ≤ state.snapshot (offset + (start + index)) ∧
      state.snapshot (offset + (start + index)) ≤ 0x7E) ∧
    state.snapshot (offset + (start + length)) = 0

/-- The text goes on from this index, with so many allowed, and ends. -/
def RomTextFrom (state : StorageRomState) (offset bytes start limit index : Nat) : Prop :=
  ∃ last, index ≤ last ∧ last < index + limit ∧ last < bytes ∧ start < last ∧
    (∀ place, index ≤ place → place < last → 0x20 ≤ state.snapshot (offset + place) ∧
      state.snapshot (offset + place) ≤ 0x7E) ∧
    state.snapshot (offset + last) = 0

theorem scanRomString_iff :
    scanRomString state offset bytes start limit index = true ↔
      RomTextFrom state offset bytes start limit index := by
  induction limit generalizing index with
  | zero =>
      refine iff_of_false (by simp [scanRomString]) ?_
      rintro ⟨last, hfrom, hto, -⟩
      omega
  | succ limit ih =>
      rw [scanRomString]
      split
      case isTrue hend =>
        refine iff_of_false Bool.false_ne_true ?_
        rintro ⟨last, hfrom, -, hbytes, -⟩
        omega
      case isFalse hin =>
      split
      case isTrue hzero =>
        rw [beq_iff_eq] at hzero
        rw [decide_eq_true_eq]
        constructor
        · exact fun hstart => ⟨index, Nat.le_refl _, by omega, by omega, hstart,
            fun place hfrom hto => absurd hto (Nat.not_lt.mpr hfrom), hzero⟩
        · rintro ⟨last, hfrom, -, -, hstart, hprintable, -⟩
          by_contra hnot
          have hlow := (hprintable index (Nat.le_refl _) (by omega)).1
          rw [hzero] at hlow
          exact absurd hlow (by decide)
      case isFalse hnonzero =>
      rw [beq_iff_eq] at hnonzero
      split
      case isTrue hcontrol =>
        refine iff_of_false Bool.false_ne_true ?_
        rintro ⟨last, hfrom, -, -, -, hprintable, hlast⟩
        have hne : index ≠ last := by
          rintro rfl
          exact hnonzero hlast
        obtain ⟨hlow, hhigh⟩ := hprintable index (Nat.le_refl _) (by omega)
        simp [UInt8.not_lt.mpr hlow, UInt8.not_lt.mpr hhigh] at hcontrol
      case isFalse hprint =>
        have hhere : 0x20 ≤ state.snapshot (offset + index) ∧ state.snapshot (offset + index) ≤ 0x7E := by
          simpa [not_or] using hprint
        rw [ih]
        constructor
        · rintro ⟨last, hfrom, hto, hbytes, hstart, hprintable, hlast⟩
          refine ⟨last, by omega, by omega, hbytes, hstart, fun place hplace hlt => ?_, hlast⟩
          rcases Nat.eq_or_lt_of_le hplace with rfl | hplace
          · exact hhere
          · exact hprintable place hplace hlt
        · rintro ⟨last, hfrom, hto, hbytes, hstart, hprintable, hlast⟩
          have hne : index ≠ last := by
            rintro rfl
            exact hnonzero hlast
          exact ⟨last, by omega, by omega, hbytes, hstart,
            fun place hplace => hprintable place (by omega), hlast⟩

theorem romString_iff {first : UInt16} {optional : Bool} :
    romString state offset bytes first optional = true ↔
      if first = 0 then optional = true else RomText state offset bytes first.toNat := by
  unfold romString
  by_cases hzero : first = 0
  · rw [if_pos (beq_iff_eq.mpr hzero), if_pos hzero]
  rw [if_neg (mt beq_iff_eq.mp hzero), if_neg hzero]
  split
  case isTrue hend =>
    refine iff_of_false Bool.false_ne_true ?_
    rintro ⟨length, -, -, hbytes, -⟩
    omega
  case isFalse hin =>
    rw [scanRomString_iff]
    constructor
    · rintro ⟨last, hfrom, hto, hbytes, hstart, hprintable, hlast⟩
      refine ⟨last - first.toNat, by omega, by omega, by omega,
        fun index hindex => hprintable _ (by omega) (by omega), ?_⟩
      rwa [Nat.add_sub_cancel' hfrom]
    · rintro ⟨length, hpos, hle, hbytes, hprintable, hlast⟩
      refine ⟨first.toNat + length, by omega, by omega, hbytes, by omega, fun place hfrom hto => ?_, hlast⟩
      have hplace := hprintable (place - first.toNat) (by omega)
      rwa [Nat.add_sub_cancel' hfrom] at hplace

/-! ### The chain of PnP headers -/

/-- A PnP header inside the ROM whose bytes sum to zero. -/
structure PnpHeaderAt (state : StorageRomState) (offset bytes header : Nat) : Prop where
  inside : 0x1C ≤ header ∧ header + 32 ≤ bytes
  signature : memoryHolds state.snapshot (offset + header) [0x24, 0x50, 0x6E, 0x50] = true
  revision : state.snapshot (offset + header + 4) = 1
  checked : ∃ length, length = (state.snapshot (offset + header + 5)).toNat * 16 ∧ 32 ≤ length ∧
    header + length ≤ bytes ∧
    (List.range length).foldl (fun sum index => sum + state.snapshot (offset + header + index)) 0 = 0

/-- The header is for the entry's class, strings and handler. -/
structure PnpNames (state : StorageRomState) (entry : BbsTable) (offset bytes header : Nat) : Prop where
  class_ : entry.class_ = state.snapshot (offset + header + 18) ∧
    entry.subClass = state.snapshot (offset + header + 19)
  description : entry.descStringOffset = le16 state.snapshot (offset + header + 16) ∧
    entry.descStringOffset ≠ 0 ∧ RomText state offset bytes entry.descStringOffset.toNat
  manufacturer : entry.mfgStringOffset = le16 state.snapshot (offset + header + 14) ∧
    (entry.mfgStringOffset = 0 ∨ RomText state offset bytes entry.mfgStringOffset.toNat)
  handler : entry.bootHandlerOffset = le16 state.snapshot (offset + header + 22) ∨
    entry.bootHandlerOffset = le16 state.snapshot (offset + header + 26)

/-- The headers from this one on, each at the offset that the one before it gives. -/
inductive PnpChain (state : StorageRomState) (offset : Nat) : Nat → List Nat → Prop where
  | done : PnpChain state offset 0 []
  | next {header : Nat} {headers : List Nat} (hne : header ≠ 0)
      (hrest : PnpChain state offset (le16 state.snapshot (offset + header + 6)).toNat headers) :
      PnpChain state offset header (header :: headers)

theorem pnpIsSound_iff : pnpIsSound state offset bytes header = true ∧ 0x1C ≤ header ∧ header + 32 ≤ bytes ↔
    PnpHeaderAt state offset bytes header := by
  simp only [pnpIsSound, Bool.and_eq_true, decide_eq_true_eq, beq_iff_eq]
  constructor
  · rintro ⟨⟨⟨⟨⟨hsigned, hrevised⟩, hlow⟩, hhigh⟩, hsum⟩, hinside⟩
    exact ⟨hinside, hsigned, hrevised, _, rfl, hlow, by omega, hsum⟩
  · rintro ⟨hinside, hsigned, hrevised, length, rfl, hlow, hhigh, hsum⟩
    exact ⟨⟨⟨⟨⟨hsigned, hrevised⟩, hlow⟩, by omega⟩, hsum⟩, hinside⟩

theorem pnpNames_iff : pnpNames state entry offset bytes header = true ↔
    PnpNames state entry offset bytes header := by
  simp only [pnpNames, Bool.and_eq_true, beq_iff_eq, Bool.or_eq_true, romString_iff]
  constructor
  · rintro ⟨⟨⟨⟨⟨⟨hclass, hsub⟩, hdescription⟩, hmanufacturer⟩, hhandler⟩, hdescribed⟩, hmade⟩
    rw [← hdescription] at hdescribed
    rw [← hmanufacturer] at hmade
    refine ⟨⟨hclass, hsub⟩, ⟨hdescription, ?_⟩, ⟨hmanufacturer, ?_⟩, hhandler⟩
    · split at hdescribed
      case isTrue => cases hdescribed
      case isFalse hne => exact ⟨hne, hdescribed⟩
    · split at hmade
      case isTrue hzero => exact .inl hzero
      case isFalse => exact .inr hmade
  · rintro ⟨⟨hclass, hsub⟩, ⟨hdescription, hne, hdescribed⟩, ⟨hmanufacturer, hmade⟩, hhandler⟩
    refine ⟨⟨⟨⟨⟨⟨hclass, hsub⟩, hdescription⟩, hmanufacturer⟩, hhandler⟩, ?_⟩, ?_⟩
    · rwa [← hdescription, if_neg hne]
    · rw [← hmanufacturer]
      split
      case isTrue => trivial
      case isFalse hne' => exact hmade.resolve_left hne'

/-- How many of these headers name the entry. -/
def namesCount (state : StorageRomState) (entry : BbsTable) (offset bytes : Nat) (headers : List Nat) : Nat :=
  headers.countP fun header => pnpNames state entry offset bytes header

/-- The chain is one that the walk goes through: not too long, new, and of sound headers. -/
structure WalkedChain (state : StorageRomState) (offset bytes turns : Nat) (seen : List Nat) (header : Nat)
    (headers : List Nat) : Prop where
  chain : PnpChain state offset header headers
  length : headers.length ≤ turns
  nodup : headers.Nodup
  fresh : ∀ place ∈ headers, place ∉ seen
  sound : ∀ place ∈ headers, PnpHeaderAt state offset bytes place

theorem pnpChain_zero {headers : List Nat} : PnpChain state offset 0 headers ↔ headers = [] := by
  constructor
  · intro h
    cases h with
    | done => rfl
    | next hne => exact absurd rfl hne
  · rintro rfl
    exact .done

theorem pnpChain_pos {headers : List Nat} (hne : header ≠ 0) : PnpChain state offset header headers ↔
    ∃ rest, headers = header :: rest ∧
      PnpChain state offset (le16 state.snapshot (offset + header + 6)).toNat rest := by
  constructor
  · intro h
    cases h with
    | done => exact absurd rfl hne
    | next _ hrest => exact ⟨_, rfl, hrest⟩
  · rintro ⟨rest, rfl, hrest⟩
    exact .next hne hrest

theorem walkedChain_zero {turns : Nat} {seen headers : List Nat} :
    WalkedChain state offset bytes turns seen 0 headers ↔ headers = [] := by
  constructor
  · exact fun h => pnpChain_zero.mp h.chain
  · rintro rfl
    exact ⟨.done, Nat.zero_le _, List.nodup_nil, by simp, by simp⟩

/-- A walk with a turn left goes through this header, if it is sound and new, and then on from the next. -/
theorem walkedChain_succ {turns : Nat} {seen headers : List Nat} (hne : header ≠ 0) :
    WalkedChain state offset bytes (turns + 1) seen header headers ↔
      (PnpHeaderAt state offset bytes header ∧ header ∉ seen) ∧ ∃ rest, headers = header :: rest ∧
        WalkedChain state offset bytes turns (header :: seen)
          (le16 state.snapshot (offset + header + 6)).toNat rest := by
  constructor
  · rintro ⟨hchain, hlength, hnodup, hfresh, hsound⟩
    obtain ⟨rest, rfl, hrest⟩ := (pnpChain_pos hne).mp hchain
    obtain ⟨hnew, hnodup⟩ := List.nodup_cons.mp hnodup
    rw [List.forall_mem_cons] at hfresh hsound
    refine ⟨⟨hsound.1, hfresh.1⟩, rest, rfl, hrest, Nat.le_of_succ_le_succ hlength, hnodup, ?_, hsound.2⟩
    intro place hplace hseen
    rcases List.mem_cons.mp hseen with rfl | hseen
    · exact hnew hplace
    · exact hfresh.2 place hplace hseen
  · rintro ⟨⟨hsound, hnew⟩, rest, rfl, hrest⟩
    refine ⟨.next hne hrest.chain, Nat.succ_le_succ hrest.length, ?_, ?_, ?_⟩
    · refine List.nodup_cons.mpr ⟨fun hmem => ?_, hrest.nodup⟩
      exact hrest.fresh header hmem List.mem_cons_self
    · refine List.forall_mem_cons.mpr ⟨hnew, fun place hplace hseen => ?_⟩
      exact hrest.fresh place hplace (List.mem_cons_of_mem _ hseen)
    · exact List.forall_mem_cons.mpr ⟨hsound, hrest.sound⟩

/-- What the walk says after a sound header. -/
theorem scanPnp_succ {turns : Nat} {seen : List Nat} {found : Nat × Bool} (hne : header ≠ 0)
    (hsound : PnpHeaderAt state offset bytes header) (hnew : header ∉ seen) :
    scanPnp state entry offset bytes (turns + 1) seen header found =
      scanPnp state entry offset bytes turns (header :: seen)
        (le16 state.snapshot (offset + header + 6)).toNat
        (if pnpNames state entry offset bytes header then
          (found.1 + 1, le16 state.snapshot (offset + header + 14) == 0)
        else found) := by
  obtain ⟨hchecked, hlow, hhigh⟩ := pnpIsSound_iff.mpr hsound
  rw [scanPnp, if_neg hne, if_neg (by omega), if_neg hnew, if_neg (by simp [hchecked])]

theorem scanPnp_succ_none {turns : Nat} {seen : List Nat} {found : Nat × Bool} (hne : header ≠ 0)
    (hbad : ¬ (PnpHeaderAt state offset bytes header ∧ header ∉ seen)) :
    scanPnp state entry offset bytes (turns + 1) seen header found = none := by
  rw [scanPnp, if_neg hne]
  split
  case isTrue => rfl
  case isFalse hbounds =>
  split
  case isTrue => rfl
  case isFalse hnew =>
  refine if_pos ?_
  rw [Bool.not_eq_true', ← Bool.not_eq_true]
  exact fun hchecked => hbad ⟨pnpIsSound_iff.mp ⟨hchecked, by omega, by omega⟩, hnew⟩

/-- The walk counts the headers of the whole chain that name the entry, or fails. -/
theorem scanPnp_iff {turns count : Nat} {seen : List Nat} {found : Nat × Bool} :
    (∃ missing, scanPnp state entry offset bytes turns seen header found = some (count, missing)) ↔
      ∃ headers, WalkedChain state offset bytes turns seen header headers ∧
        count = found.1 + namesCount state entry offset bytes headers := by
  have hdone : ∀ {turns seen found},
      (∃ missing, scanPnp state entry offset bytes turns seen 0 found = some (count, missing)) ↔
        ∃ headers, WalkedChain state offset bytes turns seen 0 headers ∧
          count = found.1 + namesCount state entry offset bytes headers := by
    intro turns seen found
    unfold scanPnp
    simp only [if_pos, walkedChain_zero, exists_eq_left]
    constructor
    · rintro ⟨missing, ⟨⟩⟩
      rfl
    · intro hcount
      exact ⟨found.2, by rw [hcount]; rfl⟩
  induction turns generalizing seen header found with
  | zero =>
      by_cases hzero : header = 0
      · subst hzero
        exact hdone
      rw [scanPnp, if_neg hzero]
      constructor
      · rintro ⟨missing, ⟨⟩⟩
      · rintro ⟨headers, hwalked, -⟩
        obtain ⟨rest, rfl, -⟩ := (pnpChain_pos hzero).mp hwalked.chain
        cases hwalked.length
  | succ turns ih =>
      by_cases hzero : header = 0
      · subst hzero
        exact hdone
      by_cases hsound : PnpHeaderAt state offset bytes header ∧ header ∉ seen
      · rw [scanPnp_succ hzero hsound.1 hsound.2]
        refine Iff.trans ih ?_
        simp only [walkedChain_succ hzero, and_iff_right hsound, namesCount]
        constructor
        · rintro ⟨rest, hwalked, rfl⟩
          refine ⟨header :: rest, ⟨rest, rfl, hwalked⟩, ?_⟩
          rw [List.countP_cons]
          split <;> omega
        · rintro ⟨headers, ⟨rest, rfl, hwalked⟩, rfl⟩
          refine ⟨rest, hwalked, ?_⟩
          rw [List.countP_cons]
          split <;> omega
      · rw [scanPnp_succ_none hzero hsound]
        constructor
        · rintro ⟨missing, ⟨⟩⟩
        · rintro ⟨headers, hwalked, -⟩
          exact absurd ((walkedChain_succ hzero).mp hwalked).1 hsound

/-! ### The controller -/

/-- The controller is on the first segment, has the identity of the ROM's PCI data and the entry's class. -/
structure RomController (state : StorageRomState) (entry : BbsTable) (offset pcir : Nat)
    (device : LegacyPciIdentity) : Prop where
  segment : device.segment = 0
  config : device.configStatus.isError = false
  identity : readLe16 device.config 0 = le16 state.snapshot (offset + pcir + 4) ∧
    readLe16 device.config 2 = le16 state.snapshot (offset + pcir + 6)
  class_ : device.config[0x0B]! = entry.class_ ∧ device.config[0x0A]! = entry.subClass

/-- Exactly one controller is at the entry's bus, device and function, and the ROM is its own. -/
def OneRomController (state : StorageRomState) (entry : BbsTable) (offset pcir : Nat) : Prop :=
  ∃ device, state.devices.filter (atEntryAddress entry) = [device] ∧
    RomController state entry offset pcir device

theorem romIsControllers_iff :
    romIsControllers state entry offset pcir = true ↔ OneRomController state entry offset pcir := by
  have hfilter : state.devices.filter (fun device => !device.locationStatus.isError &&
      device.bus == entry.bus.toNat && device.device == entry.device.toNat &&
      device.function == entry.function.toNat) = state.devices.filter (atEntryAddress entry) := rfl
  unfold romIsControllers OneRomController
  rw [hfilter]
  generalize state.devices.filter (atEntryAddress entry) = controllers
  rcases controllers with _ | ⟨device, _ | ⟨other, rest⟩⟩
  · simp
  · simp only [identityMatches, Bool.and_eq_true, beq_iff_eq, Bool.not_eq_true', List.cons.injEq, and_true,
      exists_eq_left']
    constructor
    · rintro ⟨⟨⟨⟨hsegment, hconfig⟩, hidentity⟩, hclass⟩, hsub⟩
      exact ⟨hsegment, hconfig, hidentity, hclass, hsub⟩
    · rintro ⟨hsegment, hconfig, hidentity, hclass, hsub⟩
      exact ⟨⟨⟨⟨hsegment, hconfig⟩, hidentity⟩, hclass⟩, hsub⟩
  · simp

/-! ### The match -/

/-- The entry is a mass-storage disk at numbers that PCI knows, and its handler's segment is that of a block
of shadow memory. -/
structure StorageEntry (entry : BbsTable) : Prop where
  disk : entry.deviceType = bbsHardDisk ∧ entry.class_ = 1
  numbers : entry.bus ≤ 255 ∧ entry.device ≤ 31 ∧ entry.function ≤ 7
  shadow : shadowBase ≤ entry.bootHandlerSegment.toNat * 16 ∧
    entry.bootHandlerSegment.toNat * 16 < shadowBase + shadowBytes
  aligned : entry.bootHandlerSegment.toNat * 16 % blockBytes = 0

/-- The entry's handler and strings are in the ROM its handler's segment names. -/
structure EntryInRom (entry : BbsTable) (bytes : Nat) : Prop where
  description : entry.descStringSegment = entry.bootHandlerSegment
  manufacturer : entry.mfgStringSegment = entry.bootHandlerSegment ∨
    (entry.mfgStringSegment = 0 ∧ entry.mfgStringOffset = 0)
  handler : entry.bootHandlerOffset ≠ 0 ∧ entry.bootHandlerOffset.toNat < bytes

/-- A chain of sound headers, at most 32 of them and none twice, of which exactly one names the entry. -/
structure OneNamed (state : StorageRomState) (entry : BbsTable) (offset bytes first : Nat)
    (headers : List Nat) : Prop where
  chain : PnpChain state offset first headers
  length : headers.length ≤ maxPnpHeaders
  nodup : headers.Nodup
  sound : ∀ header ∈ headers, PnpHeaderAt state offset bytes header
  one : ∃ named ∈ headers, PnpNames state entry offset bytes named ∧
    ∀ header ∈ headers, PnpNames state entry offset bytes header → header = named

/-- The ROM at the entry's handler is as it was, its controller's, and names the entry once. -/
structure EntryRom (state : StorageRomState) (live : Nat → UInt8) (entry : BbsTable) (bytes pcir : Nat) :
    Prop where
  rom : StorageRomAt state (handlerRom entry) bytes pcir
  unchanged : ∀ place, handlerRom entry ≤ place → place < handlerRom entry + bytes →
    state.snapshot place = live place
  strings : EntryInRom entry bytes
  controller : OneRomController state entry (handlerRom entry) pcir
  named : ∃ headers, OneNamed state entry (handlerRom entry) bytes
    (le16 state.snapshot (handlerRom entry + 0x1A)).toNat headers

theorem entryInShadow_iff : entryInShadow entry = true ↔ StorageEntry entry := by
  simp only [entryInShadow, Bool.and_eq_true, beq_iff_eq, decide_eq_true_eq]
  constructor
  · rintro ⟨⟨⟨⟨⟨⟨⟨hdisk, hclass⟩, hbus⟩, hdevice⟩, hfunction⟩, hbase⟩, hend⟩, haligned⟩
    exact ⟨⟨hdisk, hclass⟩, ⟨hbus, hdevice, hfunction⟩, ⟨hbase, hend⟩, haligned⟩
  · rintro ⟨⟨hdisk, hclass⟩, ⟨hbus, hdevice, hfunction⟩, ⟨hbase, hend⟩, haligned⟩
    exact ⟨⟨⟨⟨⟨⟨⟨hdisk, hclass⟩, hbus⟩, hdevice⟩, hfunction⟩, hbase⟩, hend⟩, haligned⟩

theorem entryInRom_iff : entryInRom entry bytes = true ↔ EntryInRom entry bytes := by
  simp only [entryInRom, Bool.and_eq_true, beq_iff_eq, Bool.or_eq_true, bne_iff_ne, decide_eq_true_eq]
  constructor
  · rintro ⟨⟨⟨hdescription, hmanufacturer⟩, hne⟩, hlt⟩
    exact ⟨hdescription, hmanufacturer, hne, hlt⟩
  · rintro ⟨hdescription, hmanufacturer, hne, hlt⟩
    exact ⟨⟨⟨hdescription, hmanufacturer⟩, hne⟩, hlt⟩

/-- One header of a list without repetitions names the entry when one of them is the only one that does. -/
theorem namesCount_eq_one {headers : List Nat} (hnodup : headers.Nodup) :
    namesCount state entry offset bytes headers = 1 ↔
      ∃ named ∈ headers, PnpNames state entry offset bytes named ∧
        ∀ header ∈ headers, PnpNames state entry offset bytes header → header = named := by
  rw [namesCount, List.countP_eq_length_filter, List.length_eq_one_iff]
  simp only [← pnpNames_iff]
  constructor
  · rintro ⟨named, hone⟩
    have hmem : ∀ header, header ∈ headers ∧ pnpNames state entry offset bytes header = true ↔
        header = named := by
      intro header
      rw [← List.mem_filter, hone, List.mem_singleton]
    obtain ⟨hin, hnamed⟩ := (hmem named).mpr rfl
    exact ⟨named, hin, hnamed, fun header hheader hnames => (hmem header).mp ⟨hheader, hnames⟩⟩
  · rintro ⟨named, hin, hnamed, hunique⟩
    refine ⟨named, List.perm_singleton.mp ?_⟩
    refine (List.perm_ext_iff_of_nodup (hnodup.filter _) (List.nodup_singleton named)).mpr fun header => ?_
    rw [List.mem_filter, List.mem_singleton]
    constructor
    · exact fun h => hunique header h.1 h.2
    · rintro rfl
      exact ⟨hin, hnamed⟩

theorem pnpVerdict_iff : (pnpVerdict (scanPnp state entry offset bytes maxPnpHeaders [] start
    (0, false))).1 = true ↔ ∃ headers, OneNamed state entry offset bytes start headers := by
  have hverdict : (pnpVerdict (scanPnp state entry offset bytes maxPnpHeaders [] start (0, false))).1 =
      true ↔ ∃ missing, scanPnp state entry offset bytes maxPnpHeaders [] start (0, false) =
        some (1, missing) := by
    cases scanPnp state entry offset bytes maxPnpHeaders [] start (0, false) with
    | none => simp [pnpVerdict]
    | some found =>
        obtain ⟨count, missing⟩ := found
        simp [pnpVerdict]
  rw [hverdict, scanPnp_iff]
  refine exists_congr fun headers => ?_
  simp only [Nat.zero_add]
  constructor
  · rintro ⟨⟨hchain, hlength, hnodup, -, hsound⟩, hcount⟩
    exact ⟨hchain, hlength, hnodup, hsound, (namesCount_eq_one hnodup).mp hcount.symm⟩
  · rintro ⟨hchain, hlength, hnodup, hsound, hone⟩
    refine ⟨⟨hchain, hlength, hnodup, ?_, hsound⟩, ((namesCount_eq_one hnodup).mpr hone).symm⟩
    exact fun place _ => List.not_mem_nil

theorem storageRomMatch_iff : (legacyStorageRomMatch state live entry).1 = true ↔
    StorageEntry entry ∧ ∃ bytes pcir, EntryRom state live entry bytes pcir := by
  unfold legacyStorageRomMatch
  split
  case isTrue hout =>
    refine iff_of_false Bool.false_ne_true fun h => ?_
    rw [entryInShadow_iff.mpr h.1] at hout
    cases hout
  case isFalse hin =>
  rw [and_iff_right (entryInShadow_iff.mp (by simpa using hin))]
  split
  case h_1 hnone =>
    refine iff_of_false Bool.false_ne_true ?_
    rintro ⟨bytes, pcir, hrom⟩
    rw [rom_iff.mpr hrom.rom] at hnone
    cases hnone
  case h_2 bytes pcir hrom =>
  have hunique : ∀ {bytes' pcir'}, EntryRom state live entry bytes' pcir' → bytes' = bytes ∧ pcir' = pcir := by
    intro bytes' pcir' h
    have hsame := rom_iff.mpr h.rom
    rw [hrom] at hsame
    cases hsame
    exact ⟨rfl, rfl⟩
  split
  case isTrue hreject =>
    refine iff_of_false Bool.false_ne_true ?_
    rintro ⟨bytes', pcir', h⟩
    obtain ⟨rfl, rfl⟩ := hunique h
    have hsame := sameMemory_iff.mpr h.unchanged
    simp [hsame, entryInRom_iff.mpr h.strings, romIsControllers_iff.mpr h.controller] at hreject
  case isFalse haccept =>
    simp only [Bool.or_eq_true, Bool.not_eq_true', not_or, Bool.not_eq_false] at haccept
    obtain ⟨⟨hsame, hentry⟩, hcontroller⟩ := haccept
    rw [pnpVerdict_iff]
    constructor
    · intro hnamed
      exact ⟨bytes, pcir, rom_iff.mp hrom, sameMemory_iff.mp hsame, entryInRom_iff.mp hentry,
        romIsControllers_iff.mp hcontroller, hnamed⟩
    · rintro ⟨bytes', pcir', h⟩
      obtain ⟨rfl, rfl⟩ := hunique h
      exact h.named

/-- What the match does, and what it says. -/
structure StorageRomVerdict (state : StorageRomState) (live : Nat → UInt8) (entry : BbsTable) : Prop where
  reads : Yields (InsideRom state (handlerRom entry)) (state.memory live)
    (peekStorageRomMatch state.devices entry) (legacyStorageRomMatch state live entry)
  accepts : (legacyStorageRomMatch state live entry).1 = true ↔
    StorageEntry entry ∧ ∃ bytes pcir, EntryRom state live entry bytes pcir
  order : ∀ devices, devices.Perm state.devices →
    legacyStorageRomMatch { state with devices } live entry = legacyStorageRomMatch state live entry

/-- Records in another order have the same one controller, or none. -/
theorem peekIsControllers_perm {devices devices' : List LegacyPciIdentity}
    (hperm : devices.Perm devices') :
    peekIsControllers devices entry offset pcir = peekIsControllers devices' entry offset pcir := by
  have hfilter := hperm.filter (atEntryAddress entry)
  unfold atEntryAddress at hfilter
  unfold peekIsControllers
  generalize devices.filter _ = controllers at *
  generalize devices'.filter _ = controllers' at *
  have hlength := hfilter.length_eq
  rcases controllers with _ | ⟨device, _ | ⟨other, rest⟩⟩
  · rw [List.nil_perm.mp hfilter]
  · rw [List.singleton_perm.mp hfilter]
  · rcases controllers' with _ | ⟨device', _ | ⟨other', rest'⟩⟩
    · cases hlength
    · cases hlength
    · rfl

/-- **The match is exact**: it reads inside the ROM of the entry, whatever its chain of headers, and does
not look at the order of the inventory. -/
theorem storageRomMatch_exact : StorageRomVerdict state live entry := by
  refine ⟨peekStorageRomMatch_yields, storageRomMatch_iff, fun devices hperm => ?_⟩
  have hmemory : StorageRomState.memory { state with devices } live = state.memory live := by
    funext place
    cases place with
    | snapshot offset => rfl
    | valid block => rfl
    | live offset => rfl
  have hprogram : peekStorageRomMatch devices entry = peekStorageRomMatch state.devices entry := by
    unfold peekStorageRomMatch
    simp only [peekIsControllers_perm hperm]
  have hordered := (@peekStorageRomMatch_yields { state with devices } live entry).run_eq
  rw [hmemory] at hordered
  calc legacyStorageRomMatch { state with devices } live entry
      = (peekStorageRomMatch devices entry).run (state.memory live) := hordered.symm
    _ = (peekStorageRomMatch state.devices entry).run (state.memory live) := by rw [hprogram]
    _ = legacyStorageRomMatch state live entry := peekStorageRomMatch_yields.run_eq

end

end CsmVgaSelector
