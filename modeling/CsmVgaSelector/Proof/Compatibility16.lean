import CsmVgaSelector.Proof.MemoryMap
import CsmVgaSelector.Rom.Storage
import CsmVgaSelector.Route.Compatibility16

/-!
# The choice of the Compatibility16 table

A table is acceptable by what its bytes and the bytes it points to say. The scan takes a table exactly when it
is the only acceptable one, and reads only what the memory map lets it read of the region
(`compatibility16_exact`).
-/

namespace CsmVgaSelector

open Peek

/-! ### Acceptable tables -/

def memoryBytes (memory : Nat → UInt8) (address count : Nat) : List UInt8 :=
  (List.range count).map fun index => memory (address + index)

/-- A little-endian double word. -/
def le32 (memory : Nat → UInt8) (address : Nat) : Nat :=
  (memory address).toNat + 2 ^ 8 * (memory (address + 1)).toNat + 2 ^ 16 * (memory (address + 2)).toNat +
    2 ^ 24 * (memory (address + 3)).toNat

section

variable (memory : Nat → UInt8) (snapshot : MemoryMapSnapshot) (systemTable address : Nat)

/-- A range of the region that the memory map lets the scan read. -/
structure ScanRange (start length : Nat) : Prop where
  low : compatScanStart ≤ start
  high : start + length ≤ compatScanEnd
  readable : isReadable snapshot start length = true

def declaredLength : Nat := (memory (address + 5)).toNat

def tableSum : UInt8 := (memoryBytes memory address (declaredLength memory address)).sum

def callTarget : Nat := 16 * (le16 memory (address + 12)).toNat + (le16 memory (address + 14)).toNat

def pnpTarget : Nat := 16 * (le16 memory (address + 16)).toNat + (le16 memory (address + 18)).toNat

/-- Four bytes or more of the sample are neither zeros nor ones. -/
def LooksExecutable (sample : List UInt8) : Prop :=
  4 ≤ (sample.filter fun held => held ≠ 0x00 ∧ held ≠ 0xFF).length

instance (sample : List UInt8) : Decidable (LooksExecutable sample) := inferInstanceAs (Decidable (_ ≤ _))

/-- What stands in for a checksum: the exact system table, a table of a known revision, and values in the fields
that only the firmware fills in. -/
structure Corroborated : Prop where
  exactTable : le32 memory (address + 20) = systemTable % 2 ^ 32
  lastBus : compatLastBusEnd ≤ declaredLength memory address
  known : declaredLength memory address ≤ compatTableBytes
  pciExpress : le32 memory (address + compatPcieStart) ≠ 0
  lastPciBus : memory (address + compatPcieEnd) ≠ 0

instance : Decidable (Corroborated memory systemTable address) :=
  decidable_of_iff (le32 memory (address + 20) = systemTable % 2 ^ 32 ∧
      compatLastBusEnd ≤ declaredLength memory address ∧ declaredLength memory address ≤ compatTableBytes ∧
      le32 memory (address + compatPcieStart) ≠ 0 ∧ memory (address + compatPcieEnd) ≠ 0)
    ⟨fun ⟨h1, h2, h3, h4, h5⟩ => ⟨h1, h2, h3, h4, h5⟩, fun h => ⟨h.1, h.2, h.3, h.4, h.5⟩⟩

structure Acceptable : Prop where
  aligned : compatScanAlignment ∣ address
  signature : memoryBytes memory address 4 = compatSignature
  required : compatRequiredLength ≤ declaredLength memory address
  range : ScanRange snapshot address (declaredLength memory address)
  revision : memory (address + 8) ≠ 0xFF ∧ memory (address + 9) ≠ 0xFF
  relationship : le32 memory (address + 20) = 0 ∨ le32 memory (address + 20) = systemTable % 2 ^ 32
  pciExpress : declaredLength memory address ≤ compatPcieStart ∨
    compatPcieEnd ≤ declaredLength memory address ∧ efiPageSize ∣ le32 memory (address + compatPcieStart)
  call : ScanRange snapshot (callTarget memory address) compatCallSampleBytes ∧
    LooksExecutable (memoryBytes memory (callTarget memory address) compatCallSampleBytes)
  pnp : ScanRange snapshot (pnpTarget memory address) 4 ∧
    memoryBytes memory (pnpTarget memory address) 4 = pnpSignature
  sum : tableSum memory address = 0 ∨ Corroborated memory systemTable address

/-- The fields of a table. -/
def selectionAt : PlanCompatibility16 where
  table := address
  address := address
  tableLength := memory (address + 5)
  storedChecksum := memory (address + 4)
  calculatedChecksum := tableSum memory address
  callSegment := le16 memory (address + 12)
  callOffset := le16 memory (address + 14)
  callAddress := callTarget memory address
  pnpSegment := le16 memory (address + 16)
  pnpOffset := le16 memory (address + 18)
  checksumValid := tableSum memory address == 0
  structuralCorroboration := decide (Corroborated memory systemTable address)
  staleChecksumAccepted := tableSum memory address != 0 && decide (Corroborated memory systemTable address)

/-- A place in the region that the memory map lets the scan read. -/
def InScan (place : Nat) : Prop := ScanRange snapshot place 1

/-- The answer to a scan of the region. -/
structure CompatibilityChoice (status : EfiStatus) (selected : PlanCompatibility16) : Prop where
  success_iff : status = .success ↔ ∃! address, Acceptable memory snapshot systemTable address
  fields : ∀ address, status = .success → Acceptable memory snapshot systemTable address →
    selected = selectionAt memory systemTable address
  zero : status ≠ .success → selected = {}
  notFound : status = .notFound ↔ ∀ address, ¬ Acceptable memory snapshot systemTable address

end

variable {memory : Nat → UInt8} {snapshot : MemoryMapSnapshot} {systemTable address count : Nat}

/-! ### Readable ranges -/

/-- What the memory map lets be read may be read in parts. -/
theorem isReadable_part {start length part bytes : Nat} (h : isReadable snapshot start length = true)
    (hwrap : start + length ≤ 2 ^ 32) (hfrom : start ≤ part) (hto : part + bytes ≤ start + length)
    (hpos : 0 < bytes) : isReadable snapshot part bytes = true := by
  by_cases hwhole : snapshot.WellFormed
  · have hrange : RangeAnswer snapshot start length false :=
      rangeAccessible_exact hwhole (by omega) (by unfold maxUintn; omega) (by omega)
    have hpart : RangeAnswer snapshot part bytes false :=
      rangeAccessible_exact hwhole hpos (by unfold maxUintn; omega) (by omega)
    obtain ⟨hfits, hsole⟩ := (hrange.accepts false).mp h
    exact (hpart.accepts false).mpr ⟨hfits, fun byte hlow hhigh => hsole byte (by omega) (by omega)⟩
  · have hguard : snapshot.descriptorSize < efiMemoryDescriptorBytes ∨
        snapshot.mapSize % snapshot.descriptorSize ≠ 0 := by
      by_contra hsound
      push Not at hsound
      exact hwhole ⟨hsound.1, hsound.2⟩
    have hfalse : isReadable snapshot start length = false := by
      rw [isReadable, MemoryMapSnapshot.memoryMapRangeIsReadable, memoryMapRangeAccessible, if_pos]
      tauto
    rw [hfalse] at h
    cases h

theorem ScanRange.part {start length part bytes : Nat} (h : ScanRange snapshot start length)
    (hfrom : start ≤ part) (hto : part + bytes ≤ start + length) (hpos : 0 < bytes) :
    ScanRange snapshot part bytes where
  low := h.low.trans hfrom
  high := hto.trans h.high
  readable := by
    have hhigh := h.high
    unfold compatScanEnd at hhigh
    exact isReadable_part h.readable (by omega) hfrom hto hpos

theorem ScanRange.inScan {start length : Nat} (h : ScanRange snapshot start length) (index : Nat)
    (hindex : index < length) : InScan snapshot (start + index) :=
  h.part (Nat.le_add_right _ _) (by omega) Nat.one_pos

/-! ### Reads -/

theorem memoryBytes_succ : memoryBytes memory address (count + 1) =
    memory address :: memoryBytes memory (address + 1) count := by
  rw [memoryBytes, List.range_succ_eq_map, List.map_cons, List.map_map, memoryBytes]
  refine congrArg₂ List.cons rfl (List.map_congr_left fun index _ => ?_)
  rw [Function.comp_apply, Nat.add_assoc, Nat.add_comm 1 index]

theorem peekBytes_memory {inside : Nat → Prop} (h : ∀ index < count, inside (address + index)) :
    Yields inside memory (peekBytes address count) (memoryBytes memory address count) := by
  induction count generalizing address with
  | zero => exact Yields.pure
  | succ count ih =>
      rw [memoryBytes_succ]
      refine Yields.bind_peek (h 0 (Nat.zero_lt_succ _)) (Yields.bind (ih fun index hindex => ?_) Yields.pure)
      rw [Nat.add_right_comm, Nat.add_assoc]
      exact h (index + 1) (by omega)

theorem comparesTo_decides {inside : Nat → Prop} {text : List UInt8}
    (h : ∀ index < text.length, inside (address + index)) :
    Decides inside memory (comparesTo address text) (memoryBytes memory address text.length = text) := by
  induction text generalizing address with
  | nil => exact Decides.pure (iff_of_true rfl rfl)
  | cons character text ih =>
      rw [List.length_cons, memoryBytes_succ, List.cons_eq_cons]
      refine Decides.bind (Yields.peek (h 0 (Nat.zero_lt_succ _))) ?_
      by_cases hsame : memory address = character
      · have hrest := @ih (address + 1) fun index hindex => by
          rw [Nat.add_right_comm, Nat.add_assoc]
          exact h (index + 1) (Nat.succ_lt_succ hindex)
        rw [Nat.add_zero, if_neg (not_not_intro hsame)]
        exact hrest.congr (iff_and_self.mpr fun _ => hsame)
      · rw [Nat.add_zero, if_pos hsame]
        exact Decides.pure (iff_of_false Bool.false_ne_true fun hboth => hsame hboth.1)

/-! ### The fields of a candidate -/

/-- The copy of a table of this length. -/
def candidateBytes (memory : Nat → UInt8) (address length : Nat) : List UInt8 :=
  memoryBytes memory address (min length compatTableBytes) ++
    List.replicate (compatTableBytes - (memoryBytes memory address (min length compatTableBytes)).length) 0

theorem memoryBytes_length : (memoryBytes memory address count).length = count := by
  rw [memoryBytes, List.length_map, List.length_range]

theorem candidateBytes_get {length index : Nat} (hlength : index < length) (htable : index < compatTableBytes) :
    (candidateBytes memory address length)[index]! = memory (address + index) := by
  have hindex : index < (memoryBytes memory address (min length compatTableBytes)).length := by
    rw [memoryBytes_length]
    omega
  rw [List.getElem!_eq_getElem?_getD, candidateBytes, List.getElem?_append_left hindex,
    List.getElem?_eq_getElem hindex, Option.getD_some]
  simp [memoryBytes]

theorem candidate_le16 {length offset : Nat} (hlength : offset + 1 < length)
    (htable : offset + 1 < compatTableBytes) :
    readLe16 (candidateBytes memory address length) offset = le16 memory (address + offset) := by
  rw [readLe16, candidateBytes_get (by omega) (by omega), candidateBytes_get hlength htable, le16, Nat.add_assoc]

theorem candidate_le32 {length offset : Nat} (hlength : offset + 3 < length)
    (htable : offset + 3 < compatTableBytes) :
    readLe (candidateBytes memory address length) offset 4 = le32 memory (address + offset) := by
  simp only [readLe, Nat.add_assoc, Nat.reduceAdd]
  rw [candidateBytes_get (by omega) (by omega), candidateBytes_get (by omega) (by omega),
    candidateBytes_get (by omega) (by omega), candidateBytes_get hlength htable]
  simp only [le32, Nat.add_assoc]
  omega

theorem farAddress_eq {segment offset : UInt16} : farAddress segment offset = 16 * segment.toNat + offset.toNat := by
  rw [farAddress, Nat.shiftLeft_eq, Nat.mul_comm]

theorem executableLooking_iff {sample : List UInt8} : executableLooking sample = true ↔ LooksExecutable sample := by
  have hcount : sample.countP (fun held => held != 0x00 && held != 0xFF) =
      (sample.filter fun held => held ≠ 0x00 ∧ held ≠ 0xFF).length := by
    rw [List.countP_eq_length_filter]
    congr 1
    refine List.filter_congr fun held _ => ?_
    simp [bne, beq_eq_decide]
  rw [executableLooking, hcount, Bool.and_eq_true, decide_eq_true_iff, LooksExecutable]
  refine and_iff_right_of_imp fun hmany => ?_
  cases sample with
  | nil => exact absurd hmany (by decide)
  | cons held sample => rfl

theorem callLooksExecutable_decides : Decides (InScan snapshot) memory (callLooksExecutable snapshot address)
    (ScanRange snapshot address compatCallSampleBytes ∧
      LooksExecutable (memoryBytes memory address compatCallSampleBytes)) := by
  unfold callLooksExecutable
  split
  case isTrue hrange =>
    obtain ⟨hlow, hhigh, hreadable⟩ := hrange
    have hscan : ScanRange snapshot address compatCallSampleBytes := {
      low := hlow
      high := by
        unfold compatScanEnd compatCallSampleBytes at *
        omega
      readable := hreadable }
    exact Decides.bind (peekBytes_memory hscan.inScan)
      (Decides.pure (executableLooking_iff.trans (iff_and_self.mpr fun _ => hscan)))
  case isFalse hrange =>
    refine Decides.pure (iff_of_false Bool.false_ne_true ?_)
    rintro ⟨hscan, -⟩
    refine hrange ⟨hscan.low, ?_, hscan.readable⟩
    have hhigh := hscan.high
    unfold compatScanEnd compatCallSampleBytes at *
    omega

theorem pnpSignatureValid_decides : Decides (InScan snapshot) memory (pnpSignatureValid snapshot address)
    (ScanRange snapshot address 4 ∧ memoryBytes memory address 4 = pnpSignature) := by
  unfold pnpSignatureValid
  split
  case isTrue hrange =>
    obtain ⟨hlow, hhigh, hreadable⟩ := hrange
    have hscan : ScanRange snapshot address 4 := {
      low := hlow
      high := by
        unfold compatScanEnd at *
        omega
      readable := hreadable }
    have hcompares : Decides (InScan snapshot) memory (comparesTo address pnpSignature)
        (memoryBytes memory address 4 = pnpSignature) :=
      comparesTo_decides hscan.inScan
    exact hcompares.congr (iff_and_self.mpr fun _ => hscan)
  case isFalse hrange =>
    refine Decides.pure (iff_of_false Bool.false_ne_true ?_)
    rintro ⟨hscan, -⟩
    refine hrange ⟨hscan.low, ?_, hscan.readable⟩
    have hhigh := hscan.high
    unfold compatScanEnd at *
    omega

/-! ### One place -/

theorem candidate_pciExpress {length : Nat} :
    (decide (length ≤ compatPcieStart) || decide (length ≥ compatPcieEnd) &&
        readLe (candidateBytes memory address length) compatPcieStart 4 &&& (efiPageSize - 1) == 0) =
      decide (length ≤ compatPcieStart ∨
        compatPcieEnd ≤ length ∧ efiPageSize ∣ le32 memory (address + compatPcieStart)) := by
  by_cases hlength : compatPcieEnd ≤ length
  · have hfield : readLe (candidateBytes memory address length) compatPcieStart 4 =
        le32 memory (address + compatPcieStart) := candidate_le32 hlength (by decide)
    have hpage : (le32 memory (address + compatPcieStart) &&& (efiPageSize - 1) == 0) =
        decide (efiPageSize ∣ le32 memory (address + compatPcieStart)) := by
      rw [beq_eq_decide, decide_eq_decide, Nat.dvd_iff_mod_eq_zero]
      exact Eq.congr (Nat.and_two_pow_sub_one_eq_mod _ 12) rfl
    rw [hfield, hpage, Bool.decide_or, Bool.decide_and]
  · rw [decide_eq_false hlength, Bool.false_and, Bool.or_false, decide_eq_decide]
    exact (or_iff_left fun hend => hlength hend.1).symm

theorem candidate_lastBus {length : Nat} :
    (decide (length ≥ compatLastBusEnd) && decide (length ≤ compatTableBytes) &&
        readLe (candidateBytes memory address length) compatPcieStart 4 != 0 &&
        (candidateBytes memory address length)[compatPcieEnd]! != 0) =
      decide (compatLastBusEnd ≤ length ∧ length ≤ compatTableBytes ∧
        le32 memory (address + compatPcieStart) ≠ 0 ∧ memory (address + compatPcieEnd) ≠ 0) := by
  by_cases hlength : compatLastBusEnd ≤ length
  · have hbase : readLe (candidateBytes memory address length) compatPcieStart 4 =
        le32 memory (address + compatPcieStart) :=
      candidate_le32 (Nat.le_of_succ_le hlength) (by decide)
    have hbus : (candidateBytes memory address length)[compatPcieEnd]! = memory (address + compatPcieEnd) :=
      candidateBytes_get hlength (by decide)
    rw [hbase, hbus]
    simp [bne, beq_eq_decide, Bool.and_assoc]
  · rw [decide_eq_false hlength, Bool.false_and, Bool.false_and, Bool.false_and]
    exact (decide_eq_false fun hall => hlength hall.1).symm

/-- The checks behind the length. -/
structure TableChecks (memory : Nat → UInt8) (snapshot : MemoryMapSnapshot) (systemTable address : Nat) : Prop where
  revision : memory (address + 8) ≠ 0xFF ∧ memory (address + 9) ≠ 0xFF
  relationship : le32 memory (address + 20) = 0 ∨ le32 memory (address + 20) = systemTable % 2 ^ 32
  pciExpress : declaredLength memory address ≤ compatPcieStart ∨
    compatPcieEnd ≤ declaredLength memory address ∧ efiPageSize ∣ le32 memory (address + compatPcieStart)
  call : ScanRange snapshot (callTarget memory address) compatCallSampleBytes ∧
    LooksExecutable (memoryBytes memory (callTarget memory address) compatCallSampleBytes)
  pnp : ScanRange snapshot (pnpTarget memory address) 4 ∧
    memoryBytes memory (pnpTarget memory address) 4 = pnpSignature

open Classical in
theorem judgeTable_yields (hrequired : compatRequiredLength ≤ declaredLength memory address)
    (hrange : ScanRange snapshot address (declaredLength memory address)) :
    Yields (InScan snapshot) memory (judgeTable snapshot systemTable address (memory (address + 5)))
      (if TableChecks memory snapshot systemTable address ∧
          (tableSum memory address = 0 ∨ Corroborated memory systemTable address) then
        some (selectionAt memory systemTable address)
      else none) := by
  have hcopied : Yields (InScan snapshot) memory
      (peekBytes address (min (declaredLength memory address) compatTableBytes))
      (memoryBytes memory address (min (declaredLength memory address) compatTableBytes)) :=
    peekBytes_memory fun index hindex => hrange.inScan index (by omega)
  have hsummed : Yields (InScan snapshot) memory (peekBytes address (declaredLength memory address))
      (memoryBytes memory address (declaredLength memory address)) :=
    peekBytes_memory fun index hindex => hrange.inScan index hindex
  unfold compatRequiredLength at hrequired
  have htable : compatibility16Table (candidateBytes memory address (declaredLength memory address)) =
      { tableChecksum := memory (address + 4)
        tableMajorRevision := memory (address + 8)
        tableMinorRevision := memory (address + 9)
        callSegment := le16 memory (address + 12)
        callOffset := le16 memory (address + 14)
        pnpSegment := le16 memory (address + 16)
        pnpOffset := le16 memory (address + 18)
        efiSystemTable := le32 memory (address + 20)
        pciExpressBase :=
          readLe (candidateBytes memory address (declaredLength memory address)) compatPcieStart 4
        lastPciBus := (candidateBytes memory address (declaredLength memory address))[compatPcieEnd]! } := by
    unfold compatibility16Table
    rw [candidateBytes_get (by omega) (by decide), candidateBytes_get (by omega) (by decide),
      candidateBytes_get (by omega) (by decide), candidate_le16 (by omega) (by decide),
      candidate_le16 (by omega) (by decide), candidate_le16 (by omega) (by decide),
      candidate_le16 (by omega) (by decide), candidate_le32 (by omega) (by decide)]
  refine hcopied.bind ?_
  have hcandidate : memoryBytes memory address (min (declaredLength memory address) compatTableBytes) ++
      List.replicate (compatTableBytes -
        (memoryBytes memory address (min (declaredLength memory address) compatTableBytes)).length) 0 =
      candidateBytes memory address (declaredLength memory address) := rfl
  have hcall : farAddress (le16 memory (address + 12)) (le16 memory (address + 14)) =
      callTarget memory address := farAddress_eq
  have hpnp : farAddress (le16 memory (address + 16)) (le16 memory (address + 18)) =
      pnpTarget memory address := farAddress_eq
  simp only [hcandidate, htable, hcall, hpnp]
  refine callLooksExecutable_decides.yields.bind (pnpSignatureValid_decides.yields.bind (hsummed.bind ?_))
  have hlength : (memory (address + 5)).toNat = declaredLength memory address := rfl
  have hsum : (memoryBytes memory address (declaredLength memory address)).sum = tableSum memory address := rfl
  simp only [hlength, hsum, candidate_pciExpress, candidate_lastBus]
  by_cases hchecks : TableChecks memory snapshot systemTable address
  · have hmajor : (memory (address + 8) != 0xFF) = true := bne_iff_ne.mpr hchecks.revision.1
    have hminor : (memory (address + 9) != 0xFF) = true := bne_iff_ne.mpr hchecks.revision.2
    have hrelationship : (le32 memory (address + 20) == 0 ||
        le32 memory (address + 20) == systemTable % 2 ^ 32) = true := by simpa using hchecks.relationship
    have hcorroborated : (le32 memory (address + 20) == systemTable % 2 ^ 32 &&
        decide (compatLastBusEnd ≤ declaredLength memory address ∧
          declaredLength memory address ≤ compatTableBytes ∧ le32 memory (address + compatPcieStart) ≠ 0 ∧
          memory (address + compatPcieEnd) ≠ 0)) = decide (Corroborated memory systemTable address) := by
      rw [beq_eq_decide, ← Bool.decide_and, decide_eq_decide]
      exact ⟨fun ⟨hexact, hend, hknown, hbase, hbus⟩ => ⟨hexact, hend, hknown, hbase, hbus⟩,
        fun h => ⟨h.exactTable, h.lastBus, h.known, h.pciExpress, h.lastPciBus⟩⟩
    simp only [hmajor, hminor, hrelationship, decide_eq_true hchecks.pciExpress, decide_eq_true hchecks.call,
      decide_eq_true hchecks.pnp, Bool.true_and, Bool.and_true, hcorroborated]
    by_cases haccepted : tableSum memory address = 0 ∨ Corroborated memory systemTable address
    · rw [if_neg (by simpa [or_iff_not_imp_left] using haccepted), if_pos ⟨hchecks, haccepted⟩]
      exact Yields.pure
    · rw [if_pos (by simpa using haccepted), if_neg fun hboth => haccepted hboth.2]
      exact Yields.pure
  · rw [if_pos, if_neg fun hboth => hchecks hboth.1]
    · exact Yields.pure
    · rw [Bool.not_eq_true', Bool.eq_false_iff]
      intro haccepted
      simp only [Bool.and_eq_true, bne_iff_ne, decide_eq_true_iff, Bool.or_eq_true, beq_iff_eq] at haccepted
      obtain ⟨⟨⟨⟨⟨hrevision, hrelationship⟩, hpciExpress⟩, hcalled⟩, hpnped⟩, -⟩ := haccepted
      exact hchecks ⟨hrevision, hrelationship, hpciExpress, hcalled, hpnped⟩

theorem acceptable_iff (haligned : compatScanAlignment ∣ address) :
    Acceptable memory snapshot systemTable address ↔
      memoryBytes memory address 4 = compatSignature ∧
        (compatRequiredLength ≤ declaredLength memory address ∧
          ScanRange snapshot address (declaredLength memory address)) ∧
        TableChecks memory snapshot systemTable address ∧
        (tableSum memory address = 0 ∨ Corroborated memory systemTable address) := by
  constructor
  · intro h
    exact ⟨h.signature, ⟨h.required, h.range⟩,
      ⟨h.revision, h.relationship, h.pciExpress, h.call, h.pnp⟩, h.sum⟩
  · rintro ⟨hsignature, ⟨hrequired, hrange⟩, hchecks, hsum⟩
    exact ⟨haligned, hsignature, hrequired, hrange, hchecks.revision, hchecks.relationship, hchecks.pciExpress,
      hchecks.call, hchecks.pnp, hsum⟩

open Classical in
/-- What the scan makes of one place. -/
noncomputable def judgement (memory : Nat → UInt8) (snapshot : MemoryMapSnapshot) (systemTable address : Nat) :
    Option PlanCompatibility16 :=
  if Acceptable memory snapshot systemTable address then some (selectionAt memory systemTable address) else none

open Classical in
theorem judgeCandidate_yields (hlow : compatScanStart ≤ address) (hhigh : address + 6 ≤ compatScanEnd)
    (haligned : compatScanAlignment ∣ address) :
    Yields (InScan snapshot) memory (judgeCandidate snapshot systemTable address)
      (judgement memory snapshot systemTable address) := by
  unfold judgeCandidate judgement
  rw [if_congr (acceptable_iff haligned) rfl rfl]
  refine Yields.unless (fun hreadable => ?_) fun hunreadable => if_neg ?_
  case refine_2 =>
    rintro ⟨-, ⟨hrequired, hrange⟩, -⟩
    unfold compatRequiredLength at hrequired
    have hheader : ScanRange snapshot address 6 := hrange.part le_rfl (by omega) (by decide)
    rw [hheader.readable] at hunreadable
    cases hunreadable
  have hheader : ScanRange snapshot address 6 := ⟨hlow, hhigh, by simpa using hreadable⟩
  have hsigned : Decides (InScan snapshot) memory (comparesTo address compatSignature)
      (memoryBytes memory address 4 = compatSignature) :=
    comparesTo_decides fun index hindex => hheader.inScan index (Nat.lt_of_lt_of_le hindex (by decide))
  refine Yields.guard hsigned (fun hsignature => ?_) fun hsignature => if_neg fun h => hsignature h.1
  refine Yields.bind_peek (hheader.inScan 5 (by decide)) ?_
  refine Yields.unless (fun hsafe => ?_) fun hunsafe => if_neg ?_
  · push Not at hsafe
    obtain ⟨hrequired, hfits, hwhole⟩ := hsafe
    have hrange : ScanRange snapshot address (declaredLength memory address) := {
      low := hlow
      high := by
        unfold declaredLength
        omega
      readable := by simpa [declaredLength] using hwhole }
    have hjudged := @judgeTable_yields memory snapshot systemTable address hrequired hrange
    rw [if_congr ((and_iff_right hsignature).trans (and_iff_right ⟨hrequired, hrange⟩)) rfl rfl]
    exact hjudged
  · rintro ⟨-, ⟨hrequired, hrange⟩, -⟩
    have hstop := hrange.high
    have hreadable := hrange.readable
    unfold declaredLength at hrequired hstop hreadable
    rcases hunsafe with hshort | hlong | hunreadable
    · omega
    · omega
    · rw [hreadable] at hunreadable
      cases hunreadable

/-! ### The scan -/

/-- The places of the scan from this address on. -/
def scanPlaces (address left : Nat) : List Nat := List.range' address left compatScanAlignment

open Classical in
/-- The acceptable tables among these places. -/
noncomputable def acceptedPlaces (memory : Nat → UInt8) (snapshot : MemoryMapSnapshot) (systemTable : Nat)
    (places : List Nat) : List Nat :=
  places.filter fun address => Acceptable memory snapshot systemTable address

/-- The last of the accepted tables, or what was selected before. -/
def lastSelection (memory : Nat → UInt8) (systemTable : Nat) (selected : PlanCompatibility16)
    (accepted : List Nat) : PlanCompatibility16 :=
  (accepted.getLast?.map (selectionAt memory systemTable)).getD selected

theorem lastSelection_cons {selected : PlanCompatibility16} {accepted : List Nat} :
    lastSelection memory systemTable selected (address :: accepted) =
      lastSelection memory systemTable (selectionAt memory systemTable address) accepted := by
  cases accepted with
  | nil => rfl
  | cons second accepted =>
      rw [lastSelection, lastSelection, List.getLast?_cons_cons, List.getLast?_cons]
      rfl

theorem scanCandidates_yields {left : Nat} {selected : PlanCompatibility16} (hlow : compatScanStart ≤ address)
    (hleft : address + compatScanAlignment * left = compatScanEnd) (haligned : compatScanAlignment ∣ address) :
    Yields (InScan snapshot) memory (scanCandidates snapshot systemTable address count selected)
      (count + (acceptedPlaces memory snapshot systemTable (scanPlaces address left)).length,
        lastSelection memory systemTable selected
          (acceptedPlaces memory snapshot systemTable (scanPlaces address left))) := by
  induction left generalizing address count selected with
  | zero =>
      rw [scanCandidates, if_neg (by omega)]
      exact Yields.pure
  | succ left ih =>
      have hstep : address + compatScanAlignment + compatScanAlignment * left = compatScanEnd := by
        rw [Nat.mul_succ] at hleft
        omega
      have hhigh : address + 6 ≤ compatScanEnd := by
        unfold compatScanAlignment at hstep
        omega
      have hnext : compatScanAlignment ∣ address + compatScanAlignment := Nat.dvd_add haligned (Nat.dvd_refl _)
      rw [scanCandidates, if_pos hhigh, scanPlaces, List.range'_succ, acceptedPlaces, List.filter_cons]
      refine (judgeCandidate_yields hlow hhigh haligned).bind ?_
      by_cases haccepted : Acceptable memory snapshot systemTable address
      · rw [judgement, if_pos haccepted, if_pos (by simpa using haccepted), List.length_cons,
          lastSelection_cons, ← Nat.add_assoc, Nat.add_right_comm]
        exact ih (Nat.le_add_right_of_le hlow) hstep hnext
      · rw [judgement, if_neg haccepted, if_neg (by simpa using haccepted)]
        exact ih (Nat.le_add_right_of_le hlow) hstep hnext

theorem mem_scanPlaces : address ∈ scanPlaces compatScanStart 8192 ↔
    compatScanStart ≤ address ∧ address < compatScanEnd ∧ compatScanAlignment ∣ address := by
  rw [scanPlaces, List.mem_range']
  unfold compatScanStart compatScanEnd compatScanAlignment
  constructor
  · rintro ⟨index, hindex, rfl⟩
    exact ⟨by omega, by omega, by omega⟩
  · rintro ⟨hlow, hhigh, hdvd⟩
    exact ⟨(address - 0xE0000) / 16, by omega, by omega⟩

theorem Acceptable.mem_scanPlaces (h : Acceptable memory snapshot systemTable address) :
    address ∈ scanPlaces compatScanStart 8192 := by
  have hrequired := h.required
  have hhigh := h.range.high
  unfold compatRequiredLength at hrequired
  exact CsmVgaSelector.mem_scanPlaces.mpr ⟨h.range.low, by omega, h.aligned⟩

theorem mem_acceptedPlaces :
    address ∈ acceptedPlaces memory snapshot systemTable (scanPlaces compatScanStart 8192) ↔
      Acceptable memory snapshot systemTable address := by
  rw [acceptedPlaces, List.mem_filter]
  simp only [decide_eq_true_iff]
  exact and_iff_right_of_imp fun h => h.mem_scanPlaces

theorem nodup_acceptedPlaces :
    (acceptedPlaces memory snapshot systemTable (scanPlaces compatScanStart 8192)).Nodup :=
  List.Nodup.sublist List.filter_sublist (List.nodup_range' compatScanAlignment (by decide))

/-- One element of a list without repetitions is the only one. -/
theorem length_eq_one_iff_unique {α : Type} {items : List α} (h : items.Nodup) :
    items.length = 1 ↔ ∃! item, item ∈ items := by
  constructor
  · intro hlength
    obtain ⟨item, rfl⟩ := List.length_eq_one_iff.mp hlength
    exact ⟨item, List.mem_singleton_self item, fun other hother => List.mem_singleton.mp hother⟩
  · rintro ⟨item, hitem, hunique⟩
    match items, h with
    | [_], _ => rfl
    | first :: second :: rest, h =>
        have hfirst : first = item := hunique first List.mem_cons_self
        have hsecond : second = item := hunique second (List.mem_cons_of_mem _ List.mem_cons_self)
        exact absurd (hfirst.trans hsecond.symm) (List.ne_of_not_mem_cons (List.nodup_cons.mp h).1)

theorem selectionAt_of_acceptable (h : Acceptable memory snapshot systemTable address) :
    (selectionAt memory systemTable address).table ≠ 0 := by
  have hlow : compatScanStart ≤ address := h.range.low
  unfold compatScanStart at hlow
  exact Nat.ne_of_gt (Nat.lt_of_lt_of_le (by decide) hlow)

/-- The answer, from the acceptable tables. -/
def compatibilityOf (memory : Nat → UInt8) (systemTable : Nat) : List Nat → EfiStatus × PlanCompatibility16
  | [] => (.notFound, {})
  | [address] => (.success, selectionAt memory systemTable address)
  | _ :: _ :: _ => (.noMapping, {})

theorem selectCompatibility16_yields :
    Yields (InScan snapshot) memory (selectCompatibility16 (.ok snapshot) systemTable)
      (compatibilityOf memory systemTable
        (acceptedPlaces memory snapshot systemTable (scanPlaces compatScanStart 8192))) := by
  have hscan := @scanCandidates_yields memory snapshot systemTable compatScanStart 0 8192 {} le_rfl
    (by decide) (by decide)
  have hmem := @mem_acceptedPlaces memory snapshot systemTable
  generalize acceptedPlaces memory snapshot systemTable (scanPlaces compatScanStart 8192) = accepted at *
  refine hscan.bind ?_
  match accepted with
  | [] => exact Yields.pure
  | [address] =>
      have hacceptable := hmem.mp (List.mem_singleton_self address)
      rw [if_neg]
      · exact Yields.pure
      · rintro (hcount | htable)
        · exact hcount rfl
        · exact selectionAt_of_acceptable hacceptable htable
  | first :: second :: rest =>
      have hcount : 0 + (first :: second :: rest).length = rest.length + 2 := Nat.zero_add _
      rw [hcount, if_pos (.inl (by omega)), if_neg (Nat.succ_ne_zero _)]
      exact Yields.pure

/-- **The scan takes the only acceptable table**, or none. -/
theorem compatibility16_exact (memory : Nat → UInt8) (snapshot : MemoryMapSnapshot) (systemTable : Nat) :
    (∃ status selected,
      Yields (InScan snapshot) memory (selectCompatibility16 (.ok snapshot) systemTable) (status, selected) ∧
      CompatibilityChoice memory snapshot systemTable status selected) ∧
    ∀ status, Yields (fun _ => False) memory (selectCompatibility16 (.error status) systemTable) (status, {}) := by
  refine ⟨⟨_, _, selectCompatibility16_yields, ?_⟩, fun status => Yields.pure⟩
  have hmem := @mem_acceptedPlaces memory snapshot systemTable
  have hone := length_eq_one_iff_unique (@nodup_acceptedPlaces memory snapshot systemTable)
  simp only [hmem] at hone
  generalize acceptedPlaces memory snapshot systemTable (scanPlaces compatScanStart 8192) = accepted at *
  match accepted with
  | [] =>
      have hnone : ∀ address, ¬ Acceptable memory snapshot systemTable address := fun address h =>
        absurd (hmem.mpr h) List.not_mem_nil
      exact {
        success_iff := iff_of_false nofun (mt hone.mpr Nat.zero_ne_one)
        fields := nofun
        zero := fun _ => rfl
        notFound := iff_of_true rfl hnone }
  | [address] =>
      have hacceptable := hmem.mp (List.mem_singleton_self address)
      exact {
        success_iff := iff_of_true rfl (hone.mp rfl)
        fields := fun other _ hother => by rw [List.mem_singleton.mp (hmem.mpr hother)]
        zero := fun hfailed => absurd rfl hfailed
        notFound := iff_of_false nofun fun hnone => hnone address hacceptable }
  | first :: second :: rest =>
      have hacceptable := hmem.mp (List.mem_cons_self (a := first) (l := second :: rest))
      have hmany : (first :: second :: rest).length ≠ 1 := by simp
      exact {
        success_iff := iff_of_false nofun (mt hone.mpr hmany)
        fields := nofun
        zero := fun _ => rfl
        notFound := iff_of_false nofun fun hnone => hnone first hacceptable }

end CsmVgaSelector
