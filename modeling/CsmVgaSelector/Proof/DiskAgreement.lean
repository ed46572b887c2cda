import CsmVgaSelector.Bbs.Probe
import CsmVgaSelector.Config.Import
import CsmVgaSelector.Proof.DiskDescription
import CsmVgaSelector.Proof.Says
import CsmVgaSelector.Proof.Write
import Mathlib.Data.List.Nodup

/-!
# Setup and boot agree on the disk

A row that setup leaves eligible is the one the boot singles out, once its description and its controller
have been saved (`disk_agrees`). Setup folds letters to lower case and compares arrays, the boot folds to
upper case and compares with wide characters; both see the same texts up to case (`sameText_iff`).
-/

namespace CsmVgaSelector

variable {memory : FarMemory} {text text' : Bytes}

/-! ### Texts -/

/-- A text that was copied has no terminator in it, and leaves room for one. -/
theorem scanFarString_spec {address limit : Nat} :
    (scanFarString memory address limit).2.length ≤ limit ∧
      0 ∉ (scanFarString memory address limit).2 := by
  induction limit generalizing address with
  | zero => exact ⟨Nat.le_refl _, List.not_mem_nil⟩
  | succ limit ih =>
      rw [scanFarString]
      split
      case isTrue => exact ⟨Nat.zero_le _, List.not_mem_nil⟩
      case isFalse hbyte =>
        obtain ⟨hlength, hzero⟩ := @ih (address + 1)
        dsimp only
        rw [List.length_cons, List.mem_cons, not_or]
        exact ⟨Nat.succ_le_succ hlength, Ne.symm hbyte, hzero⟩

theorem copyFarAsciiString_spec {segment offset : UInt16} {outputBytes : Nat} :
    (legacyBootCopyFarAsciiString memory segment offset outputBytes).2.length ≤ outputBytes - 1 ∧
      0 ∉ (legacyBootCopyFarAsciiString memory segment offset outputBytes).2 := by
  unfold legacyBootCopyFarAsciiString
  split
  case isTrue => exact ⟨Nat.zero_le _, List.not_mem_nil⟩
  split
  case isTrue => exact ⟨Nat.zero_le _, List.not_mem_nil⟩
  dsimp only
  split
  case isTrue => exact ⟨Nat.zero_le _, List.not_mem_nil⟩
  case isFalse =>
    obtain ⟨hlength, hzero⟩ := scanFarString_spec
    exact ⟨hlength.trans (Nat.min_le_right _ _), hzero⟩

/-- The text in its array, with its terminator. -/
theorem candidateString_array (h : text.length < candidateStringBytes) :
    (candidateString text).array =
      text ++ 0 :: List.replicate (candidateStringBytes - text.length - 1) 0 := by
  have hroom : candidateStringBytes - text.length = candidateStringBytes - text.length - 1 + 1 := by
    omega
  show padded candidateStringBytes (text.take candidateStringBytes) = _
  rw [List.take_of_length_le (Nat.le_of_lt h), padded, ← List.replicate_succ, ← hroom]

theorem cString_candidateString (h : text.length < candidateStringBytes) (hzero : 0 ∉ text) :
    cString (candidateString text).array = text := by
  rw [candidateString_array h, cString, List.takeWhile_append_of_pos, List.takeWhile_cons_of_neg,
    List.append_nil]
  · decide
  · intro character hcharacter
    rw [bne_iff_ne]
    rintro rfl
    exact hzero hcharacter

/-! ### Case -/

theorem forall_byte {P : UInt8 → Prop} (h : ∀ value < 256, P (UInt8.ofNat value)) (character : UInt8) :
    P character := by
  have hcharacter := h character.toNat character.toNat_lt
  rwa [UInt8.ofNat_toNat] at hcharacter

theorem lowerCase_upper (character : UInt8) :
    lowerCase (legacyBootAsciiUpper character) = lowerCase character :=
  forall_byte (P := fun character => lowerCase (legacyBootAsciiUpper character) = lowerCase character)
    (by decide +kernel) character

theorem upper_lowerCase (character : UInt8) :
    legacyBootAsciiUpper (lowerCase character) = legacyBootAsciiUpper character :=
  forall_byte
    (P := fun character => legacyBootAsciiUpper (lowerCase character) = legacyBootAsciiUpper character)
    (by decide +kernel) character

theorem unicodeUpper_wide (character : UInt8) :
    (legacyBootUnicodeUpperAscii character.toUInt16).toUInt8 = legacyBootAsciiUpper character :=
  forall_byte (P := fun character =>
    (legacyBootUnicodeUpperAscii character.toUInt16).toUInt8 = legacyBootAsciiUpper character)
    (by decide +kernel) character

/-- Both foldings tell the same characters apart. -/
theorem upper_eq_iff {character character' : UInt8} :
    legacyBootAsciiUpper character = legacyBootAsciiUpper character' ↔
      lowerCase character = lowerCase character' := by
  constructor
  · intro h
    rw [← lowerCase_upper, h, lowerCase_upper]
  · intro h
    rw [← upper_lowerCase, h, upper_lowerCase]

theorem wide_le {character : UInt8} (h : isPrintable character = true) : character.toUInt16 ≤ 0x7F := by
  rw [isPrintable, Bool.and_eq_true, decide_eq_true_eq, decide_eq_true_eq] at h
  have hle := UInt8.le_iff_toNat_le.mp h.2
  rw [UInt16.le_iff_toNat_le, UInt8.toNat_toUInt16]
  exact hle.trans (by decide)

/-- The boot's comparison with a printable text. -/
theorem sameText_iff (h : ∀ character ∈ text', isPrintable character = true) :
    legacyBootAsciiEqualsUnicodeInsensitive text (text'.map UInt8.toUInt16) = true ↔
      text.map lowerCase = text'.map lowerCase := by
  induction text generalizing text' with
  | nil => cases text' <;> simp [legacyBootAsciiEqualsUnicodeInsensitive]
  | cons character text ih =>
      cases text' with
      | nil => simp [legacyBootAsciiEqualsUnicodeInsensitive]
      | cons wanted text' =>
          rw [List.forall_mem_cons] at h
          rw [List.map_cons, legacyBootAsciiEqualsUnicodeInsensitive, Bool.and_eq_true,
            Bool.and_eq_true, decide_eq_true_eq, beq_iff_eq, unicodeUpper_wide, upper_eq_iff, ih h.2,
            List.map_cons, List.map_cons, List.cons.injEq]
          exact and_congr_left' (and_iff_right (wide_le h.1))

/-- Setup's comparison of two arrays. -/
theorem sameDescription_of_lowerCase {tail tail' : Bytes} (h : text.map lowerCase = text'.map lowerCase) :
    sameDescription (text ++ 0 :: tail) (text' ++ 0 :: tail') = true := by
  induction text generalizing text' with
  | nil =>
      obtain rfl := List.map_eq_nil_iff.mp h.symm
      rfl
  | cons character text ih =>
      cases text' with
      | nil => cases h
      | cons character' text' =>
          rw [List.map_cons, List.map_cons, List.cons.injEq] at h
          rw [List.cons_append, List.cons_append, sameDescription, h.1, beq_self_eq_true, Bool.true_and,
            ih h.2, Bool.or_true]

/-! ### Candidates and rows -/

variable {table : List BbsTable} {items ranked : List NcvStorageCandidate} {item : NcvStorageCandidate}

/-- The candidates of the hard-disk rows, the first of them at this index. -/
def rowCandidates (memory : FarMemory) (start : Nat) (table : List BbsTable) : List NcvStorageCandidate :=
  ((table.zipIdx start).filter fun (entry, _) => entry.deviceType == bbsHardDisk).map
    fun (entry, index) => bbsStorageCandidate memory index entry

theorem rowCandidates_cons {start : Nat} {entry : BbsTable} :
    rowCandidates memory start (entry :: table) =
      (if entry.deviceType = bbsHardDisk then [bbsStorageCandidate memory start entry] else []) ++
        rowCandidates memory (start + 1) table := by
  by_cases hdisk : entry.deviceType = bbsHardDisk <;>
    simp [rowCandidates, List.zipIdx_cons, hdisk]

theorem bbsProbeRows_items {start : Nat} {collection : NcvStorageCollection}
    (h : collection.items.length + table.countP (·.deviceType == bbsHardDisk) ≤ maxStorageCandidates) :
    (bbsProbeRows memory start table collection).items =
      collection.items ++ rowCandidates memory start table := by
  induction table generalizing start collection with
  | nil => exact (List.append_nil _).symm
  | cons entry table ih =>
      rw [bbsProbeRows]
      rw [List.countP_cons] at h
      split
      case isTrue hdisk =>
        rw [if_pos (beq_iff_eq.mpr hdisk)] at h
        have hroom : ¬ collection.items.length ≥ maxStorageCandidates := by omega
        rw [ncvStorageCollectionAppend, if_neg hroom, ih]
        · rw [rowCandidates_cons, if_pos hdisk, List.append_assoc]
        · rw [List.length_append, List.length_singleton]
          omega
      case isFalse hdisk =>
        rw [if_neg (fun hbeq => hdisk (beq_iff_eq.mp hbeq))] at h
        rw [ih h, rowCandidates_cons, if_neg hdisk, List.nil_append]

theorem mem_rowCandidates : item ∈ rowCandidates memory 0 table ↔
    ∃ index entry, table[index]? = some entry ∧ entry.deviceType = bbsHardDisk ∧
      bbsStorageCandidate memory index entry = item := by
  rw [rowCandidates, List.mem_map]
  constructor
  · rintro ⟨⟨entry, index⟩, hmem, rfl⟩
    rw [List.mem_filter, List.mem_zipIdx_iff_getElem?, beq_iff_eq] at hmem
    exact ⟨index, entry, hmem.1, hmem.2, rfl⟩
  · rintro ⟨index, entry, hentry, hdisk, rfl⟩
    refine ⟨(entry, index), ?_, rfl⟩
    rw [List.mem_filter, List.mem_zipIdx_iff_getElem?, beq_iff_eq]
    exact ⟨hentry, hdisk⟩

/-- No other candidate has the controller and the description of this one. -/
def Unambiguous (items : List NcvStorageCandidate) (index : Nat) (item : NcvStorageCandidate) : Prop :=
  ∀ other otherIndex, items[otherIndex]? = some other → otherIndex ≠ index →
    other.addressValid = true → item.address = other.address →
      sameDescription item.description.array other.description.array = false

theorem unambiguous_of_not {index : Nat} (hvalid : item.addressValid = true)
    (h : identityAmbiguous items index item = false) : Unambiguous items index item := by
  intro other otherIndex hother hne hothers haddress
  rw [identityAmbiguous, hvalid, Bool.true_and, List.any_eq_false] at h
  have hpair := h (other, otherIndex) (List.mem_zipIdx_iff_getElem?.mpr hother)
  simp only [bne_iff_ne, ne_eq, hne, not_false_eq_true, hothers, haddress, beq_self_eq_true,
    Bool.and_eq_true, true_and, and_self] at hpair
  exact Bool.not_eq_true _ ▸ hpair

/-- What ranking leaves eligible was eligible, and is not ambiguous. -/
theorem eligible_of_rank {selected : Option Nat} (h : ncvRankStorage items = some (ranked, selected))
    (hitem : item ∈ ranked) (heligible : item.eligible = true) :
    ∃ index original, items[index]? = some original ∧ original.eligible = true ∧
      identityAmbiguous items index original = false ∧ item.bbsIndex = original.bbsIndex ∧
      item.address = original.address ∧ item.description = original.description := by
  unfold ncvRankStorage at h
  split at h
  case isTrue => cases h
  case isFalse =>
    obtain ⟨rfl, -⟩ := Prod.mk.inj (Option.some.inj h)
    obtain ⟨index, hindex, rfl⟩ := List.mem_mapIdx.mp hitem
    simp only [markAmbiguous, List.getElem_mapIdx, Bool.and_eq_true, Bool.not_eq_true'] at heligible ⊢
    rw [markAmbiguous, List.length_mapIdx] at hindex
    exact ⟨index, items[index], List.getElem?_eq_getElem hindex, heligible.1, heligible.2, rfl, rfl, rfl⟩

/-! ### What was saved -/

variable {reading reading' : Reading} {lines : List Bytes} {line value encoded : Bytes}
  {setting : Setting} {core : NcvConfigCore}

/-- The configuration of a text that gives, each on a line, the controller of the disk and its encoded
description. -/
structure SavedDisk (item : NcvStorageCandidate) (text encoded : Bytes) (core : NcvConfigCore) : Prop where
  encodes : ncvEncodeDiskDescription item.description.array encodedDescriptionBytes = .ok encoded
  controller : ∃ line ∈ linesOf text,
    seenText line = keyLine (ascii "TargetControllerPci") (bdfText item.address)
  description : ∃ line ∈ linesOf text,
    seenText line = keyLine (ascii "TargetBbsDescription") encoded
  accepted : ncvParseConfigStrict text ncvConfigDefaults = .ok core

/-- A value that has been given stays. -/
theorem ReadsLine.keeps {text : Bytes} (h : ReadsLine reading text reading')
    (hvalue : reading.values setting = some value) : reading'.values setting = some value := by
  cases h with
  | skip => exact hvalue
  | header => exact hvalue
  | setting other value' _ _ hnew =>
      have hne : setting ≠ other := by
        rintro rfl
        rw [hvalue] at hnew
        cases hnew
      exact (Function.update_of_ne hne _ _).trans hvalue

theorem ReadsLines.keeps (h : ReadsLines reading lines reading')
    (hvalue : reading.values setting = some value) : reading'.values setting = some value :=
  h.preserves ReadsLine.keeps hvalue

theorem isActiveLine_keyLine (setting : Setting) : isActiveLine (keyLine setting.key value) = true := by
  cases setting <;> rfl

theorem head_keyLine (setting : Setting) : (keyLine setting.key value).head? ≠ some (byte '[') := by
  rw [keyLine, List.head?_append_of_ne_nil _ (key_ne_nil setting)]
  cases setting <;> decide

theorem splitEquals_setting (setting : Setting) (hvalue : Word value) :
    splitEquals (keyLine setting.key value) = some (setting.key, value) := by
  have hkey : byte '=' ∉ setting.key ∧ trim setting.key = setting.key := by
    cases setting <;> decide
  rw [splitEquals_keyLine hkey.1 hvalue.noEquals, hkey.2, hvalue.trim]

/-- The value that a line gives is the one that is read. -/
theorem ReadsLines.value_of_line (h : ReadsLines reading lines reading') (hline : line ∈ lines)
    (htext : seenText line = keyLine setting.key value) (hvalue : Word value) :
    reading'.values setting = some value := by
  induction h with
  | nil => cases hline
  | cons _ hstep hrest ih =>
      rcases List.mem_cons.mp hline with rfl | hmem
      · rw [htext] at hstep
        cases hstep with
        | skip hskip =>
            rw [isActiveLine_keyLine] at hskip
            cases hskip
        | header header hheader =>
            exact absurd (hheader ▸ head_sectionHeader header) (head_keyLine setting)
        | setting other value' hgives =>
            have hsplit := (splitEquals_setting setting hvalue).symm.trans hgives.split
            obtain ⟨hkey, rfl⟩ := Prod.mk.inj (Option.some.inj hsplit)
            obtain rfl := key_injective hkey
            exact hrest.keeps (Function.update_self ..)
      · exact ih hmem

theorem SavedDisk.gives (h : SavedDisk item text encoded core) (haddress : item.address.Valid)
    (hdescription : Representable (cString item.description.array)) :
    core.targetControllerPci = item.address ∧ core.hasTargetBbsDescription = true ∧
      core.targetBbsDescription = cString item.description.array := by
  obtain ⟨hencodes, ⟨line, hline, hcontroller⟩, ⟨line', hline', hdisk⟩, haccepted⟩ := h
  rw [ncvEncodeDiskDescription_eq hdescription] at hencodes
  cases hencodes
  obtain ⟨-, reading, hreads, hfinish⟩ := ncvParseConfigStrict_iff.mp haccepted
  obtain rfl := finishConfig_eq_ok hfinish
  have hcontroller' : reading.values .targetControllerPci = some (bdfText item.address) :=
    hreads.value_of_line hline hcontroller word_bdfText
  have hdisk' : reading.values .targetBbsDescription = some (encodeDescription _) :=
    hreads.value_of_line hline' hdisk (word_encodeDescription hdescription)
  refine ⟨?_, ?_, ?_⟩
  · show reading.values.read .targetControllerPci parsePciAddress zeroAddress = _
    rw [Values.read, hcontroller', Option.bind_some, parsePciAddress_bdfText haddress, Option.getD_some]
  · show (reading.values .targetBbsDescription).isSome = true
    rw [hdisk', Option.isSome_some]
  · show reading.values.read .targetBbsDescription (copyDiskDescription configTextBytes) [] = _
    rw [Values.read, hdisk', Option.bind_some, copyDiskDescription_encodeDescription hdescription,
      Option.getD_some]

/-! ### The row -/

variable {entry other : BbsTable} {index otherIndex : Nat}

/-- The description of a row, as it is read. -/
def rowDescription (memory : FarMemory) (entry : BbsTable) : Bytes :=
  (legacyBootCopyFarAsciiString memory entry.descStringSegment entry.descStringOffset
    candidateStringBytes).2

theorem rowDescription_spec : (rowDescription memory entry).length < candidateStringBytes ∧
    0 ∉ rowDescription memory entry := by
  obtain ⟨hlength, hzero⟩ := @copyFarAsciiString_spec memory entry.descStringSegment
    entry.descStringOffset candidateStringBytes
  exact ⟨Nat.lt_of_le_of_lt hlength (by decide), hzero⟩

theorem description_candidate : (bbsStorageCandidate memory index entry).description =
    candidateString (rowDescription memory entry) := rfl

theorem cString_description :
    cString (bbsStorageCandidate memory index entry).description.array =
      rowDescription memory entry := by
  obtain ⟨hlength, hzero⟩ := @rowDescription_spec memory entry
  rw [description_candidate, cString_candidateString hlength hzero]

/-- The controller of the row is a PCI function. -/
def AddressFits (entry : BbsTable) : Prop :=
  entry.bus ≤ 0xFF ∧ entry.device ≤ 31 ∧ entry.function ≤ 7

theorem addressValid_iff :
    (bbsStorageCandidate memory index entry).addressValid = true ↔ AddressFits entry := by
  simp [bbsStorageCandidate, AddressFits, and_assoc]

theorem address_candidate (h : AddressFits entry) :
    (bbsStorageCandidate memory index entry).address =
      { segment := 0
        bus := entry.bus.toUInt8
        device := entry.device.toUInt8
        function := entry.function.toUInt8 } := by
  have hvalid := (@addressValid_iff memory entry index).mpr h
  exact if_pos hvalid

theorem eligible_candidate (h : (bbsStorageCandidate memory index entry).eligible = true) :
    AddressFits entry ∧ Representable (rowDescription memory entry) := by
  have hparts : ((bbsStorageCandidate memory index entry).addressValid &&
      (legacyBootCopyFarAsciiString memory entry.descStringSegment entry.descStringOffset
        candidateStringBytes).1 == .present &&
      ncvIniValueIsExactlyRepresentable
        (bbsStorageCandidate memory index entry).description.array candidateStringBytes) = true := h
  rw [Bool.and_eq_true, Bool.and_eq_true, representable_iff, cString_description] at hparts
  exact ⟨addressValid_iff.mp hparts.1.1, hparts.2.1⟩

theorem toUInt32_toUInt8 {value : UInt32} (h : value ≤ 0xFF) : value.toUInt8.toUInt32 = value := by
  have hle := UInt32.le_iff_toNat_le.mp h
  apply UInt32.toNat_inj.mp
  rw [UInt8.toNat_toUInt32, UInt32.toNat_toUInt8]
  exact Nat.mod_eq_of_lt (Nat.lt_succ_of_le hle)

/-- The target is the disk of this row. -/
structure TargetsRow (target : DiskTarget) (memory : FarMemory) (entry : BbsTable) : Prop where
  bus : target.targetBus = entry.bus
  device : target.targetDevice = entry.device
  function : target.targetFunction = entry.function
  description : target.targetDescription = (rowDescription memory entry).map UInt8.toUInt16

/-- Discovery identifies the row that setup left eligible, and no other. -/
theorem identifies_iff {target : DiskTarget} {place : Nat} (hlength : table.length < 2 ^ 64)
    (hentry : table[index]? = some entry) (hdisk : entry.deviceType = bbsHardDisk)
    (heligible : (bbsStorageCandidate memory index entry).eligible = true)
    (hplace : (rowCandidates memory 0 table)[place]? = some (bbsStorageCandidate memory index entry))
    (hunambiguous : Unambiguous (rowCandidates memory 0 table) place
      (bbsStorageCandidate memory index entry))
    (htarget : TargetsRow target memory entry) (hother : table[otherIndex]? = some other) :
    target.identifies other (rowDescription memory other) = true ↔ otherIndex = index := by
  obtain ⟨hfits, hrepresentable⟩ := eligible_candidate heligible
  have hnonempty : target.targetDescription.isEmpty = false := by
    rw [htarget.description, List.isEmpty_eq_false_iff, ne_eq, List.map_eq_nil_iff]
    exact hrepresentable.ne_nil
  have hsame : target.identifies other (rowDescription memory other) = true ↔
      other.bus = entry.bus ∧ other.device = entry.device ∧ other.function = entry.function ∧
        other.deviceType = bbsHardDisk ∧
        (rowDescription memory other).map lowerCase = (rowDescription memory entry).map lowerCase := by
    rw [DiskTarget.identifies, hnonempty, Bool.false_or, htarget.bus, htarget.device,
      htarget.function, htarget.description, Bool.and_eq_true, sameText_iff hrepresentable.printable]
    simp only [Bool.and_eq_true, beq_iff_eq, and_assoc]
  rw [hsame]
  constructor
  · rintro ⟨hbus, hdevice, hfunction, hdisk', htext⟩
    by_contra hne
    have hothers : AddressFits other := by
      rw [AddressFits, hbus, hdevice, hfunction]
      exact hfits
    obtain ⟨place', hplace'⟩ := List.getElem?_of_mem
      (mem_rowCandidates.mpr ⟨otherIndex, other, hother, hdisk', rfl⟩)
    have hdistinct : place' ≠ place := by
      rintro rfl
      have hindices := congrArg NcvStorageCandidate.bbsIndex
        (Option.some.inj (hplace'.symm.trans hplace))
      have hlt := (List.getElem?_eq_some_iff.mp hentry).1
      have hlt' := (List.getElem?_eq_some_iff.mp hother).1
      have hnat := congrArg UInt64.toNat hindices
      rw [show (bbsStorageCandidate memory otherIndex other).bbsIndex = otherIndex.toUInt64 from rfl,
        show (bbsStorageCandidate memory index entry).bbsIndex = index.toUInt64 from rfl,
        Nat.toUInt64_eq, Nat.toUInt64_eq, UInt64.toNat_ofNat', UInt64.toNat_ofNat'] at hnat
      omega
    have haddress : (bbsStorageCandidate memory index entry).address =
        (bbsStorageCandidate memory otherIndex other).address := by
      rw [address_candidate hfits, address_candidate hothers, hbus, hdevice, hfunction]
    have hdiffer := hunambiguous _ place' hplace' hdistinct (addressValid_iff.mpr hothers) haddress
    rw [description_candidate, description_candidate, candidateString_array rowDescription_spec.1,
      candidateString_array rowDescription_spec.1, sameDescription_of_lowerCase htext.symm] at hdiffer
    cases hdiffer
  · rintro rfl
    obtain rfl := Option.some.inj (hother.symm.trans hentry)
    exact ⟨rfl, rfl, rfl, hdisk, rfl⟩

/-! ### The correlation -/

variable {s s' : BootState} {target : DiskTarget} {rows : List Nat} {counts counts' : MatchCounts}

/-- No call that logs fails. -/
def LogSucceeds (answer : FirmwareAnswer) : Prop := answer.status.isError = false

/-- The status, where it is an error, is that of a call. -/
def FailsWithCall (A : FirmwareAnswer → Prop) (status : EfiStatus) : Prop :=
  status.isError = true → ∃ answer, A answer ∧ answer.status = status

/-- A message, and what comes after it. -/
theorem wp_logged {α : Type} {A : FirmwareAnswer → Prop} {k : EfiStatus → BootQuery α} {Q : α → Prop}
    (h : ∀ status, FailsWithCall A status → Query.Wp A (k status) Q s) :
    Query.Wp A (logPrint >>= k) Q s :=
  Query.wp_bind.mpr fun answer hanswer => h _ fun _ => ⟨answer, hanswer, rfl⟩

/-- A message that is left out when the condition fails. -/
theorem wp_loggedIf {α : Type} {A : FirmwareAnswer → Prop} {condition : Bool} {status : EfiStatus}
    {k : EfiStatus → BootQuery α} {Q : α → Prop} (hstatus : FailsWithCall A status)
    (h : ∀ status, FailsWithCall A status → Query.Wp A (k status) Q s) :
    Query.Wp A (if condition then logPrint >>= k else k status) Q s := by
  cases condition with
  | false => exact h status hstatus
  | true => exact wp_logged h

theorem wp_legacyBootLogBbsEntry {A : FirmwareAnswer → Prop} :
    Query.Wp A (legacyBootLogBbsEntry memory entry)
      (fun result => FailsWithCall A result.1 ∧ result.2 = currentStrings s.rom memory entry) s := by
  unfold legacyBootLogBbsEntry
  rw [Query.wp_bind, Query.wp_read]
  refine wp_logged fun status hstatus => ?_
  refine wp_loggedIf hstatus fun status hstatus => ?_
  refine wp_loggedIf hstatus fun status hstatus => ?_
  exact wp_loggedIf hstatus fun status hstatus => ⟨hstatus, rfl⟩

/-- Discovery identifies the live row. -/
def Identified (memory : FarMemory) (target : DiskTarget) (s : BootState) (index : Nat) : Bool :=
  target.identifies s.live[index]! (rowDescription memory s.live[index]!)

/-- Discovery identifies the live row, and it can be attempted. -/
def Matched (memory : FarMemory) (target : DiskTarget) (s : BootState) (index : Nat) : Bool :=
  Identified memory target s index && legacyBootSelectedDiskCanAttempt s.rom s.live[index]!

/-- The strings of these rows recorded, one row after the other. -/
def recordStrings (memory : FarMemory) (s : BootState) (rows : List Nat) (strings : List StringSnapshot) :
    List StringSnapshot :=
  rows.foldl (fun strings index => strings.set index (currentStrings s.rom memory s.live[index]!)) strings

/-- What the correlation has found after these rows. -/
structure Correlated (memory : FarMemory) (target : DiskTarget) (s : BootState) (rows : List Nat)
    (counts counts' : MatchCounts) (s' : BootState) : Prop where
  live : s'.live = s.live
  rom : s'.rom = s.rom
  bbsCount : s'.context.bbsCount = s.context.bbsCount
  strings : s'.context.bbsDiscoveryStrings = s.context.bbsDiscoveryStrings.map (recordStrings memory s rows)
  identityMatches :
    counts'.identityMatches = counts.identityMatches + rows.countP (Identified memory target s)
  matchCount : counts'.matchCount = counts.matchCount + rows.countP (Matched memory target s)
  selected : ∀ index, rows.filter (Matched memory target s) = [index] →
    s'.context.liveBbsIndex = index ∧ s'.context.liveBbsEntry = s.live[index]!
  unselected : rows.filter (Matched memory target s) = [] →
    s'.context.liveBbsIndex = s.context.liveBbsIndex ∧
      s'.context.liveBbsEntry = s.context.liveBbsEntry

/-- What the correlation returns after these rows: an error only if the log has failed. -/
def Correlates (A : FirmwareAnswer → Prop) (memory : FarMemory) (target : DiskTarget) (s : BootState)
    (rows : List Nat) (counts : MatchCounts) (result : Except EfiStatus MatchCounts) (s' : BootState) : Prop :=
  match result with
  | .error status => status.isError = true ∧ FailsWithCall A status
  | .ok counts' => Correlated memory target s rows counts counts' s'

theorem wp_correlateRow {A : FirmwareAnswer → Prop} :
    (correlateRow memory target index counts).Wp A (Correlates A memory target s [index] counts) s := by
  unfold correlateRow
  refine .bind_get ?_
  refine Prog.wp_bind.mpr (Prog.wp_lift.mpr (wp_legacyBootLogBbsEntry.mono ?_))
  rintro ⟨status, strings⟩ ⟨hstatus, rfl⟩
  have hidentified : target.identifies s.live[index]!
      (currentStrings s.rom memory s.live[index]!).description = Identified memory target s index := rfl
  have hmatched : (Identified memory target s index &&
      legacyBootSelectedDiskCanAttempt s.rom s.live[index]!) = Matched memory target s index := rfl
  dsimp only at hstatus ⊢
  refine .ite (fun herror => .pure ⟨herror, hstatus⟩) fun _ => ?_
  rw [hidentified, hmatched]
  refine Prog.wp_bind.mpr (Prog.wp_modify.mpr ?_)
  refine Prog.wp_bind.mpr (Prog.wp_lift.mpr (Query.wp_of_forall fun _ => ?_))
  refine Prog.wp_bind.mpr (Prog.wp_modify.mpr ?_)
  refine Prog.wp_bind.mpr (Prog.wp_lift.mpr (wp_logPrint.mpr fun answer hanswer => ?_))
  refine .ite (fun herror => .pure ⟨herror, fun _ => ⟨answer, hanswer, rfl⟩⟩) fun _ => ?_
  refine Prog.wp_pure.mpr ⟨rfl, rfl, ?_, ?_, ?_, ?_, ?_, ?_⟩
  · dsimp only
    split <;> rfl
  · dsimp only
    split <;> rfl
  · rw [List.countP_singleton]
    cases Identified memory target s index <;> rfl
  · rw [List.countP_singleton]
    cases Matched memory target s index <;> rfl
  · intro selected hselected
    cases hm : Matched memory target s index with
    | false => simp [hm] at hselected
    | true =>
        rw [List.filter_singleton, hm] at hselected
        obtain rfl := List.singleton_inj.mp hselected
        exact ⟨rfl, rfl⟩
  · intro hnone
    cases hm : Matched memory target s index with
    | false => exact ⟨rfl, rfl⟩
    | true => simp [hm] at hnone

theorem Correlated.same (h : Correlated memory target s rows counts counts' s') :
    Identified memory target s' = Identified memory target s ∧
      Matched memory target s' = Matched memory target s := by
  have hidentified : Identified memory target s' = Identified memory target s := by
    funext index
    rw [Identified, h.live, Identified]
  refine ⟨hidentified, ?_⟩
  funext index
  rw [Matched, hidentified, h.live, h.rom, Matched]

theorem recordStrings_append {rows' : List Nat} (hlive : s'.live = s.live) (hrom : s'.rom = s.rom) :
    recordStrings memory s' rows' ∘ recordStrings memory s rows = recordStrings memory s (rows ++ rows') := by
  funext strings
  rw [Function.comp_apply, recordStrings, recordStrings, recordStrings, List.foldl_append, hlive, hrom]

/-- The rows of one part of the table, and then of another. -/
theorem Correlated.append {rows' : List Nat} {counts'' : MatchCounts} {s'' : BootState}
    (h : Correlated memory target s rows counts counts' s')
    (h' : Correlated memory target s' rows' counts' counts'' s'') :
    Correlated memory target s (rows ++ rows') counts counts'' s'' := by
  obtain ⟨hidentified, hmatched⟩ := h.same
  obtain ⟨hlive, hrom, hcount, hstrings, hidentities, hmatches, hselected, hunselected⟩ := h'
  rw [hidentified] at hidentities
  rw [hmatched] at hmatches hselected hunselected
  refine ⟨hlive.trans h.live, hrom.trans h.rom, hcount.trans h.bbsCount, ?_, ?_, ?_, ?_, ?_⟩
  · rw [hstrings, h.strings, Option.map_map, recordStrings_append h.live h.rom]
  · rw [hidentities, h.identityMatches, List.countP_append, Nat.add_assoc]
  · rw [hmatches, h.matchCount, List.countP_append, Nat.add_assoc]
  · intro index hfilter
    rw [List.filter_append] at hfilter
    rcases List.append_eq_singleton_iff.mp hfilter with ⟨hnone, hone⟩ | ⟨hone, hnone⟩
    · rw [← h.live]
      exact hselected index hone
    · obtain ⟨hindex, hentry⟩ := hunselected hnone
      rw [hindex, hentry]
      exact h.selected index hone
  · intro hfilter
    rw [List.filter_append, List.append_eq_nil_iff] at hfilter
    obtain ⟨hindex, hentry⟩ := hunselected hfilter.2
    rw [hindex, hentry]
    exact h.unselected hfilter.1

theorem wp_correlateRows {A : FirmwareAnswer → Prop} :
    (correlateRows memory target rows counts).Wp A (Correlates A memory target s rows counts) s := by
  induction rows generalizing s counts with
  | nil =>
      refine Prog.wp_pure.mpr ⟨rfl, rfl, rfl, ?_, rfl, rfl, ?_, fun _ => ⟨rfl, rfl⟩⟩
      · exact Option.map_id'.symm
      · intro index hfilter
        cases hfilter
  | cons index rows ih =>
      unfold correlateRows
      refine Prog.Wp.bind wp_correlateRow fun result s' hrow => ?_
      cases result with
      | error status => exact .pure hrow
      | ok counts' =>
          refine ih.mono fun result s'' hrows => ?_
          cases result with
          | error status => exact hrows
          | ok counts'' => exact hrow.append hrows

/-- A log that does not fail leaves no error. -/
theorem wp_correlateRows_succeeds :
    (correlateRows memory target rows counts).Wp LogSucceeds
      (fun result s' => ∃ counts', result = .ok counts' ∧
        Correlated memory target s rows counts counts' s') s := by
  refine wp_correlateRows.mono fun result s' hresult => ?_
  cases result with
  | error status =>
      obtain ⟨herror, hfails⟩ := hresult
      obtain ⟨answer, hgood, rfl⟩ := hfails herror
      rw [LogSucceeds, herror] at hgood
      cases hgood
  | ok counts' => exact ⟨counts', rfl, hresult⟩

/-! ### Setup and boot -/

theorem valid_address (h : AddressFits entry) :
    (bbsStorageCandidate memory index entry).address.Valid := by
  rw [address_candidate h]
  obtain ⟨-, hdevice, hfunction⟩ := h
  have hdevice' := UInt32.le_iff_toNat_le.mp hdevice
  have hfunction' := UInt32.le_iff_toNat_le.mp hfunction
  rw [show (31 : UInt32).toNat = 31 from rfl] at hdevice'
  rw [show (7 : UInt32).toNat = 7 from rfl] at hfunction'
  constructor
  · rw [UInt8.le_iff_toNat_le, UInt32.toNat_toUInt8, show (31 : UInt8).toNat = 31 from rfl]
    omega
  · rw [UInt8.le_iff_toNat_le, UInt32.toNat_toUInt8, show (7 : UInt8).toNat = 7 from rfl]
    omega

theorem copyAsciiToUnicode_eq_ok {capacity : Nat} {source : Bytes} {units : List UInt16}
    (h : copyAsciiToUnicode capacity source = .ok units) :
    (∀ character ∈ source, isPrintable character = true) ∧ units = source.map UInt8.toUInt16 := by
  unfold copyAsciiToUnicode at h
  split at h
  case isTrue => cases h
  case isFalse hallowed =>
    simp only [not_or, Bool.not_eq_true', Bool.not_eq_false, List.all_eq_true] at hallowed
    exact ⟨hallowed.2, (Except.ok.inj h).symm⟩

/-- The descriptions of an import are those of the file, each copied for itself. -/
theorem probeConfigImportCore_copies {config : ProbeConfig} (h : probeConfigImportCore core = .ok config) :
    config.core = core ∧
      copyAsciiToUnicode configTextBytes core.legacyOptionDescription = .ok config.legacyOptionDescription ∧
      copyAsciiToUnicode configTextBytes core.targetBbsDescription = .ok config.targetBbsDescription := by
  unfold probeConfigImportCore at h
  cases hname : copyAsciiToUnicode configTextBytes core.name with
  | error => simp [hname, bind, Except.bind] at h
  | ok name =>
  cases hoption : copyAsciiToUnicode configTextBytes core.legacyOptionDescription with
  | error => simp [hname, hoption, bind, Except.bind] at h
  | ok option =>
  cases hexclude : copyAsciiToUnicode configTextBytes core.excludeDescription with
  | error => simp [hname, hoption, hexclude, bind, Except.bind] at h
  | ok exclude =>
  cases hdisk : copyAsciiToUnicode configTextBytes core.targetBbsDescription with
  | error => simp [hname, hoption, hexclude, hdisk, bind, Except.bind] at h
  | ok disk =>
    simp only [hname, hoption, hexclude, hdisk, bind, Except.bind, pure, Except.pure,
      Except.ok.injEq] at h
    subst h
    exact ⟨rfl, rfl, rfl⟩

theorem probeConfigImportCore_eq_ok {config : ProbeConfig} (h : probeConfigImportCore core = .ok config) :
    config.core = core ∧ config.targetBbsDescription = core.targetBbsDescription.map UInt8.toUInt16 := by
  obtain ⟨hcore, -, hdisk⟩ := probeConfigImportCore_copies h
  exact ⟨hcore, (copyAsciiToUnicode_eq_ok hdisk).2⟩

/-- The configuration that is used targets the row whose candidate was saved. -/
theorem SavedDisk.targetsRow {config : ProbeConfig} (h : SavedDisk item text encoded core)
    (hconfig : probeConfigImportCore core = .ok config) (hfits : AddressFits entry)
    (hrepresentable : Representable (rowDescription memory entry))
    (haddress : item.address = (bbsStorageCandidate memory index entry).address)
    (hdescription : item.description = (bbsStorageCandidate memory index entry).description) :
    TargetsRow config.diskTarget memory entry := by
  have htext : cString item.description.array = rowDescription memory entry := by
    rw [hdescription, cString_description]
  obtain ⟨hcontroller, hhas, hdisk⟩ := h.gives (haddress ▸ valid_address hfits)
    (htext.symm ▸ hrepresentable)
  obtain ⟨hcore, hwide⟩ := probeConfigImportCore_eq_ok hconfig
  rw [haddress, address_candidate hfits] at hcontroller
  obtain ⟨hbus, hdevice, hfunction⟩ := hfits
  refine ⟨?_, ?_, ?_, ?_⟩
  · rw [ProbeConfig.diskTarget, hcore, hcontroller]
    exact toUInt32_toUInt8 hbus
  · rw [ProbeConfig.diskTarget, hcore, hcontroller]
    exact toUInt32_toUInt8 (UInt32.le_trans hdevice (by decide))
  · rw [ProbeConfig.diskTarget, hcore, hcontroller]
    exact toUInt32_toUInt8 (UInt32.le_trans hfunction (by decide))
  · rw [ProbeConfig.diskTarget, hcore, hhas, if_pos rfl, hwide, hdisk, htext]

/-- The one index of a range that has a property. -/
theorem filter_range {n row : Nat} {p : Nat → Bool} (hrow : row < n)
    (h : ∀ index < n, p index = true ↔ index = row) : (List.range n).filter p = [row] := by
  have hcongr : (List.range n).filter p = (List.range n).filter (· == row) := by
    apply List.filter_congr
    intro index hindex
    rw [Bool.eq_iff_iff, h index (List.mem_range.mp hindex), beq_iff_eq]
  rw [hcongr, List.filter_beq, List.count_eq_one_of_mem List.nodup_range (List.mem_range.mpr hrow),
    List.replicate_one]

/-- The row that setup leaves eligible is the one row that the saved configuration identifies. -/
theorem identified_of_saved {setupMemory bootMemory : FarMemory} {table : List BbsTable}
    (hlength : table.length ≤ maxBbsEntries)
    (hstable : ∀ entry ∈ table, rowDescription bootMemory entry = rowDescription setupMemory entry)
    {ranked : List NcvStorageCandidate} {selected : Option Nat}
    (hranked : ncvRankStorage (rowCandidates setupMemory 0 table) = some (ranked, selected))
    {item : NcvStorageCandidate} (hitem : item ∈ ranked) (heligible : item.eligible = true)
    {row : Nat} (hrow : row < table.length) (hindex : item.bbsIndex = row.toUInt64)
    {text encoded : Bytes} {core : NcvConfigCore} (hsaved : SavedDisk item text encoded core)
    {config : ProbeConfig} (hconfig : probeConfigImportCore core = .ok config)
    {s : BootState} (hlive : s.live = table) :
    ∀ other < table.length, Identified bootMemory config.diskTarget s other = true ↔ other = row := by
  obtain ⟨place, original, hplace, horiginal, hambiguous, hbbsIndex, haddress, hdescription⟩ :=
    eligible_of_rank hranked hitem heligible
  obtain ⟨index, entry, hentry, hdisk, rfl⟩ := mem_rowCandidates.mp (List.mem_of_getElem? hplace)
  have hbytes : maxBbsEntries = 256 := rfl
  have hlt := (List.getElem?_eq_some_iff.mp hentry).1
  obtain rfl : row = index := by
    have hnat := congrArg UInt64.toNat (hindex.symm.trans hbbsIndex)
    rw [show (bbsStorageCandidate setupMemory index entry).bbsIndex = index.toUInt64 from rfl,
      Nat.toUInt64_eq, Nat.toUInt64_eq, UInt64.toNat_ofNat', UInt64.toNat_ofNat'] at hnat
    omega
  obtain ⟨hfits, hrepresentable⟩ := eligible_candidate horiginal
  have htarget := hsaved.targetsRow hconfig hfits hrepresentable haddress hdescription
  have hunambiguous := unambiguous_of_not (addressValid_iff.mpr hfits) hambiguous
  intro other hother
  rw [Identified, hlive, getElem!_pos table other hother, hstable _ (List.getElem_mem hother)]
  exact identifies_iff (by omega) hentry hdisk horiginal hplace hunambiguous htarget
    (List.getElem?_eq_getElem hother)

/-- Where one row alone is identified, discovery selects it unless it cannot be attempted. -/
theorem wp_legacyBootLogAndCorrelateLiveBbs_identified {row : Nat} (hrow : row < s.live.length)
    (hcount : s.context.bbsCount = s.live.length)
    (hsnapshot : s.context.bbsDiscoverySnapshot.isSome = true)
    (hstrings : s.context.bbsDiscoveryStrings.isSome = true)
    (hidentified : ∀ other < s.live.length, Identified memory target s other = true ↔ other = row) :
    (legacyBootLogAndCorrelateLiveBbs memory target).Wp LogSucceeds
      (fun status s' =>
        if legacyBootSelectedDiskCanAttempt s.rom s.live[row]! then
          status = .success ∧ s'.context.liveBbsIndex = row ∧ s'.context.liveBbsEntry = s.live[row]!
        else status = .accessDenied) s := by
  have hidentityMatches : (List.range s.live.length).countP (Identified memory target s) = 1 := by
    rw [List.countP_eq_length_filter, filter_range hrow hidentified, List.length_singleton]
  unfold legacyBootLogAndCorrelateLiveBbs
  refine .bind_get ?_
  dsimp only
  rw [Option.isNone_eq_false_iff.mpr hsnapshot, Option.isNone_eq_false_iff.mpr hstrings, Bool.or_false,
    if_neg Bool.false_ne_true, hcount]
  refine Prog.Wp.bind wp_correlateRows_succeeds ?_
  rintro _ s' ⟨counts, rfl, hcorrelated⟩
  have hidentities := hcorrelated.identityMatches
  have hmatches := hcorrelated.matchCount
  rw [hidentityMatches] at hidentities
  dsimp only at hidentities hmatches ⊢
  refine Prog.Wp.bind_query fun _ => ?_
  rw [hidentities, if_neg (by decide)]
  cases hattempt : legacyBootSelectedDiskCanAttempt s.rom s.live[row]! with
  | false =>
      have hnone : (List.range s.live.length).countP (Matched memory target s) = 0 := by
        refine List.countP_eq_zero.mpr fun other hother hmatched => ?_
        rw [Matched, Bool.and_eq_true] at hmatched
        obtain rfl := (hidentified other (List.mem_range.mp hother)).mp hmatched.1
        rw [hattempt] at hmatched
        cases hmatched.2
      rw [hmatches, hnone, if_pos rfl, if_pos rfl]
      exact Prog.Wp.bind_query fun _ => rfl
  | true =>
      have hmatched : (List.range s.live.length).filter (Matched memory target s) = [row] := by
        refine filter_range hrow fun other hother => ?_
        rw [Matched, Bool.and_eq_true, hidentified other hother]
        refine and_iff_left_of_imp ?_
        rintro rfl
        exact hattempt
      rw [hmatches, List.countP_eq_length_filter, hmatched, List.length_singleton,
        if_neg (by decide), if_neg (by decide)]
      have hfound := hcorrelated.selected row hmatched
      refine .bind_get ?_
      split
      · refine Prog.wp_bind.mpr (Prog.wp_lift.mpr (wp_logPrint.mpr fun answer hanswer => ?_))
        rw [LogSucceeds] at hanswer
        rw [hanswer, if_neg Bool.false_ne_true]
        exact Prog.wp_pure.mpr ⟨rfl, hfound⟩
      · exact Prog.wp_pure.mpr ⟨rfl, hfound⟩

/-- **Setup and boot agree on the disk.** The row that setup leaves eligible is the one that discovery
selects with the saved configuration, unless the row itself cannot be attempted. -/
theorem disk_agrees (setupMemory bootMemory : FarMemory) (table : List BbsTable)
    (hlength : table.length ≤ maxBbsEntries)
    (hdisks : table.countP (·.deviceType == bbsHardDisk) ≤ maxStorageCandidates)
    (hstable : ∀ entry ∈ table, rowDescription bootMemory entry = rowDescription setupMemory entry)
    (ranked : List NcvStorageCandidate) (selected : Option Nat)
    (hranked : ncvRankStorage (bbsProbeRows setupMemory 0 table {}).items = some (ranked, selected))
    (item : NcvStorageCandidate) (hitem : item ∈ ranked) (heligible : item.eligible = true)
    (row : Nat) (hrow : row < table.length) (hindex : item.bbsIndex = row.toUInt64)
    (text encoded : Bytes) (core : NcvConfigCore) (hsaved : SavedDisk item text encoded core)
    (config : ProbeConfig) (hconfig : probeConfigImportCore core = .ok config)
    (s : BootState) (hlive : s.live = table) (hcount : s.context.bbsCount = table.length)
    (hsnapshot : s.context.bbsDiscoverySnapshot.isSome = true)
    (hstrings : s.context.bbsDiscoveryStrings.isSome = true) :
    (legacyBootLogAndCorrelateLiveBbs bootMemory config.diskTarget).Wp LogSucceeds
      (fun status s' =>
        if legacyBootSelectedDiskCanAttempt s.rom table[row]! then
          status = .success ∧ s'.context.liveBbsIndex = row ∧ s'.context.liveBbsEntry = table[row]!
        else status = .accessDenied) s := by
  rw [bbsProbeRows_items (by simpa using hdisks), List.nil_append] at hranked
  have hidentified := identified_of_saved hlength hstable hranked hitem heligible hrow hindex hsaved hconfig hlive
  subst hlive
  exact wp_legacyBootLogAndCorrelateLiveBbs_identified hrow hcount hsnapshot hstrings hidentified

/-! ### Two disks of one controller -/

def twoDiskMemory : FarMemory where
  readableBytes _ := 64
  byte address := ((ascii "Disk A").append (0 :: ascii "Disk B"))[address - 0x2000]?.getD 0

def twoDiskEntry (descStringOffset : UInt16) : BbsTable :=
  { (default : BbsTable) with
    device := 31
    function := 2
    class_ := 1
    subClass := 6
    deviceType := bbsHardDisk
    statusFlags := 0x500
    descStringSegment := 0x200
    descStringOffset }

def twoDiskTable : List BbsTable := [twoDiskEntry 0, twoDiskEntry 7]

def twoDiskText : Bytes :=
  textOfLines [ascii "[Boot]", ascii "TargetControllerPci=0000:00:1F.2", ascii "TargetBbsDescription=Disk B"]

def twoDiskCore : NcvConfigCore :=
  { ncvConfigDefaults with
    hasTargetControllerPci := true
    targetControllerPci := { segment := 0, bus := 0, device := 31, function := 2 }
    hasTargetBbsDescription := true
    targetBbsDescription := ascii "Disk B" }

def twoDiskConfig : ProbeConfig where
  core := twoDiskCore
  name := []
  legacyOptionDescription := (ascii "Hard Drive").map UInt8.toUInt16
  excludeDescription := (ascii "USB").map UInt8.toUInt16
  targetBbsDescription := (ascii "Disk B").map UInt8.toUInt16

def twoDiskState : BootState where
  context :=
    { bbsCount := 2
      bbsDiscoverySnapshot := some twoDiskTable
      bbsDiscoveryStrings := some [default, default] }
  live := twoDiskTable
  rom := .reset

theorem disk_agrees_twoDisks :
    (legacyBootLogAndCorrelateLiveBbs twoDiskMemory twoDiskConfig.diskTarget).Wp LogSucceeds
      (fun status s' => status = .success ∧ s'.context.liveBbsIndex = 1 ∧
        s'.context.liveBbsEntry = twoDiskTable[1]!) twoDiskState :=
  disk_agrees twoDiskMemory twoDiskMemory twoDiskTable (by decide) (by decide) (fun _ _ => rfl)
    _ _ (by rfl) (bbsStorageCandidate twoDiskMemory 1 (twoDiskEntry 7)) (by decide +kernel)
    (by decide +kernel)
    1 (by decide) (by rfl) twoDiskText (ascii "Disk B") twoDiskCore
    ⟨by decide +kernel, ⟨_, List.mem_cons_of_mem _ (List.mem_cons_self ..), by decide +kernel⟩,
      ⟨_, List.mem_cons_of_mem _ (List.mem_cons_of_mem _ (List.mem_cons_self ..)), by decide +kernel⟩,
      by decide +kernel⟩
    twoDiskConfig (by rfl) twoDiskState rfl rfl rfl rfl

end CsmVgaSelector
