import CsmVgaSelector.Pci.Verify
import CsmVgaSelector.Proof.Inventory

/-!
# What the verification verifies

It succeeds exactly when nothing it captured has changed: no later record makes up for an earlier one, and no
query that cannot be made counts as a change. An inventory that is answered the same at its end is verified.
-/

namespace CsmVgaSelector

variable {record : PciRecord} {now : ReadBack} {overallStatus : EfiStatus} {before after : List UInt8}

/-- What was captured of a record is what is read now. -/
structure Unchanged (record : PciRecord) (now : ReadBack) : Prop where
  read : now.read.status.isError = false
  command : readLe16 record.config pciCommandOffset = readLe16 now.read.bytes.toList pciCommandOffset
  bars : recordIsDisplay record.toPciDeviceRecord = true → ∀ offset, pciBar0Offset ≤ offset →
    offset < pciBar0Offset + 24 → record.config[offset]! = now.read.bytes.toList[offset]!
  bridgeControl : recordIsP2pBridge record.toPciDeviceRecord = true →
    readLe16 record.config pciBridgeControlOffset = readLe16 now.read.bytes.toList pciBridgeControlOffset
  attributes : record.currentAttributesStatus.isError = false → ∀ answer ∈ now.attributes,
    answer.status.isError = false ∧ answer.attributes = record.currentAttributes
  rootAttributes : recordIsDisplay record.toPciDeviceRecord = true → record.rootBridgeStatus.isError = false →
    record.rootAttributesStatus.isError = false → record.rootBridgeIo.isSome = true →
      ∀ answer ∈ now.rootAttributes, answer.status.isError = false ∧
        answer.supported = record.rootSupportedAttributes ∧ answer.current = record.rootCurrentAttributes

/-! ### The registers -/

/-- A field of so many bytes is its bytes. -/
theorem readLe_inj {offset width : Nat} : readLe before offset width = readLe after offset width ↔
    ∀ index < width, before[offset + index]! = after[offset + index]! := by
  induction width generalizing offset with
  | zero => simp [readLe]
  | succ width ih =>
      have hbefore := before[offset]!.toNat_lt
      have hafter := after[offset]!.toNat_lt
      have hsplit : readLe before offset (width + 1) = readLe after offset (width + 1) ↔
          before[offset]! = after[offset]! ∧
            readLe before (offset + 1) width = readLe after (offset + 1) width := by
        rw [← UInt8.toNat_inj, readLe, readLe]
        omega
      rw [hsplit, ih]
      constructor
      · rintro ⟨hfirst, hrest⟩ index hindex
        cases index with
        | zero => exact hfirst
        | succ index => simpa [Nat.add_assoc, Nat.add_comm 1] using hrest index (by omega)
      · intro hall
        refine ⟨by simpa using hall 0 (by omega), fun index hindex => ?_⟩
        simpa [Nat.add_assoc, Nat.add_comm 1] using hall (index + 1) (by omega)

theorem barsChanged_eq_false : barsChanged before after = false ↔
    ∀ offset, pciBar0Offset ≤ offset → offset < pciBar0Offset + 24 → before[offset]! = after[offset]! := by
  have hslots : barsChanged before after = false ↔ ∀ slot < 6, ∀ index < 4,
      before[pciBar0Offset + 4 * slot + index]! = after[pciBar0Offset + 4 * slot + index]! := by
    simp only [barsChanged, List.any_eq_false, List.mem_range, bne_iff_ne, not_not, readLe_inj]
  rw [hslots]
  constructor
  · intro hall offset hfrom hto
    have hoffset := hall ((offset - pciBar0Offset) / 4) (by omega) ((offset - pciBar0Offset) % 4) (by omega)
    rwa [show pciBar0Offset + 4 * ((offset - pciBar0Offset) / 4) + (offset - pciBar0Offset) % 4 = offset by
      omega] at hoffset
  · exact fun hall slot hslot index hindex => hall _ (by omega) (by omega)

theorem verifyConfig_success : verifyConfig record after overallStatus = .success ↔
    overallStatus = .success ∧ readLe16 record.config pciCommandOffset = readLe16 after pciCommandOffset ∧
      (recordIsDisplay record.toPciDeviceRecord = true → ∀ offset, pciBar0Offset ≤ offset →
        offset < pciBar0Offset + 24 → record.config[offset]! = after[offset]!) ∧
      (recordIsP2pBridge record.toPciDeviceRecord = true →
        readLe16 record.config pciBridgeControlOffset = readLe16 after pciBridgeControlOffset) := by
  rw [← barsChanged_eq_false]
  unfold verifyConfig
  split
  case isTrue hcommand => simp [hcommand]
  case isFalse hcommand =>
    rw [not_not] at hcommand
    split
    case isTrue hbars =>
      rw [Bool.and_eq_true] at hbars
      simp [hbars.1, hbars.2]
    case isFalse hbars =>
      split
      case isTrue hcontrol =>
        rw [Bool.and_eq_true, bne_iff_ne] at hcontrol
        simp [hcontrol.1, hcontrol.2]
      case isFalse hcontrol =>
        simp only [Bool.and_eq_true, not_and, bne_iff_ne, not_not, Bool.not_eq_true] at hbars hcontrol
        exact ⟨fun h => ⟨h, hcommand, hbars, hcontrol⟩, And.left⟩

theorem keepFirst_error {status : EfiStatus} (hstatus : status.isError = true) :
    keepFirst overallStatus status ≠ .success := by
  unfold keepFirst
  split
  case isTrue herror => exact EfiStatus.ne_success_of_isError herror
  case isFalse => exact EfiStatus.ne_success_of_isError hstatus

theorem verifyAttributes_success {attributes : Option AttributesAnswer} :
    verifyAttributes record attributes overallStatus = .success ↔ overallStatus = .success ∧
      (record.currentAttributesStatus.isError = false → ∀ answer ∈ attributes,
        answer.status.isError = false ∧ answer.attributes = record.currentAttributes) := by
  unfold verifyAttributes
  split
  case h_1 => simp
  case h_2 answer =>
    split
    case isTrue hunread => simp [hunread]
    case isFalse hread =>
      rw [Bool.not_eq_true] at hread
      split
      case isTrue hfailed => simp [hread, hfailed, keepFirst_error]
      case isFalse hanswered =>
        rw [Bool.not_eq_true] at hanswered
        split
        case isTrue hchanged => simp [hread, hchanged]
        case isFalse hsame => simp [hanswered, not_not.mp hsame]

theorem verifyRootAttributes_success {attributes : Option RootAttributesAnswer} :
    verifyRootAttributes record attributes overallStatus = .success ↔ overallStatus = .success ∧
      (recordIsDisplay record.toPciDeviceRecord = true → record.rootBridgeStatus.isError = false →
        record.rootAttributesStatus.isError = false → record.rootBridgeIo.isSome = true →
          ∀ answer ∈ attributes, answer.status.isError = false ∧
            answer.supported = record.rootSupportedAttributes ∧
            answer.current = record.rootCurrentAttributes) := by
  unfold verifyRootAttributes
  split
  case h_1 => simp
  case h_2 answer =>
    split
    case isTrue hunread =>
      refine ⟨fun h => ⟨h, fun hdisplay hfound hattributes hio => ?_⟩, And.left⟩
      rw [hdisplay, hfound, hattributes, Option.isNone_eq_false_iff.mpr hio] at hunread
      cases hunread
    case isFalse hread =>
      simp only [Bool.or_eq_true, Bool.not_eq_true', not_or, Bool.not_eq_false, Bool.not_eq_true,
        Option.isNone_eq_false_iff] at hread
      obtain ⟨⟨⟨hdisplay, hfound⟩, hattributes⟩, hio⟩ := hread
      split
      case isTrue hfailed => simp [hdisplay, hfound, hattributes, hio, hfailed, keepFirst_error]
      case isFalse hanswered =>
        rw [Bool.not_eq_true] at hanswered
        split
        case isTrue hchanged =>
          simp only [hdisplay, hfound, hattributes, hio, Option.mem_some_iff, forall_const, forall_eq']
          exact iff_of_false (fun h => by cases h) fun h => hchanged.elim (· h.2.2.1) (· h.2.2.2)
        case isFalse hsame =>
          simp only [not_or, not_not] at hsame
          simp [hanswered, hsame]

theorem verifyRecord_success : verifyRecord record now overallStatus = .success ↔
    overallStatus = .success ∧ (isVerifiable record = true → Unchanged record now) := by
  unfold verifyRecord
  split
  case isTrue hunread => simp_all
  case isFalse hread =>
    rw [Bool.not_eq_true, Bool.not_eq_false'] at hread
    split
    case isTrue hfailed =>
      refine iff_of_false (EfiStatus.ne_success_of_isError hfailed) fun h => ?_
      simp [(h.2 hread).read] at hfailed
    case isFalse hanswered =>
      rw [Bool.not_eq_true] at hanswered
      rw [verifyRootAttributes_success, verifyAttributes_success, verifyConfig_success]
      constructor
      · rintro ⟨⟨⟨hoverall, hcommand, hbars, hcontrol⟩, hattributes⟩, hroot⟩
        exact ⟨hoverall, fun _ => ⟨hanswered, hcommand, hbars, hcontrol, hattributes, hroot⟩⟩
      · rintro ⟨hoverall, hunchanged⟩
        obtain ⟨-, hcommand, hbars, hcontrol, hattributes, hroot⟩ := hunchanged hread
        exact ⟨⟨⟨hoverall, hcommand, hbars, hcontrol⟩, hattributes⟩, hroot⟩

/-- Whatever the status was before, the records that follow keep it unless it is success. -/
theorem verifyRecords_success {inventory : List (PciRecord × ReadBack)} :
    inventory.foldl (fun overallStatus (record, now) => verifyRecord record now overallStatus) overallStatus =
        .success ↔
      overallStatus = .success ∧ ∀ pair ∈ inventory, isVerifiable pair.1 = true → Unchanged pair.1 pair.2 := by
  induction inventory generalizing overallStatus with
  | nil => simp
  | cons pair rest ih =>
      rw [List.foldl_cons, ih, verifyRecord_success, and_assoc, List.forall_mem_cons]

/-! ### An inventory answered twice -/

/-- What is answered about a handle is what the inventory was built from. -/
structure AnsweredAgain (answer : HandleAnswer) (now : ReadBack) : Prop where
  read : ∀ config ∈ answer.read, now.read = config
  attributes : now.attributes = answer.attributes.map Prod.snd
  rootAttributes : now.rootAttributes = answer.rootBridge.io.bind RootBridgeIo.getAttributes

/-- What is answered about a handle when nothing has changed. -/
def HandleAnswer.again (answer : HandleAnswer) : ReadBack where
  read := answer.read.getD ⟨.notReady, Vector.replicate 64 0⟩
  attributes := answer.attributes.map Prod.snd
  rootAttributes := answer.rootBridge.io.bind RootBridgeIo.getAttributes

/-- Every handle can be answered again. -/
theorem answeredAgain_again (answer : HandleAnswer) : AnsweredAgain answer answer.again where
  read config hconfig := by rw [HandleAnswer.again, Option.mem_def.mp hconfig, Option.getD_some]
  attributes := rfl
  rootAttributes := rfl

theorem attributesRecord_config {answer : HandleAnswer} {config : ConfigAnswer} (hread : answer.read = some config) :
    answer.attributesRecord.configStatus = config.status ∧
      answer.attributesRecord.config = config.bytes.toList := by
  obtain ⟨hconfig, hstatus⟩ := @readAttributes_config
    ((answer.record.readLocation answer.getLocation).readConfig answer.read) answer.attributes
  rw [HandleAnswer.attributesRecord, hconfig, hstatus, hread]
  exact ⟨rfl, rfl⟩

theorem unchanged_of_answeredAgain {answer : HandleAnswer} (hsame : AnsweredAgain answer now)
    (hverifiable : isVerifiable (buildRecord answer) = true) : Unchanged (buildRecord answer) now := by
  have hdevice := @buildRecord_withoutRoot answer
  have hstatus : (buildRecord answer).configStatus = answer.attributesRecord.configStatus :=
    (PciRecord.kept (·.configStatus) hdevice).trans (PciRecord.kept (·.configStatus) deviceRecord_withoutPath)
  have hconfig : (buildRecord answer).config = answer.attributesRecord.config :=
    (PciRecord.kept (·.config) hdevice).trans (PciRecord.kept (·.config) deviceRecord_withoutPath)
  simp only [isVerifiable, Bool.and_eq_true, Bool.not_eq_true'] at hverifiable
  have hgood := hverifiable.1.1.1
  obtain ⟨config, hread⟩ : ∃ config, answer.read = some config :=
    Option.isSome_iff_exists.mp (deviceRecord_config.2 ((PciRecord.kept (·.configStatus) hdevice) ▸ hgood))
  obtain ⟨hreadStatus, hbytes⟩ := attributesRecord_config hread
  have hnow := hsame.read config hread
  have hcurrent : (buildRecord answer).config = now.read.bytes.toList := by rw [hconfig, hbytes, hnow]
  refine ⟨?_, ?_, fun _ offset _ _ => ?_, fun _ => ?_, fun hcaptured attributes hattributes => ?_,
    fun _ _ hcaptured _ attributes hattributes => ?_⟩
  · rw [hnow, ← hreadStatus, ← hstatus]
    exact hgood
  · rw [hcurrent]
  · rw [hcurrent]
  · rw [hcurrent]
  · -- the current attributes are the second of the two answers
    have hfield : (buildRecord answer).currentAttributes = answer.attributesRecord.currentAttributes :=
      (PciRecord.kept (·.currentAttributes) hdevice).trans
        (PciRecord.kept (·.currentAttributes) deviceRecord_withoutPath)
    have hfieldStatus : (buildRecord answer).currentAttributesStatus =
        answer.attributesRecord.currentAttributesStatus :=
      (PciRecord.kept (·.currentAttributesStatus) hdevice).trans
        (PciRecord.kept (·.currentAttributesStatus) deviceRecord_withoutPath)
    rw [hsame.attributes, Option.mem_def, Option.map_eq_some_iff] at hattributes
    obtain ⟨⟨supported, current⟩, hanswered, rfl⟩ := hattributes
    rw [hfieldStatus, HandleAnswer.attributesRecord, hanswered] at hcaptured
    rw [hfield, HandleAnswer.attributesRecord, hanswered]
    exact ⟨hcaptured, rfl⟩
  · obtain ⟨-, io, hio, answered, hanswered, hrootStatus, hsupported, hcurrent⟩ :=
      PciRecord.rootAttributes_found deviceRecord_unread.2 hcaptured
    rw [hsame.rootAttributes, Option.mem_def.mp hio, Option.bind_some] at hattributes
    obtain rfl := Option.mem_unique hattributes hanswered
    exact ⟨hrootStatus ▸ hcaptured, hsupported.symm, hcurrent.symm⟩

/-- **What the verification verifies.** It succeeds just when no register of a record that can be read has
changed; and so it does for a built inventory whose handles are answered again as they were. -/
theorem pciVerifyReadOnlySnapshot_exact :
    (∀ inventory : List (PciRecord × ReadBack), pciVerifyReadOnlySnapshot inventory = .success ↔
      ∀ pair ∈ inventory, isVerifiable pair.1 = true → Unchanged pair.1 pair.2) ∧
    ∀ handles : List (HandleAnswer × ReadBack), (∀ pair ∈ handles, AnsweredAgain pair.1 pair.2) →
      pciVerifyReadOnlySnapshot (handles.map fun pair => (buildRecord pair.1, pair.2)) = .success := by
  have hexact : ∀ inventory : List (PciRecord × ReadBack), pciVerifyReadOnlySnapshot inventory = .success ↔
      ∀ pair ∈ inventory, isVerifiable pair.1 = true → Unchanged pair.1 pair.2 := by
    intro inventory
    rw [pciVerifyReadOnlySnapshot, verifyRecords_success, eq_self, true_and]
  refine ⟨hexact, fun handles hsame => (hexact _).mpr fun pair hpair hverifiable => ?_⟩
  obtain ⟨answered, hmem, rfl⟩ := List.mem_map.mp hpair
  exact unchanged_of_answeredAgain (hsame answered hmem) hverifiable

theorem pciVerifyReadOnlySnapshot_exact_again :
    isVerifiable (buildRecord plannedBridge) = true ∧ pciVerifyReadOnlySnapshot
      ([sampleHandle, plannedBridge].map fun answer => (buildRecord answer, answer.again)) = .success := by
  refine ⟨by decide +kernel, ?_⟩
  have hverified := pciVerifyReadOnlySnapshot_exact.2
    ([sampleHandle, plannedBridge].map fun answer => (answer, answer.again))
  rw [List.map_map] at hverified
  refine hverified fun pair hpair => ?_
  obtain ⟨answer, -, rfl⟩ := List.mem_map.mp hpair
  exact answeredAgain_again answer

end CsmVgaSelector
