import CsmVgaSelector.Proof.EditLines
import CsmVgaSelector.Proof.Reading

/-!
# The editor beside the parser

Both take the same line. What the editor does with it depends on what the line says to the parser and on
where its carriage returns stand (`JointStep`). An editor that loses track of a section, or misses one of
the two addresses, never makes it good (`Failing`); until then it knows where it is (`Sync`).
-/

namespace CsmVgaSelector

variable {reading reading' : Reading} {line : Bytes} {capacity : Nat} {targets : EditTargets}
  {state state' : EditState}

/-- The setting that a target key sets. -/
def TargetKey.setting : TargetKey → Setting
  | .targetPci => .targetPci
  | .targetControllerPci => .targetControllerPci
  | .targetBbsDescription => .targetBbsDescription

theorem TargetKey.setting_injective {key key' : TargetKey} (h : key.setting = key'.setting) :
    key = key' := by
  revert h
  cases key <;> cases key' <;> decide

theorem TargetKey.key_setting (key : TargetKey) : key.setting.key = key.text := by
  cases key <;> rfl

theorem TargetKey.mem_all (key : TargetKey) : key ∈ TargetKey.all := by cases key <;> decide

/-- The editor recognises the key of a setting in its own section, and no other key. -/
theorem find_target {setting : Setting} {current : EditSection} {key : TargetKey} :
    (TargetKey.all.find? fun target =>
        target.editSection == current && equalIgnoringCase setting.key target.text) = some key ↔
      key.setting = setting ∧ key.editSection = current := by
  have hall : ∀ setting ∈ Setting.all, ∀ current ∈ [EditSection.other, .video, .boot],
      ∀ key ∈ TargetKey.all,
        (TargetKey.all.find? fun target =>
            target.editSection == current && equalIgnoringCase setting.key target.text) = some key ↔
          key.setting = setting ∧ key.editSection = current := by
    decide +kernel
  exact hall setting (Setting.mem_all setting) current (by cases current <;> decide) key
    key.mem_all

/-! ### What the pieces do -/

/-- The line feed that the output lacks. -/
def missingEnd (output : Bytes) : Bytes :=
  if output ≠ [] ∧ output.getLast? ≠ some lineFeed then [carriageReturn, lineFeed] else []

namespace EditState

def copy (state : EditState) (line : Bytes) : EditState :=
  { state with output := state.output ++ line }

def replace (state : EditState) (targets : EditTargets) (key : TargetKey) : EditState :=
  { state with
    output := state.output ++ (keyLine key.text (targets.value key) ++ [carriageReturn, lineFeed])
    seen := key :: state.seen }

def append (state : EditState) (targets : EditTargets) : EditState :=
  { state with
    output := state.output ++ missingEnd state.output ++
      (diskLine targets.encodedDisk ++ [carriageReturn, lineFeed])
    seen := .targetBbsDescription :: state.seen }

def inSection (state : EditState) (editSection : EditSection) : EditState :=
  { state with editSection := editSection }

end EditState

theorem copyLine_eq_ok (h : copyLine capacity line state = .ok state') :
    state' = state.copy line := by
  unfold copyLine at h
  split at h
  · cases h
  · exact (Except.ok.inj h).symm

theorem replaceLine_eq_ok {key : TargetKey}
    (h : replaceLine capacity targets key state = .ok state') :
    key ∉ state.seen ∧ state' = state.replace targets key := by
  unfold replaceLine at h
  split at h
  · cases h
  · split at h
    · cases h
    · rename_i hseen _
      refine ⟨hseen, ?_⟩
      rw [← Except.ok.inj h]
      simp [EditState.replace, keyLine]

theorem appendDescription_eq_ok {encodedDisk output output' : Bytes}
    (h : appendDescription capacity encodedDisk output = .ok output') :
    output' = output ++ missingEnd output ++
      (diskLine encodedDisk ++ [carriageReturn, lineFeed]) := by
  have hkey : ascii "TargetBbsDescription=" = ascii "TargetBbsDescription" ++ [byte '='] := rfl
  change (if (missingEnd output).length + _ + _ + 2 ≥ _ then _ else _) = _ at h
  split at h
  · cases h
  · rw [← Except.ok.inj h]
    simp [missingEnd, diskLine, keyLine, hkey]

/-- A section has ended: the description is appended if it is missing. -/
inductive Ended (targets : EditTargets) (state : EditState) : EditState → Prop where
  | append (hsection : state.editSection = .boot) (hmissing : .targetBbsDescription ∉ state.seen) :
      Ended targets state (state.append targets)
  | keep (h : state.editSection = .boot → .targetBbsDescription ∈ state.seen) :
      Ended targets state state

theorem endSection_eq_ok (h : endSection capacity targets state = .ok state') :
    Ended targets state state' := by
  unfold endSection at h
  split at h
  case isTrue hmissing =>
    obtain ⟨output, happend, h⟩ := bind_eq_ok h
    rw [appendDescription_eq_ok happend] at h
    rw [← Except.ok.inj h]
    exact .append hmissing.1 hmissing.2
  case isFalse hmissing =>
    rw [not_and_not_right] at hmissing
    rw [← Except.ok.inj h]
    exact .keep hmissing

/-! ### One line for both -/

/-- What one line does to the reading of the source and to the editor. -/
inductive JointStep (targets : EditTargets) (reading : Reading) (state : EditState) (line : Bytes) :
    Reading → EditState → Prop where
  | skip (hskip : isActiveLine (seenText line) = false) :
      JointStep targets reading state line reading (state.copy line)
  | hidden (header : NcvConfigSection) (hseen : seenText line = sectionHeader header)
      (hnew : header ∉ reading.sectionSeen) (hhidden : hiddenStart line = true) :
      JointStep targets reading state line (reading.enter header) (state.copy line)
  | header (header : NcvConfigSection) (hseen : seenText line = sectionHeader header)
      (hnew : header ∉ reading.sectionSeen) (hvisible : hiddenStart line = false)
      (editSection : EditSection)
      (hsection : editSection = header.editSection ∨ editSection = .other) (ended : EditState)
      (hended : Ended targets state ended) :
      JointStep targets reading state line (reading.enter header)
        ((ended.inSection editSection).copy line)
  | replace (key : TargetKey) (value : Bytes)
      (hgives : GivesSetting (seenText line) key.setting value)
      (hcurrent : reading.current = some key.setting.configSection)
      (hnew : reading.values key.setting = none) (hvisible : carriageReturn ∉ keyPart line)
      (hsection : key.editSection = state.editSection) (hseen : key ∉ state.seen) :
      JointStep targets reading state line (reading.give key.setting value)
        (state.replace targets key)
  | copy (setting : Setting) (value : Bytes) (hgives : GivesSetting (seenText line) setting value)
      (hcurrent : reading.current = some setting.configSection)
      (hnew : reading.values setting = none)
      (hmissed : carriageReturn ∉ keyPart line →
        ∀ key : TargetKey, key.setting = setting → key.editSection ≠ state.editSection) :
      JointStep targets reading state line (reading.give setting value) (state.copy line)

/-- **A line that the parser accepts and the editor takes is one of these steps.** -/
theorem jointStep (hreads : ReadsLine reading (seenText line) reading')
    (h : editLine capacity targets state line = .ok state') :
    JointStep targets reading state line reading' state' := by
  rw [editLine] at h
  cases hreads with
  | skip hskip =>
      have hcopy := @edit_of_inactive line state.editSection hskip
      simp only [hcopy.1, Bool.false_eq_true, if_false, hcopy.2] at h
      rw [copyLine_eq_ok h]
      exact .skip hskip
  | header header hseen hnew =>
      cases hhidden : hiddenStart line with
      | true =>
          simp only [isEditHeader_of_hidden hhidden, editTarget_of_header hseen,
            Bool.false_eq_true, if_false] at h
          rw [copyLine_eq_ok h]
          exact .hidden header hseen hnew hhidden
      | false =>
          obtain ⟨hheader, hsection⟩ := isEditHeader_of_header hseen hhidden
          simp only [hheader, if_true] at h
          obtain ⟨ended, hended, hcopy⟩ := bind_eq_ok h
          rw [copyLine_eq_ok hcopy]
          exact .header header hseen hnew hhidden _ hsection ended (endSection_eq_ok hended)
  | setting setting value hgives hcurrent hnew =>
      have hheader : isEditHeader (editView line) = false := by
        by_contra hcontra
        exact hgives.noHeader (head_of_isEditHeader (by simpa using hcontra))
      simp only [hheader, Bool.false_eq_true, if_false] at h
      by_cases hreturn : carriageReturn ∈ keyPart line
      · rw [editTarget_of_return hreturn] at h
        rw [copyLine_eq_ok h]
        exact .copy setting value hgives hcurrent hnew fun hnot => absurd hreturn hnot
      · rw [editTarget_of_key hgives.active hgives.split hreturn] at h
        split at h
        case h_1 key hkey =>
          obtain ⟨rfl, hsection⟩ := find_target.mp hkey
          obtain ⟨hseen, hstate⟩ := replaceLine_eq_ok h
          rw [hstate]
          exact .replace key value hgives hcurrent hnew hreturn hsection hseen
        case h_2 hnone =>
          rw [copyLine_eq_ok h]
          refine .copy setting value hgives hcurrent hnew fun _ key hsetting hsection => ?_
          have hfound := find_target.mpr ⟨hsetting, hsection⟩
          rw [hnone] at hfound
          cases hfound

/-! ### Keeping track -/

/-- A section that is current, or has a setting, has been entered. -/
structure Reading.WellFormed (reading : Reading) : Prop where
  current : ∀ header ∈ reading.current, header ∈ reading.sectionSeen
  values : ∀ setting, reading.values setting ≠ none → setting.configSection ∈ reading.sectionSeen

theorem Reading.wellFormed_start : Reading.start.WellFormed := by
  constructor
  · rintro _ ⟨⟩
  · exact fun _ hvalue => absurd rfl hvalue

theorem ReadsLine.wellFormed {text : Bytes} (h : ReadsLine reading text reading')
    (hreading : reading.WellFormed) : reading'.WellFormed := by
  cases h with
  | skip => exact hreading
  | header header =>
      constructor
      · rintro _ ⟨⟩
        exact List.mem_cons_self ..
      · exact fun setting hvalue => List.mem_cons_of_mem _ (hreading.values setting hvalue)
  | setting setting value _ hcurrent =>
      refine ⟨hreading.current, fun other hother => ?_⟩
      by_cases hsame : other = setting
      · subst hsame
        exact hreading.current _ hcurrent
      · apply hreading.values other
        simpa [Reading.give, Function.update_of_ne hsame] using hother

/-- The editor knows where it is, and has found the addresses that the parser has found. -/
structure Sync (reading : Reading) (state : EditState) : Prop where
  gpu : .targetPci ∈ state.seen ↔ reading.values .targetPci ≠ none
  controller : .targetControllerPci ∈ state.seen ↔ reading.values .targetControllerPci ≠ none
  boot : reading.current = some .boot → state.editSection = .boot
  entered : state.editSection = .boot → .boot ∈ reading.sectionSeen

/-- An address has been missed, or will be. -/
def Failing (reading : Reading) (state : EditState) : Prop :=
  .targetPci ∉ state.seen ∧ reading.values .targetPci ≠ none ∨
    .targetControllerPci ∉ state.seen ∧ .boot ∈ reading.sectionSeen ∧
      (reading.values .targetControllerPci ≠ none ∨ reading.current ≠ some .boot ∨
        state.editSection ≠ .boot)

theorem Ended.seen {ended : EditState} (h : Ended targets state ended) {key : TargetKey}
    (hkey : key ≠ .targetBbsDescription) : key ∈ ended.seen ↔ key ∈ state.seen := by
  cases h with
  | append => simp [EditState.append, hkey]
  | keep => rfl

theorem give_ne_none {setting other : Setting} {value : Bytes} :
    (reading.give setting value).values other ≠ none ↔
      other = setting ∨ reading.values other ≠ none := by
  by_cases hsame : other = setting
  · subst hsame
    simp [Reading.give]
  · simp [Reading.give, hsame]

/-- An editor that fails goes on failing. -/
theorem JointStep.failing (h : JointStep targets reading state line reading' state')
    (hfailing : Failing reading state) : Failing reading' state' := by
  cases h with
  | skip => exact hfailing
  | hidden header _ hnew =>
      refine hfailing.imp id fun ⟨hseen, hboot, hwhy⟩ => ?_
      refine ⟨hseen, List.mem_cons_of_mem _ hboot, .inr (.inl ?_)⟩
      rintro ⟨⟩
      exact hnew hboot
  | header header _ hnew _ editSection _ ended hended =>
      refine hfailing.imp (fun ⟨hseen, hvalue⟩ => ⟨?_, hvalue⟩) fun ⟨hseen, hboot, hwhy⟩ => ?_
      · exact fun hcontra => hseen ((hended.seen (by decide)).mp hcontra)
      · refine ⟨fun hcontra => hseen ((hended.seen (by decide)).mp hcontra),
          List.mem_cons_of_mem _ hboot, .inr (.inl ?_)⟩
        rintro ⟨⟩
        exact hnew hboot
  | replace key value _ hcurrent hnew _ hsection =>
      refine hfailing.imp (fun ⟨hseen, hvalue⟩ => ⟨?_, ?_⟩) fun ⟨hseen, hboot, hwhy⟩ => ⟨?_, hboot, ?_⟩
      · intro hcontra
        rcases List.mem_cons.mp hcontra with rfl | hcontra
        · exact hvalue hnew
        · exact hseen hcontra
      · exact give_ne_none.mpr (.inr hvalue)
      · intro hcontra
        rcases List.mem_cons.mp hcontra with rfl | hcontra
        · rcases hwhy with hvalue | hnotBoot | hnotBoot
          · exact hvalue hnew
          · exact hnotBoot hcurrent
          · exact hnotBoot hsection.symm
        · exact hseen hcontra
      · exact hwhy.imp (fun hvalue => give_ne_none.mpr (.inr hvalue)) id
  | copy setting value _ hcurrent hnew =>
      refine hfailing.imp (fun ⟨hseen, hvalue⟩ => ⟨hseen, give_ne_none.mpr (.inr hvalue)⟩)
        fun ⟨hseen, hboot, hwhy⟩ => ⟨hseen, hboot, ?_⟩
      exact hwhy.imp (fun hvalue => give_ne_none.mpr (.inr hvalue)) id

end CsmVgaSelector
