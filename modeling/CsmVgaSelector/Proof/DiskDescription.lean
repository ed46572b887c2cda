import CsmVgaSelector.Proof.Reading
import CsmVgaSelector.Proof.EditLines

/-!
# Disk descriptions

A description that can be written is read back from its encoding, and a description that has been read can
be written. The value of a setting is trimmed and has no equals sign (`Written`), so that a description
without quotes is not blank.
-/

namespace CsmVgaSelector

variable {text line value disk : Bytes} {reading reading' : Reading}

/-! ### What a line gives -/

/-- The value of a setting, as it stands on its line. -/
structure Written (setting : Setting) (value : Bytes) : Prop where
  accepts : setting.accepts value = true
  ne_nil : value ≠ []
  first : ∀ character ∈ value.head?, isSpace character = false
  noEquals : byte '=' ∉ value

theorem head_trim : ∀ character ∈ (trim text).head?, isSpace character = false := by
  intro character hcharacter
  have hprefix : trim text <+: text.dropWhile isSpace := List.rdropWhile_prefix _ _
  obtain ⟨rest, hrest⟩ := List.head?_eq_some_iff.mp hcharacter
  obtain ⟨after, hafter⟩ := hprefix
  rw [hrest, List.cons_append] at hafter
  have hhead := List.head?_dropWhile_not isSpace text
  rw [← hafter] at hhead
  simpa using hhead

theorem splitEquals_value {key : Bytes} (h : splitEquals text = some (key, value)) :
    (∀ character ∈ value.head?, isSpace character = false) ∧ byte '=' ∉ value := by
  unfold splitEquals at h
  split at h
  · cases h
  · split at h
    · cases h
    · rename_i hequals
      obtain ⟨-, rfl⟩ := Prod.mk.inj (Option.some.inj h)
      exact ⟨head_trim, fun hmem => hequals ((mem_trim_of_not (by decide)).mp hmem)⟩

theorem GivesSetting.written {setting : Setting} (h : GivesSetting text setting value) :
    Written setting value where
  accepts := h.accepts
  ne_nil := h.ne_nil
  first := (splitEquals_value h.split).1
  noEquals := (splitEquals_value h.split).2

theorem ReadsLine.written {line : Bytes} (h : ReadsLine reading line reading')
    (hreading : ∀ setting, ∀ value ∈ reading.values setting, Written setting value) :
    ∀ setting, ∀ value ∈ reading'.values setting, Written setting value := by
  cases h with
  | skip => exact hreading
  | header => exact hreading
  | setting setting value hgives =>
      intro other
      by_cases hsame : other = setting
      · subst hsame
        simpa [Reading.give] using hgives.written
      · simpa [Reading.give, hsame] using hreading other

/-- The readings of an accepted text hold values that stand on its lines. -/
theorem ReadsLines.written {lines : List Bytes} (h : ReadsLines reading lines reading')
    (hreading : ∀ setting, ∀ value ∈ reading.values setting, Written setting value) :
    ∀ setting, ∀ value ∈ reading'.values setting, Written setting value :=
  h.preserves ReadsLine.written hreading

/-! ### What is read can be written -/

/-- A quoted description can be written. -/
theorem representable_of_copyQuoted {written rest : Bytes}
    (h : copyQuoted configTextBytes written rest = some disk)
    (hwritten : ∀ character ∈ written, isPrintable character = true) : Representable disk := by
  have hconcat : ∀ {written : Bytes} {character : UInt8},
      (∀ character ∈ written, isPrintable character = true) → isPrintable character = true →
        ∀ other ∈ written ++ [character], isPrintable other = true := by
    intro written character hwritten hcharacter other hother
    rcases List.mem_append.mp hother with hmem | hmem
    · exact hwritten other hmem
    · rwa [List.mem_singleton.mp hmem]
  revert h
  fun_induction copyQuoted configTextBytes written rest with
  | case3 written rest _ hrepresentable =>
      rintro ⟨⟩
      rw [representable_iff, cString_of_printable hwritten] at hrepresentable
      exact hrepresentable.1
  | case8 written escaped rest hescaped _ _ ih =>
      have hplain : isPrintable escaped = true := by
        rw [not_and_or, not_not, not_not] at hescaped
        rcases hescaped with rfl | rfl <;> decide
      exact ih (hconcat hwritten hplain)
  | case10 written character rest _ _ haccepted ih =>
      simp only [not_or, Bool.not_eq_true', Bool.not_eq_false] at haccepted
      exact ih (hconcat hwritten haccepted.2.1)
  | _ =>
      intro h
      cases h

theorem representable_of_copyDiskDescription (h : Written .targetBbsDescription value)
    (hcopy : copyDiskDescription configTextBytes value = some disk) : Representable disk := by
  obtain ⟨first, rest, rfl⟩ := List.exists_cons_of_ne_nil h.ne_nil
  rw [copyDiskDescription] at hcopy
  split at hcopy
  case isTrue =>
    unfold copyAscii at hcopy
    split at hcopy
    case isTrue => cases hcopy
    case isFalse hlength =>
      split at hcopy
      case isFalse => cases hcopy
      case isTrue hprintable =>
        obtain rfl := Option.some.inj hcopy
        rw [not_or, not_le] at hlength
        refine ⟨h.ne_nil, hlength.2, List.all_eq_true.mp hprintable, h.noEquals, first,
          List.mem_cons_self .., ?_⟩
        rintro rfl
        exact absurd (h.first _ rfl) (by decide)
  case isFalse => exact representable_of_copyQuoted hcopy (by simp)

/-! ### The line of a description -/

/-- The description comes back from its line in `[Boot]`. -/
def Survives (disk : Bytes) : Prop :=
  ∃ encoded, ncvEncodeDiskDescription disk encodedDescriptionBytes = .ok encoded ∧
    ∀ state : ParseState, state.current = some .boot →
      state.config.hasTargetBbsDescription = false → state.line = [] →
        (diskLine encoded ++ [lineFeed]).foldlM parseByte state =
          .ok { state with config := state.config.setDisk disk }

theorem diskLine_plain (h : Representable disk) : PlainLine (diskLine (encodeDescription disk)) := by
  constructor
  · rw [diskLine, keyLine, List.all_append, Bool.and_eq_true, List.all_cons, Bool.and_eq_true]
    exact ⟨by decide, by decide, List.all_eq_true.mpr (printable_encodeDescription h)⟩
  · have hlength := length_encodeDescription disk
    have hshort := h.short
    have hbytes : configTextBytes = 65 := rfl
    have hkey : (ascii "TargetBbsDescription").length = 20 := by decide
    have hline : 200 < configMaxLineBytes := by decide
    rw [diskLine, keyLine, List.length_append, List.length_cons, hkey]
    omega

theorem Representable.encodes (h : Representable disk) :
    ncvEncodeDiskDescription disk encodedDescriptionBytes = .ok (encodeDescription disk) := by
  have hstring := cString_of_printable h.printable
  have hencode := @ncvEncodeDiskDescription_eq disk (hstring.symm ▸ h)
  rwa [hstring] at hencode

theorem Representable.survives (h : Representable disk) : Survives disk := by
  refine ⟨_, h.encodes, fun state hcurrent hhas hline => ?_⟩
  have hplain := diskLine_plain h
  have hfeed : lineFeed ∉ diskLine (encodeDescription disk) := hplain.notMem (by decide)
  have htext : lineText (diskLine (encodeDescription disk)) = diskLine (encodeDescription disk) := by
    rw [lineText_of_notMem hfeed, filter_of_notMem (hplain.notMem (by decide))]
  rw [foldlM_parseByte_line hfeed hline, parseRawLine, seenText, htext,
    if_pos ⟨hplain.printable, hplain.short⟩, trim_diskLine (word_encodeDescription h),
    parseLine_diskLine h hcurrent hhas]

/-- **The encoding of disk descriptions.** Every description that can be written survives, no two have
one encoding, and every description that has been accepted can be written and survives. -/
theorem diskDescription_encoding :
    (∀ disk, Representable disk → Survives disk) ∧
      (∀ disk disk' encoded, Representable disk → Representable disk' →
        ncvEncodeDiskDescription disk encodedDescriptionBytes = .ok encoded →
        ncvEncodeDiskDescription disk' encodedDescriptionBytes = .ok encoded → disk = disk') ∧
      ∀ text config, ncvParseConfigStrict text ncvConfigDefaults = .ok config →
        config.hasTargetBbsDescription = true →
          Representable config.targetBbsDescription ∧ Survives config.targetBbsDescription := by
  refine ⟨fun disk h => h.survives, ?_, ?_⟩
  · intro disk disk' encoded h h' hencode hencode'
    rw [h.encodes] at hencode
    rw [h'.encodes] at hencode'
    have hsame : encodeDescription disk = encodeDescription disk' :=
      Except.ok.inj (hencode.trans hencode'.symm)
    have hcopy := copyDiskDescription_encodeDescription h
    rw [hsame, copyDiskDescription_encodeDescription h'] at hcopy
    exact (Option.some.inj hcopy).symm
  · intro text config hparse hhas
    obtain ⟨-, reading, hreads, hfinish⟩ := ncvParseConfigStrict_iff.mp hparse
    obtain rfl := finishConfig_eq_ok hfinish
    obtain ⟨value, hvalue⟩ := Option.isSome_iff_exists.mp hhas
    have hwritten := hreads.written (fun _ _ h => by cases h) .targetBbsDescription value hvalue
    obtain ⟨disk, hcopy⟩ := Option.isSome_iff_exists.mp hwritten.accepts
    have hdisk : (configOf reading.values).targetBbsDescription = disk := by
      show reading.values.read .targetBbsDescription (copyDiskDescription configTextBytes) [] = disk
      rw [Values.read, hvalue, Option.bind_some, hcopy, Option.getD_some]
    rw [hdisk]
    have hrepresentable := representable_of_copyDiskDescription hwritten hcopy
    exact ⟨hrepresentable, hrepresentable.survives⟩

/-- A description with blanks at its ends, a quote and a backslash. -/
theorem diskDescription_encoding_quoted :
    Representable (ascii " \"USB\\disk\" ") ∧ Survives (ascii " \"USB\\disk\" ") := by
  have h : Representable (ascii " \"USB\\disk\" ") :=
    ⟨by decide, by decide, List.all_eq_true.mp (by decide), by decide, byte 'U', by decide, by decide⟩
  exact ⟨h, diskDescription_encoding.1 _ h⟩

end CsmVgaSelector
