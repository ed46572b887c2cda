import CsmVgaSelector.Config.Settings
import CsmVgaSelector.Proof.Lines

/-!
# What an accepted text says

Over the map of settings the parser is a relation between readings: a line is passed over, or begins a
section, or gives a setting. `parseRawLine_iff` says that the parser accepts a line exactly when the
reading has one of these steps.
-/

namespace CsmVgaSelector

/-- The settings given so far, and the section the next one is in. -/
structure Reading where
  values : Values
  current : Option NcvConfigSection
  sectionSeen : List NcvConfigSection

namespace Reading

def start : Reading where
  values _ := none
  current := none
  sectionSeen := []

def state (reading : Reading) : ParseState where
  config := configOf reading.values
  current := reading.current
  sectionSeen := reading.sectionSeen
  line := []

def enter (reading : Reading) (header : NcvConfigSection) : Reading :=
  { reading with current := some header, sectionSeen := header :: reading.sectionSeen }

def give (reading : Reading) (setting : Setting) (value : Bytes) : Reading :=
  { reading with values := Function.update reading.values setting (some value) }

theorem state_start : start.state = parseStart ncvConfigDefaults := rfl

end Reading

variable {reading reading' : Reading} {text line : Bytes}

/-- A line that gives a setting. -/
structure GivesSetting (text : Bytes) (setting : Setting) (value : Bytes) : Prop where
  active : isActiveLine text = true
  noHeader : text.head? ≠ some (byte '[')
  split : splitEquals text = some (setting.key, value)
  accepts : setting.accepts value = true
  ne_nil : value ≠ []

/-- One line of an accepted text, as the parser sees it. -/
inductive ReadsLine (reading : Reading) (text : Bytes) : Reading → Prop where
  | skip (h : isActiveLine text = false) : ReadsLine reading text reading
  | header (header : NcvConfigSection) (h : text = sectionHeader header)
      (hnew : header ∉ reading.sectionSeen) : ReadsLine reading text (reading.enter header)
  | setting (setting : Setting) (value : Bytes) (h : GivesSetting text setting value)
      (hcurrent : reading.current = some setting.configSection)
      (hnew : reading.values setting = none) : ReadsLine reading text (reading.give setting value)

/-- The characters of the line are accepted. -/
def LineOk (line : Bytes) : Prop :=
  (lineText line).all isPrintable = true ∧ (lineText line).length < configMaxLineBytes

theorem key_ne_nil (setting : Setting) : setting.key ≠ [] := by cases setting <;> decide

theorem setSection_sectionHeader (header : NcvConfigSection) :
    setSection (sectionHeader header) = .ok header := by
  cases header <;> rfl

theorem setSection_eq_ok {header : NcvConfigSection} (h : setSection text = .ok header) :
    text = sectionHeader header := by
  unfold setSection at h
  split at h
  case h_1 found hfound =>
    obtain rfl := Except.ok.inj h
    have hequal := List.find?_some hfound
    exact beq_iff_eq.mp hequal
  case h_2 => cases h

theorem head_sectionHeader (header : NcvConfigSection) :
    (sectionHeader header).head? = some (byte '[') := by
  cases header <;> rfl

theorem not_header_of_inactive (h : isActiveLine text = false) : text.head? ≠ some (byte '[') := by
  intro hhead
  obtain ⟨rest, rfl⟩ := List.head?_eq_some_iff.mp hhead
  cases h

theorem parseHeader_state {header : NcvConfigSection} (hnew : header ∉ reading.sectionSeen) :
    parseHeader reading.state (sectionHeader header) = .ok (reading.enter header).state := by
  rw [parseHeader, setSection_sectionHeader]
  exact if_neg hnew

/-- **The parser accepts a line exactly when the reading has a step.** -/
theorem parseLine_iff {state' : ParseState} : parseLine reading.state text = .ok state' ↔
    ∃ reading', ReadsLine reading text reading' ∧ state' = reading'.state := by
  constructor
  · intro h
    cases hactive : isActiveLine text with
    | false =>
        rw [parseLine_of_inactive hactive] at h
        exact ⟨reading, .skip hactive, (Except.ok.inj h).symm⟩
    | true =>
        cases text with
        | nil => cases hactive
        | cons first rest =>
            have hcomment : ¬ (first = byte '#' ∨ first = byte ';') := by
              simpa [isActiveLine, not_or] using hactive
            rw [parseLine, if_neg hcomment] at h
            by_cases hheader : first = byte '['
            · rw [if_pos hheader, parseHeader] at h
              obtain ⟨header, hsection, h⟩ := bind_eq_ok h
              split at h
              · cases h
              · rename_i hnew
                exact ⟨reading.enter header, .header header (setSection_eq_ok hsection) hnew,
                  (Except.ok.inj h).symm⟩
            · rw [if_neg hheader, parseKeyValue] at h
              split at h
              case h_1 current key value hcurrent hsplit =>
                split at h
                · cases h
                · rename_i hempty
                  rw [not_or] at hempty
                  obtain ⟨config, hset, h⟩ := bind_eq_ok h
                  obtain ⟨setting, rfl, rfl, hnew, haccepts, rfl⟩ := setKeyValue_iff.mp hset
                  have hgives : GivesSetting (first :: rest) setting value :=
                    ⟨hactive, by simpa using hheader, hsplit, haccepts, hempty.2⟩
                  exact ⟨reading.give setting value, .setting setting value hgives hcurrent hnew,
                    (Except.ok.inj h).symm⟩
              case h_2 => cases h
  · rintro ⟨reading', hreads, rfl⟩
    cases hreads with
    | skip hactive => exact parseLine_of_inactive hactive
    | header header htext hnew =>
        subst htext
        obtain ⟨rest, hrest⟩ := List.head?_eq_some_iff.mp (head_sectionHeader header)
        have hheader := parseHeader_state hnew
        rw [hrest] at hheader ⊢
        exact hheader
    | setting setting value hgives hcurrent hnew =>
        cases text with
        | nil => cases hgives.active
        | cons first rest =>
            have hcomment : ¬ (first = byte '#' ∨ first = byte ';') := by
              simpa [isActiveLine, not_or] using hgives.active
            have hheader : first ≠ byte '[' := by simpa using hgives.noHeader
            have hempty : ¬ (setting.key = [] ∨ value = []) :=
              not_or.mpr ⟨key_ne_nil setting, hgives.ne_nil⟩
            have hset : setKeyValue (configOf reading.values) setting.configSection setting.key
                value = .ok (configOf (Function.update reading.values setting (some value))) :=
              setKeyValue_iff.mpr ⟨setting, rfl, rfl, hnew, hgives.accepts, rfl⟩
            have hcurrent' : reading.state.current = some setting.configSection := hcurrent
            rw [parseLine, if_neg hcomment, if_neg hheader, parseKeyValue, hcurrent', hgives.split]
            dsimp only
            rw [if_neg hempty]
            show setKeyValue (configOf reading.values) _ _ _ >>= _ = _
            rw [hset, ← hcurrent]
            rfl

theorem parseRawLine_iff {state' : ParseState} : parseRawLine reading.state line = .ok state' ↔
    LineOk line ∧ ∃ reading', ReadsLine reading (seenText line) reading' ∧
      state' = reading'.state := by
  rw [parseRawLine, ← parseLine_iff]
  constructor
  · intro h
    split at h
    · exact ⟨‹_›, h⟩
    · cases h
  · rintro ⟨hline, h⟩
    exact (if_pos hline).trans h

theorem isActiveLine_sectionHeader (header : NcvConfigSection) :
    isActiveLine (sectionHeader header) = true := by
  cases header <;> decide

theorem sectionHeader_injective {header header' : NcvConfigSection}
    (h : sectionHeader header = sectionHeader header') : header = header' := by
  revert h
  cases header <;> cases header' <;> decide

theorem key_injective {setting setting' : Setting} (h : setting.key = setting'.key) :
    setting = setting' := by
  have hall : ∀ setting ∈ Setting.all, ∀ setting' ∈ Setting.all,
      setting.key = setting'.key → setting = setting' := by
    decide +kernel
  exact hall setting (Setting.mem_all setting) setting' (Setting.mem_all setting') h

theorem GivesSetting.unique {setting setting' : Setting} {value value' : Bytes}
    (h : GivesSetting text setting value) (h' : GivesSetting text setting' value') :
    setting = setting' ∧ value = value' := by
  have hsplit := h.split.symm.trans h'.split
  rw [Option.some.injEq, Prod.mk.injEq] at hsplit
  exact ⟨key_injective hsplit.1, hsplit.2⟩

/-- A line says one thing. -/
theorem ReadsLine.unique {reading'' : Reading} (h : ReadsLine reading text reading')
    (h' : ReadsLine reading text reading'') : reading' = reading'' := by
  cases h with
  | skip hskip =>
      cases h' with
      | skip => rfl
      | header header htext => simp [htext, isActiveLine_sectionHeader] at hskip
      | setting setting value hgives => simp [hgives.active] at hskip
  | header header htext =>
      cases h' with
      | skip hskip => simp [htext, isActiveLine_sectionHeader] at hskip
      | header header' htext' => rw [sectionHeader_injective (htext.symm.trans htext')]
      | setting setting value hgives =>
          exact absurd (htext ▸ head_sectionHeader header) hgives.noHeader
  | setting setting value hgives =>
      cases h' with
      | skip hskip => simp [hgives.active] at hskip
      | header header htext => exact absurd (htext ▸ head_sectionHeader header) hgives.noHeader
      | setting setting' value' hgives' =>
          obtain ⟨rfl, rfl⟩ := hgives.unique hgives'
          rfl

/-! ### Texts -/

/-- The lines of an accepted text, one after another. -/
inductive ReadsLines : Reading → List Bytes → Reading → Prop where
  | nil (reading : Reading) : ReadsLines reading [] reading
  | cons {reading reading' reading'' : Reading} {line : Bytes} {lines : List Bytes}
      (hline : LineOk line) (h : ReadsLine reading (seenText line) reading')
      (hlines : ReadsLines reading' lines reading'') :
      ReadsLines reading (line :: lines) reading''

/-- What every line preserves, the lines preserve. -/
theorem ReadsLines.preserves {P : Reading → Prop} {lines : List Bytes}
    (hstep : ∀ {text : Bytes} {before after : Reading}, ReadsLine before text after → P before → P after)
    (h : ReadsLines reading lines reading') (hP : P reading) : P reading' := by
  induction h with
  | nil => exact hP
  | cons _ hline _ ih => exact ih (hstep hline hP)

theorem foldlM_parseRawLine_iff {state' : ParseState} {lines : List Bytes} :
    lines.foldlM parseRawLine reading.state = .ok state' ↔
      ∃ reading', ReadsLines reading lines reading' ∧ state' = reading'.state := by
  induction lines generalizing reading with
  | nil =>
      constructor
      · intro h
        exact ⟨reading, .nil reading, (Except.ok.inj h).symm⟩
      · rintro ⟨reading', hreads, rfl⟩
        cases hreads
        rfl
  | cons line lines ih =>
      rw [List.foldlM_cons]
      constructor
      · intro h
        obtain ⟨middle, hline, h⟩ := bind_eq_ok h
        obtain ⟨hok, reading', hreads, rfl⟩ := parseRawLine_iff.mp hline
        obtain ⟨reading'', hlines, rfl⟩ := ih.mp h
        exact ⟨reading'', .cons hok hreads hlines, rfl⟩
      · rintro ⟨reading'', hreads, rfl⟩
        cases hreads with
        | cons hok hline hlines =>
            rw [parseRawLine_iff.mpr ⟨hok, _, hline, rfl⟩]
            exact ih.mpr ⟨reading'', hlines, rfl⟩

theorem ReadsLines.append_iff {lines lines' : List Bytes} {reading'' : Reading} :
    ReadsLines reading (lines ++ lines') reading'' ↔
      ∃ reading', ReadsLines reading lines reading' ∧ ReadsLines reading' lines' reading'' := by
  induction lines generalizing reading with
  | nil =>
      constructor
      · exact fun h => ⟨reading, .nil reading, h⟩
      · rintro ⟨reading', hnil, h⟩
        cases hnil
        exact h
  | cons line lines ih =>
      constructor
      · intro h
        cases h with
        | cons hok hline hlines =>
            obtain ⟨reading', hlines, hlines'⟩ := ih.mp hlines
            exact ⟨reading', .cons hok hline hlines, hlines'⟩
      · rintro ⟨reading', h, hlines'⟩
        cases h with
        | cons hok hline hlines => exact .cons hok hline (ih.mpr ⟨reading', hlines, hlines'⟩)

theorem ReadsLines.singleton_iff : ReadsLines reading [line] reading' ↔
    LineOk line ∧ ReadsLine reading (seenText line) reading' := by
  constructor
  · intro h
    cases h with
    | cons hok hline hlines =>
        cases hlines
        exact ⟨hok, hline⟩
  · rintro ⟨hok, hline⟩
    exact .cons hok hline (.nil reading')

theorem ReadsLines.unique {lines : List Bytes} {reading'' : Reading}
    (h : ReadsLines reading lines reading') (h' : ReadsLines reading lines reading'') :
    reading' = reading'' := by
  induction h with
  | nil => cases h'; rfl
  | cons _ hline _ ih =>
      cases h' with
      | cons _ hline' hlines' =>
          obtain rfl := hline.unique hline'
          exact ih hlines'

/-- **An accepted text is a reading whose settings pass the last checks.** -/
theorem ncvParseConfigStrict_iff {config : NcvConfigCore} :
    ncvParseConfigStrict text ncvConfigDefaults = .ok config ↔
      text ≠ [] ∧ ∃ reading, ReadsLines .start (linesOf text) reading ∧
        finishConfig (configOf reading.values) = .ok config := by
  by_cases hne : text = []
  · subst hne
    simp [ncvParseConfigStrict]
  · rw [ncvParseConfigStrict_eq hne, ← Reading.state_start]
    constructor
    · intro h
      obtain ⟨state, hlines, hfinish⟩ := bind_eq_ok h
      obtain ⟨reading, hreads, rfl⟩ := foldlM_parseRawLine_iff.mp hlines
      exact ⟨hne, reading, hreads, hfinish⟩
    · rintro ⟨-, reading, hreads, hfinish⟩
      rw [foldlM_parseRawLine_iff.mpr ⟨reading, hreads, rfl⟩]
      exact hfinish

theorem finishConfig_eq_ok {config config' : NcvConfigCore}
    (h : finishConfig config = .ok config') : config' = config := by
  unfold finishConfig at h
  split at h
  · cases h
  · split at h
    · cases h
    · exact (Except.ok.inj h).symm

end CsmVgaSelector
