import CsmVgaSelector.Proof.Reading

/-!
# What a text says

An accepted text is its section headers and its settings, each at most once, each setting in its section
(`exists_readsLines_iff`). What lines say in a row is what their parts say (`Says.append_iff`), and the
order of lines without a header does not matter, nor does the order of sections.
-/

namespace CsmVgaSelector

variable {line line' text : Bytes} {lines lines' : List Bytes} {reading reading' : Reading}

/-- A line that says something. -/
inductive Item where
  | header (header : NcvConfigSection)
  | setting (setting : Setting) (value : Bytes)

/-- What a line says, if anything. -/
inductive SaysItem (text : Bytes) : Option Item → Prop where
  | nothing (h : isActiveLine text = false) : SaysItem text none
  | header (header : NcvConfigSection) (h : text = sectionHeader header) :
      SaysItem text (some (.header header))
  | setting (setting : Setting) (value : Bytes) (h : GivesSetting text setting value) :
      SaysItem text (some (.setting setting value))

/-- A setting and its value. -/
abbrev Entry := Setting × Bytes

/-- The headers and the settings of some lines that begin in a section. -/
inductive Says : Option NcvConfigSection → List Bytes → List NcvConfigSection → List Entry → Prop
    where
  | nil (current : Option NcvConfigSection) : Says current [] [] []
  | skip {current : Option NcvConfigSection} {line : Bytes} {lines : List Bytes}
      {headers : List NcvConfigSection} {entries : List Entry} (hok : LineOk line)
      (hline : SaysItem (seenText line) none) (hlines : Says current lines headers entries) :
      Says current (line :: lines) headers entries
  | header {current : Option NcvConfigSection} {line : Bytes} {lines : List Bytes}
      {headers : List NcvConfigSection} {entries : List Entry} (header : NcvConfigSection)
      (hok : LineOk line) (hline : SaysItem (seenText line) (some (.header header)))
      (hlines : Says (some header) lines headers entries) :
      Says current (line :: lines) (header :: headers) entries
  | setting {line : Bytes} {lines : List Bytes} {headers : List NcvConfigSection}
      {entries : List Entry} (setting : Setting) (value : Bytes) (hok : LineOk line)
      (hline : SaysItem (seenText line) (some (.setting setting value)))
      (hlines : Says (some setting.configSection) lines headers entries) :
      Says (some setting.configSection) (line :: lines) headers ((setting, value) :: entries)

variable {current current' : Option NcvConfigSection} {headers headers' : List NcvConfigSection}
  {entries entries' : List Entry}

/-! ### Readings -/

/-- The reading has none of these headers and settings. -/
structure Fresh (reading : Reading) (headers : List NcvConfigSection) (entries : List Entry) :
    Prop where
  headersNodup : headers.Nodup
  headersNew : ∀ header ∈ headers, header ∉ reading.sectionSeen
  settingsNodup : (entries.map Prod.fst).Nodup
  settingsNew : ∀ entry ∈ entries, reading.values entry.1 = none

/-- The values that have been added to a reading. -/
def Adds (reading reading' : Reading) (entries : List Entry) : Prop :=
  ∀ setting value, reading'.values setting = some value ↔
    reading.values setting = some value ∨ (setting, value) ∈ entries

theorem Fresh.enter {header : NcvConfigSection} :
    Fresh reading (header :: headers) entries ↔
      header ∉ reading.sectionSeen ∧ Fresh (reading.enter header) headers entries := by
  constructor
  · rintro ⟨hheaders, hnew, hsettings, hvalues⟩
    rw [List.nodup_cons] at hheaders
    rw [List.forall_mem_cons] at hnew
    refine ⟨hnew.1, hheaders.2, fun other hother hcontra => ?_, hsettings, hvalues⟩
    rcases List.mem_cons.mp hcontra with rfl | hcontra
    · exact hheaders.1 hother
    · exact hnew.2 other hother hcontra
  · rintro ⟨hnew, hheaders, hnews, hsettings, hvalues⟩
    refine ⟨List.nodup_cons.mpr ⟨fun hmem => ?_, hheaders⟩, ?_, hsettings, hvalues⟩
    · exact hnews header hmem (List.mem_cons_self ..)
    · rw [List.forall_mem_cons]
      exact ⟨hnew, fun other hother hcontra => hnews other hother (List.mem_cons_of_mem _ hcontra)⟩

theorem Fresh.give {setting : Setting} {value : Bytes} :
    Fresh reading headers ((setting, value) :: entries) ↔
      reading.values setting = none ∧ Fresh (reading.give setting value) headers entries := by
  have hgive : ∀ entry : Entry, (reading.give setting value).values entry.1 = none ↔
      entry.1 ≠ setting ∧ reading.values entry.1 = none := by
    intro entry
    by_cases hsame : entry.1 = setting
    · simp [Reading.give, hsame]
    · simp [Reading.give, hsame]
  constructor
  · rintro ⟨hheaders, hnew, hsettings, hvalues⟩
    rw [List.map_cons, List.nodup_cons] at hsettings
    rw [List.forall_mem_cons] at hvalues
    refine ⟨hvalues.1, hheaders, hnew, hsettings.2, fun entry hentry => (hgive entry).mpr ⟨?_, ?_⟩⟩
    · rintro hsame
      exact hsettings.1 (List.mem_map.mpr ⟨entry, hentry, hsame⟩)
    · exact hvalues.2 entry hentry
  · rintro ⟨hnone, hheaders, hnew, hsettings, hvalues⟩
    refine ⟨hheaders, hnew, List.nodup_cons.mpr ⟨fun hmem => ?_, hsettings⟩, ?_⟩
    · obtain ⟨entry, hentry, hsame⟩ := List.mem_map.mp hmem
      exact ((hgive entry).mp (hvalues entry hentry)).1 hsame
    · rw [List.forall_mem_cons]
      exact ⟨hnone, fun entry hentry => ((hgive entry).mp (hvalues entry hentry)).2⟩

theorem Adds.give {setting : Setting} {value : Bytes} (hnew : reading.values setting = none)
    (h : Adds (reading.give setting value) reading' entries) :
    Adds reading reading' ((setting, value) :: entries) := by
  intro other value'
  rw [h other value', List.mem_cons, Prod.mk.injEq, ← or_assoc]
  refine or_congr ?_ Iff.rfl
  by_cases hsame : other = setting
  · subst hsame
    simp [Reading.give, hnew, eq_comm]
  · simp [Reading.give, hsame]

/-- **An accepted text says its headers and its settings once.** -/
theorem ReadsLines.says (h : ReadsLines reading lines reading') :
    ∃ headers entries, Says reading.current lines headers entries ∧ Fresh reading headers entries ∧
      Adds reading reading' entries := by
  induction h with
  | nil reading =>
      refine ⟨[], [], .nil _, ⟨List.nodup_nil, by simp, List.nodup_nil, by simp⟩, ?_⟩
      intro setting value
      simp
  | cons hok hline _ ih =>
      obtain ⟨headers, entries, hsays, hfresh, hadds⟩ := ih
      cases hline with
      | skip hskip => exact ⟨headers, entries, .skip hok (.nothing hskip) hsays, hfresh, hadds⟩
      | header header hseen hnew =>
          exact ⟨header :: headers, entries, .header header hok (.header header hseen) hsays,
            Fresh.enter.mpr ⟨hnew, hfresh⟩, hadds⟩
      | setting setting value hgives hcurrent hnew =>
          replace hsays : Says _ _ headers entries := hsays
          refine ⟨headers, (setting, value) :: entries, ?_, Fresh.give.mpr ⟨hnew, hfresh⟩,
            hadds.give hnew⟩
          rw [hcurrent]
          refine .setting setting value hok (.setting setting value hgives) ?_
          rwa [← hcurrent]

theorem Says.reads (h : Says current lines headers entries) (hcurrent : reading.current = current)
    (hfresh : Fresh reading headers entries) :
    ∃ reading', ReadsLines reading lines reading' ∧ Adds reading reading' entries := by
  induction h generalizing reading with
  | nil =>
      refine ⟨reading, .nil reading, fun setting value => ?_⟩
      simp
  | skip hok hline _ ih =>
      obtain ⟨reading', hreads, hadds⟩ := ih hcurrent hfresh
      cases hline with
      | nothing hskip => exact ⟨reading', .cons hok (.skip hskip) hreads, hadds⟩
  | header header hok hline _ ih =>
      obtain ⟨hnew, hfresh⟩ := Fresh.enter.mp hfresh
      obtain ⟨reading', hreads, hadds⟩ := ih rfl hfresh
      cases hline with
      | header _ hseen => exact ⟨reading', .cons hok (.header header hseen hnew) hreads, hadds⟩
  | setting setting value hok hline _ ih =>
      obtain ⟨hnew, hfresh⟩ := Fresh.give.mp hfresh
      obtain ⟨reading', hreads, hadds⟩ := @ih (reading.give setting value) hcurrent hfresh
      cases hline with
      | setting _ _ hgives =>
          exact ⟨reading', .cons hok (.setting setting value hgives hcurrent hnew) hreads,
            hadds.give hnew⟩

/-! ### Parts -/

/-- The section in which some lines end. -/
def lastSection (current : Option NcvConfigSection) (headers : List NcvConfigSection) :
    Option NcvConfigSection :=
  headers.getLast?.or current

theorem lastSection_cons {header : NcvConfigSection} :
    lastSection current (header :: headers) = lastSection (some header) headers := by
  rw [lastSection, lastSection, List.getLast?_cons]
  cases headers.getLast? <;> rfl

theorem Says.append_iff : Says current (lines ++ lines') headers entries ↔
    ∃ headers₁ entries₁ headers₂ entries₂, Says current lines headers₁ entries₁ ∧
      Says (lastSection current headers₁) lines' headers₂ entries₂ ∧
      headers = headers₁ ++ headers₂ ∧ entries = entries₁ ++ entries₂ := by
  induction lines generalizing current headers entries with
  | nil =>
      constructor
      · exact fun h => ⟨[], [], headers, entries, .nil _, h, rfl, rfl⟩
      · rintro ⟨_, _, headers₂, entries₂, hnil, h, rfl, rfl⟩
        cases hnil
        exact h
  | cons line lines ih =>
      constructor
      · intro h
        cases h with
        | skip hok hline h =>
            obtain ⟨headers₁, entries₁, headers₂, entries₂, h₁, h₂, rfl, rfl⟩ := ih.mp h
            exact ⟨_, _, _, _, .skip hok hline h₁, h₂, rfl, rfl⟩
        | header header hok hline h =>
            obtain ⟨headers₁, entries₁, headers₂, entries₂, h₁, h₂, rfl, rfl⟩ := ih.mp h
            exact ⟨_, _, _, _, .header header hok hline h₁, lastSection_cons ▸ h₂, rfl, rfl⟩
        | setting setting value hok hline h =>
            obtain ⟨headers₁, entries₁, headers₂, entries₂, h₁, h₂, rfl, rfl⟩ := ih.mp h
            exact ⟨_, _, _, _, .setting setting value hok hline h₁, h₂, rfl, rfl⟩
      · rintro ⟨_, _, headers₂, entries₂, h₁, h₂, rfl, rfl⟩
        cases h₁ with
        | skip hok hline h => exact .skip hok hline (ih.mpr ⟨_, _, _, _, h, h₂, rfl, rfl⟩)
        | header header hok hline h =>
            rw [lastSection_cons] at h₂
            exact .header header hok hline (ih.mpr ⟨_, _, _, _, h, h₂, rfl, rfl⟩)
        | setting setting value hok hline h =>
            exact .setting setting value hok hline (ih.mpr ⟨_, _, _, _, h, h₂, rfl, rfl⟩)

end CsmVgaSelector
