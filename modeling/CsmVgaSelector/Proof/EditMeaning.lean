import CsmVgaSelector.Proof.EditRun

/-!
# What an edit means

The output of the editor is accepted, and says what the source says but for the three targets, exactly
when no carriage return leads the editor astray (`editMeaning_iff`).
-/

namespace CsmVgaSelector

variable {reading reading' written : Reading} {line : Bytes} {targets : EditTargets}
  {state state' ended : EditState} {output : Bytes}

/-! ### The editor follows -/

/-- The output reads as the source does, with the targets that have been written. -/
structure Matches (targets : EditTargets) (reading : Reading) (state : EditState)
    (written : Reading) : Prop where
  current : written.current = reading.current
  sectionSeen : written.sectionSeen = reading.sectionSeen
  other : ∀ setting, (∀ key : TargetKey, key.setting ≠ setting) →
    written.values setting = reading.values setting
  target : ∀ key : TargetKey, written.values key.setting =
    if key ∈ state.seen then some (targets.value key) else none

/-- The editor has lost nothing, and will put the description where it belongs. -/
structure Follows (targets : EditTargets) (reading : Reading) (state : EditState)
    (written : Reading) : Prop extends Matches targets reading state written where
  sync : Sync reading state
  described : reading.values .targetBbsDescription ≠ none → .targetBbsDescription ∈ state.seen
  given : .targetBbsDescription ∈ state.seen → reading.values .targetBbsDescription ≠ none ∨
    .boot ∈ reading.sectionSeen ∧ reading.current ≠ some .boot
  here : state.editSection = .boot → .targetBbsDescription ∉ state.seen →
    reading.current = some .boot

theorem follows_start : Follows targets .start editStart .start := by
  have hnone : ∀ key : TargetKey, key ∉ editStart.seen := fun _ => List.not_mem_nil
  constructor
  case toMatches => exact ⟨rfl, rfl, fun _ _ => rfl, fun key => (if_neg (hnone key)).symm⟩
  case sync =>
    constructor
    · simp [editStart, Reading.start]
    · simp [editStart, Reading.start]
    · exact fun hcurrent => by cases hcurrent
    · exact fun hsection => by cases hsection
  case described => exact fun hvalue => absurd rfl hvalue
  case given => exact fun hseen => absurd hseen (hnone _)
  case here => exact fun hsection => by cases hsection

/-- A line that is copied, and sets no target, says to the parser what it has said. -/
theorem Matches.skip (h : Matches targets reading state written) :
    Matches targets reading (state.copy line) written :=
  ⟨h.current, h.sectionSeen, h.other, h.target⟩

theorem Matches.enter (h : Matches targets reading state written) (header : NcvConfigSection) :
    Matches targets (reading.enter header) state (written.enter header) :=
  ⟨rfl, congrArg (header :: ·) h.sectionSeen, h.other, h.target⟩

theorem Matches.give (h : Matches targets reading state written) {setting : Setting} {value : Bytes}
    (hother : ∀ key : TargetKey, key.setting ≠ setting) :
    Matches targets (reading.give setting value) state (written.give setting value) := by
  refine ⟨h.current, h.sectionSeen, fun setting' hsetting' => ?_, fun key => ?_⟩
  · by_cases hsame : setting' = setting
    · subst hsame
      simp [Reading.give]
    · simpa [Reading.give, hsame] using h.other setting' hsetting'
  · simpa [Reading.give, hother key] using h.target key

theorem Matches.write (h : Matches targets reading state written) {key : TargetKey}
    {seen : List TargetKey} (hseen : seen = key :: state.seen) (hstate : state'.seen = seen)
    (hother : ∀ setting, (∀ key : TargetKey, key.setting ≠ setting) →
      reading'.values setting = reading.values setting)
    (hcurrent : reading'.current = reading.current)
    (hsectionSeen : reading'.sectionSeen = reading.sectionSeen) :
    Matches targets reading' state' (written.give key.setting (targets.value key)) := by
  refine ⟨h.current.trans hcurrent.symm, h.sectionSeen.trans hsectionSeen.symm,
    fun setting hsetting => ?_, fun key' => ?_⟩
  · have hne : setting ≠ key.setting := fun heq => hsetting key heq.symm
    rw [hother setting hsetting, ← h.other setting hsetting]
    simp [Reading.give, hne]
  · rw [hstate, hseen]
    by_cases hsame : key' = key
    · subst hsame
      simp [Reading.give]
    · have hne : key'.setting ≠ key.setting := fun heq => hsame (TargetKey.setting_injective heq)
      simpa [Reading.give, hne, hsame] using h.target key'

/-- The parser reads a target's line where the target can be given. -/
theorem reads_target (h : targets.Valid) (hclosed : Closed output) (hreads : Reads output written)
    {key : TargetKey} (hcurrent : written.current = some key.setting.configSection)
    (hnew : written.values key.setting = none) :
    Reads (output ++ (targets.targetLine key ++ [carriageReturn, lineFeed]))
      (written.give key.setting (targets.value key)) :=
  (reads_line_iff hclosed (targets.isLine h key)).mpr
    ⟨written, hreads, targets.lineOk h key, .setting _ _ (targets.gives h key) hcurrent hnew⟩

/-- At the end of a section the editor puts the description in its section. -/
theorem Follows.endSection (h : Follows targets reading state written) (hvalid : targets.Valid)
    (hreads : Reads state.output written) (hended : Ended targets state ended) :
    ∃ written', Reads ended.output written' ∧ Matches targets reading ended written' := by
  cases hended with
  | keep => exact ⟨written, hreads, h.toMatches⟩
  | append hsection hmissing =>
      have hcurrent : written.current = some .boot := h.current.trans (h.here hsection hmissing)
      have hnew : written.values .targetBbsDescription = none :=
        (h.target .targetBbsDescription).trans (if_neg hmissing)
      have hwritten : Reads (state.append targets).output
          (written.give .targetBbsDescription (targets.value .targetBbsDescription)) :=
        @reads_target _ _ _ hvalid closed_missingEnd (reads_missingEnd.mpr hreads)
          .targetBbsDescription hcurrent hnew
      exact ⟨_, hwritten,
        @Matches.write _ _ _ _ _ _ h.toMatches .targetBbsDescription _ rfl rfl (fun _ _ => rfl) rfl rfl⟩

/-! ### The editor is led astray -/

/-- There is no place left for a description. -/
def NoRoom (reading : Reading) : Prop :=
  reading.values .targetBbsDescription ≠ none ∨
    .boot ∈ reading.sectionSeen ∧ reading.current ≠ some .boot

theorem NoRoom.step {text : Bytes} (h : NoRoom reading) (hreads : ReadsLine reading text reading') :
    NoRoom reading' := by
  cases hreads with
  | skip => exact h
  | header header _ hnew =>
      refine h.imp id fun ⟨hboot, _⟩ => ⟨List.mem_cons_of_mem _ hboot, ?_⟩
      rintro ⟨⟩
      exact hnew hboot
  | setting setting value => exact h.imp (fun hvalue => give_ne_none.mpr (.inr hvalue)) id

theorem NoRoom.no_target (h : NoRoom reading)
    (hcurrent : reading.current = some .boot) (hnew : reading.values .targetBbsDescription = none) :
    False :=
  h.elim (fun hvalue => hvalue hnew) fun ⟨_, hne⟩ => hne hcurrent

theorem NoRoom.no_line (h : NoRoom reading) (hvalid : targets.Valid) :
    ¬ ReadsLine reading
      (seenText (targets.targetLine .targetBbsDescription ++ [carriageReturn, lineFeed]))
      reading' := by
  have hgives := targets.gives hvalid .targetBbsDescription
  intro hreads
  cases hreads with
  | skip hskip => simp [hgives.active] at hskip
  | header header hseen => exact hgives.noHeader (hseen ▸ head_sectionHeader header)
  | setting setting value hgives' hcurrent hnew =>
      obtain ⟨rfl, rfl⟩ := hgives.unique hgives'
      exact h.no_target hcurrent hnew

/-- The parser refuses the output, or will when the description has been put into it. -/
def Spoiled (reading : Reading) (state : EditState) : Prop :=
  (∀ written, ¬ Reads state.output written) ∨
    .targetBbsDescription ∉ state.seen ∧ state.editSection = .boot ∧ NoRoom reading ∧
      ∀ written, Reads state.output written → NoRoom written

theorem dead_append {more : Bytes} (h : ∀ written, ¬ Reads output written)
    (hclosed : Closed output) : ∀ written, ¬ Reads (output ++ more) written := by
  intro written hreads
  obtain ⟨before, hbefore, _⟩ := (reads_append_iff hclosed).mp hreads
  exact h before hbefore

/-- At the end of the section nothing can be saved. -/
theorem Spoiled.endSection (h : Spoiled reading state) (hvalid : targets.Valid)
    (hended : Ended targets state ended) : ∀ written, ¬ Reads ended.output written := by
  cases hended with
  | keep hkeep =>
      rcases h with hdead | ⟨hmissing, hsection, _⟩
      · exact hdead
      · exact absurd (hkeep hsection) hmissing
  | append =>
      intro after hafter
      obtain ⟨before, hbefore, hline⟩ := (reads_append_iff closed_missingEnd).mp hafter
      rw [reads_missingEnd] at hbefore
      rcases h with hdead | ⟨_, _, _, hroom⟩
      · exact hdead before hbefore
      · have hisLine := targets.isLine hvalid .targetBbsDescription
        replace hline : ReadsLines before (linesOf (targets.targetLine .targetBbsDescription ++
          [carriageReturn, lineFeed])) after := hline
        rw [hisLine] at hline
        exact (hroom before hbefore).no_line hvalid (ReadsLines.singleton_iff.mp hline).2

theorem Ended.closed (h : Ended targets state ended) (hclosed : Closed state.output) :
    Closed ended.output := by
  cases h with
  | append =>
      simpa [EditState.append] using
        Closed.ended (state.output ++ missingEnd state.output ++ diskLine targets.encodedDisk)
  | keep => exact hclosed

theorem JointStep.reads (h : JointStep targets reading state line reading' state') :
    ReadsLine reading (seenText line) reading' := by
  cases h with
  | skip hskip => exact .skip hskip
  | hidden header hseen hnew => exact .header header hseen hnew
  | header header hseen hnew => exact .header header hseen hnew
  | replace key value hgives hcurrent hnew => exact .setting _ value hgives hcurrent hnew
  | copy setting value hgives hcurrent hnew => exact .setting setting value hgives hcurrent hnew

theorem Spoiled.copy (h : Spoiled reading state) (hclosed : Closed state.output)
    (hline : IsLine line) (hreads : ReadsLine reading (seenText line) reading') :
    Spoiled reading' (state.copy line) := by
  rcases h with hdead | ⟨hmissing, hsection, hnone, hroom⟩
  · exact .inl (dead_append hdead hclosed)
  · refine .inr ⟨hmissing, hsection, hnone.step hreads, fun after hafter => ?_⟩
    obtain ⟨before, hbefore, _, hstep⟩ := (reads_line_iff hclosed hline).mp hafter
    exact (hroom before hbefore).step hstep

/-- What is spoiled stays spoiled. -/
theorem JointStep.spoiled (hstep : JointStep targets reading state line reading' state')
    (h : Spoiled reading state) (hvalid : targets.Valid) (hclosed : Closed state.output)
    (hline : IsLine line) : Spoiled reading' state' := by
  have hreads := hstep.reads
  cases hstep with
  | skip => exact h.copy hclosed hline hreads
  | hidden => exact h.copy hclosed hline hreads
  | header _ _ _ _ editSection _ ended hended =>
      have hdead := h.endSection hvalid hended
      exact .inl (dead_append hdead (hended.closed hclosed))
  | replace key value _ hcurrent hnew =>
      rcases h with hdead | ⟨hmissing, hsection, hnone, hroom⟩
      · exact .inl (dead_append hdead hclosed)
      · have hkey : key ≠ .targetBbsDescription := by
          rintro rfl
          exact hnone.no_target hcurrent hnew
        refine .inr ⟨?_, hsection, hnone.step hreads, fun after hafter => ?_⟩
        · intro hcontra
          rcases List.mem_cons.mp hcontra with hsame | hcontra
          · exact hkey hsame.symm
          · exact hmissing hcontra
        · obtain ⟨before, hbefore, _, hwritten⟩ :=
            (reads_line_iff hclosed (targets.isLine hvalid key)).mp hafter
          exact (hroom before hbefore).step hwritten
  | copy => exact h.copy hclosed hline hreads

/-! ### One line -/

/-- The reading of the output after a line has been copied to it. -/
theorem reads_copy (hclosed : Closed state.output) (hline : IsLine line) (hok : LineOk line)
    (hreads : Reads state.output written) {written' : Reading}
    (hstep : ReadsLine written (seenText line) written') :
    Reads (state.copy line).output written' :=
  (reads_line_iff hclosed hline).mpr ⟨written, hreads, hok, hstep⟩

theorem strays_of_not_describes (hdescribes : describes line = false)
    (hhead : (seenText line).head? ≠ some (byte '[') ∨ hiddenStart line = false) :
    strays reading.inBoot reading.described line = false := by
  rw [strays, hdescribes]
  rcases hhead with hhead | hvisible
  · simp [hhead]
  · simp [hvisible]

theorem editSection_eq_boot {header : NcvConfigSection} (h : header.editSection = .boot) :
    header = .boot := by
  revert h
  cases header <;> decide

/-- The controller's address is unknown before `[Boot]`. -/
theorem Sync.no_controller (h : Sync reading state) (hreading : reading.WellFormed)
    (hnew : .boot ∉ reading.sectionSeen) : .targetControllerPci ∉ state.seen := by
  rw [h.controller, not_not]
  by_contra hvalue
  exact hnew (hreading.values _ hvalue)

/-- What one line leaves of an editor that follows. -/
def Outcome (targets : EditTargets) (reading : Reading) (state : EditState) (strayed : Bool) : Prop :=
  Failing reading state ∨
    if strayed then Spoiled reading state
    else ∃ written, Reads state.output written ∧ Follows targets reading state written

section Step

variable (h : Follows targets reading state written) (hreading : reading.WellFormed)
  (hreads : Reads state.output written) (hclosed : Closed state.output) (hline : IsLine line)
  (hok : LineOk line)

include h hreading hreads hclosed hline hok

omit hreading in
theorem Follows.skip (hskip : isActiveLine (seenText line) = false) :
    Outcome targets reading (state.copy line) (strays reading.inBoot reading.described line) := by
  have hdescribes : describes line = false := by rw [describes, hskip, Bool.false_and]
  rw [strays_of_not_describes hdescribes (.inl (not_header_of_inactive hskip))]
  refine .inr ⟨written, reads_copy hclosed hline hok hreads (.skip hskip), ?_⟩
  exact ⟨h.toMatches.skip, ⟨h.sync.gpu, h.sync.controller, h.sync.boot, h.sync.entered⟩,
    h.described, h.given, h.here⟩

theorem Follows.hidden {header : NcvConfigSection} (hseen : seenText line = sectionHeader header)
    (hnew : header ∉ reading.sectionSeen) (hhidden : hiddenStart line = true) :
    Outcome targets (reading.enter header) (state.copy line)
      (strays reading.inBoot reading.described line) := by
  have hstrays : strays reading.inBoot reading.described line =
      (reading.inBoot && !reading.described) := by
    rw [strays, describes_header hseen, hhidden, hseen, head_sectionHeader]
    simp
  have hwritten : ReadsLine written (seenText line) (written.enter header) :=
    .header header hseen (h.sectionSeen ▸ hnew)
  have hread := reads_copy hclosed hline hok hreads hwritten
  rw [hstrays]
  by_cases hboot : header = .boot
  · subst hboot
    refine .inl (.inr ⟨h.sync.no_controller hreading hnew, List.mem_cons_self .., .inr (.inr ?_)⟩)
    exact fun hsection => hnew (h.sync.entered hsection)
  refine .inr ?_
  split
  case isTrue hstrayed =>
    simp only [Reading.inBoot, Reading.described, Bool.and_eq_true, beq_iff_eq,
      Bool.not_eq_true', Option.isSome_eq_false_iff, Option.isNone_iff_eq_none] at hstrayed
    obtain ⟨hcurrent, hnone⟩ := hstrayed
    have hentered := hreading.current .boot hcurrent
    have hne : some header ≠ some NcvConfigSection.boot := by simpa using hboot
    refine .inr ⟨fun hseen => ?_, h.sync.boot hcurrent,
      .inr ⟨List.mem_cons_of_mem _ hentered, hne⟩, fun after hafter => ?_⟩
    · exact (h.given hseen).elim (fun hvalue => hvalue hnone) fun hboth => hboth.2 hcurrent
    · obtain rfl := hread.unique hafter
      exact .inr ⟨List.mem_cons_of_mem _ (h.sectionSeen ▸ hentered), hne⟩
  case isFalse hkept =>
    refine ⟨_, hread, h.toMatches.skip.enter header, ?_, h.described, ?_, ?_⟩
    · refine ⟨h.sync.gpu, h.sync.controller, ?_, ?_⟩
      · rintro ⟨⟩
        exact absurd rfl hboot
      · exact fun hsection => List.mem_cons_of_mem _ (h.sync.entered hsection)
    · refine fun hseen => (h.given hseen).imp id fun hboth => ?_
      exact ⟨List.mem_cons_of_mem _ hboth.1, by simpa [Reading.enter] using hboot⟩
    · intro hsection hmissing
      have hcurrent := h.here hsection hmissing
      have hnone : reading.values .targetBbsDescription = none := by
        by_contra hvalue
        exact hmissing (h.described hvalue)
      simp [Reading.inBoot, Reading.described, hcurrent, hnone] at hkept

theorem Follows.header (hvalid : targets.Valid) {header : NcvConfigSection}
    {editSection : EditSection} (hseen : seenText line = sectionHeader header)
    (hnew : header ∉ reading.sectionSeen) (hvisible : hiddenStart line = false)
    (hsection : editSection = header.editSection ∨ editSection = .other)
    (hended : Ended targets state ended) :
    Outcome targets (reading.enter header) ((ended.inSection editSection).copy line)
      (strays reading.inBoot reading.described line) := by
  rw [strays_of_not_describes (describes_header hseen) (.inr hvisible)]
  have hcontroller : .targetControllerPci ∈ ended.seen ↔ .targetControllerPci ∈ state.seen :=
    hended.seen (by decide)
  have hgpu : .targetPci ∈ ended.seen ↔ .targetPci ∈ state.seen := hended.seen (by decide)
  by_cases hlost : header = .boot ∧ editSection ≠ .boot
  · obtain ⟨rfl, hlost⟩ := hlost
    refine .inl (.inr ⟨?_, List.mem_cons_self .., .inr (.inr hlost)⟩)
    exact fun hcontra => h.sync.no_controller hreading hnew (hcontroller.mp hcontra)
  have hfound : header = .boot → editSection = .boot := by
    intro hboot
    by_contra hne
    exact hlost ⟨hboot, hne⟩
  have hheader : editSection = .boot → header = .boot := by
    intro hboot
    rcases hsection with hsame | hother
    · exact editSection_eq_boot (hsame ▸ hboot)
    · rw [hother] at hboot
      cases hboot
  obtain ⟨written', hread, hmatches⟩ := h.endSection hvalid hreads hended
  have hwritten : ReadsLine written' (seenText line) (written'.enter header) :=
    .header header hseen (hmatches.sectionSeen ▸ hnew)
  have hmatches' : Matches targets (reading.enter header)
      ((ended.inSection editSection).copy line) (written'.enter header) :=
    ⟨rfl, congrArg (header :: ·) hmatches.sectionSeen, hmatches.other, hmatches.target⟩
  refine .inr ⟨_, (reads_line_iff (hended.closed hclosed) hline).mpr
    ⟨written', hread, hok, hwritten⟩, hmatches', ?_, ?_, ?_, ?_⟩
  · refine ⟨hgpu.trans h.sync.gpu, hcontroller.trans h.sync.controller, ?_, ?_⟩
    · rintro ⟨⟩
      exact hfound rfl
    · intro hboot
      rw [hheader hboot]
      exact List.mem_cons_self ..
  · intro hvalue
    cases hended with
    | append => exact List.mem_cons_self ..
    | keep => exact h.described hvalue
  · intro hdescribed
    have hother : .boot ∈ reading.sectionSeen → some header ≠ some NcvConfigSection.boot := by
      rintro hentered ⟨⟩
      exact hnew hentered
    cases hended with
    | append hboot =>
        have hentered := h.sync.entered hboot
        exact .inr ⟨List.mem_cons_of_mem _ hentered, hother hentered⟩
    | keep =>
        refine (h.given hdescribed).imp id fun ⟨hentered, _⟩ => ?_
        exact ⟨List.mem_cons_of_mem _ hentered, hother hentered⟩
  · intro hboot _
    exact congrArg some (hheader hboot)

omit hreading hline hok in
theorem Follows.replace (hvalid : targets.Valid) {key : TargetKey} {value : Bytes}
    (hgives : GivesSetting (seenText line) key.setting value)
    (hcurrent : reading.current = some key.setting.configSection)
    (hnew : reading.values key.setting = none) (hvisible : carriageReturn ∉ keyPart line)
    (hsection : key.editSection = state.editSection) (hseen : key ∉ state.seen) :
    Outcome targets (reading.give key.setting value) (state.replace targets key)
      (strays reading.inBoot reading.described line) := by
  have hstrays : strays reading.inBoot reading.described line = false := by
    rw [strays]
    simp [hgives.noHeader, hvisible]
  have hread := reads_target hvalid hclosed hreads (h.current.trans hcurrent)
    ((h.target key).trans (if_neg hseen))
  have hother : ∀ setting, (∀ key : TargetKey, key.setting ≠ setting) →
      (reading.give key.setting value).values setting = reading.values setting := by
    intro setting hsetting
    have hne : setting ≠ key.setting := fun heq => hsetting key heq.symm
    simp [Reading.give, hne]
  have hgiven : ∀ key' : TargetKey, (key' ∈ state.seen ↔ reading.values key'.setting ≠ none) →
      (key' ∈ (state.replace targets key).seen ↔
        (reading.give key.setting value).values key'.setting ≠ none) := by
    intro key' hkey'
    have hcons : key' ∈ (state.replace targets key).seen ↔ key' = key ∨ key' ∈ state.seen :=
      List.mem_cons
    have hsetting : key'.setting = key.setting ↔ key' = key :=
      ⟨TargetKey.setting_injective, congrArg _⟩
    rw [give_ne_none, hcons, hkey', hsetting]
  rw [hstrays]
  refine .inr ⟨_, hread, h.toMatches.write rfl rfl hother rfl rfl, ?_, ?_, ?_, ?_⟩
  · exact ⟨hgiven .targetPci h.sync.gpu, hgiven .targetControllerPci h.sync.controller, h.sync.boot,
      h.sync.entered⟩
  · intro hvalue
    rcases give_ne_none.mp hvalue with hsame | hvalue
    · have hkey : TargetKey.targetBbsDescription = key :=
        @TargetKey.setting_injective .targetBbsDescription key hsame
      rw [← hkey]
      exact List.mem_cons_self ..
    · exact List.mem_cons_of_mem _ (h.described hvalue)
  · intro hdescribed
    rcases List.mem_cons.mp hdescribed with rfl | hdescribed
    · exact .inl (give_ne_none.mpr (.inl rfl))
    · exact (h.given hdescribed).imp (fun hvalue => give_ne_none.mpr (.inr hvalue)) id
  · exact fun hboot hmissing => h.here hboot fun hcontra =>
      hmissing (List.mem_cons_of_mem _ hcontra)

theorem Follows.copy {setting : Setting} {value : Bytes}
    (hgives : GivesSetting (seenText line) setting value)
    (hcurrent : reading.current = some setting.configSection)
    (hnew : reading.values setting = none)
    (hmissed : carriageReturn ∉ keyPart line →
      ∀ key : TargetKey, key.setting = setting → key.editSection ≠ state.editSection) :
    Outcome targets (reading.give setting value) (state.copy line)
      (strays reading.inBoot reading.described line) := by
  have hstrays : strays reading.inBoot reading.described line =
      (setting == .targetBbsDescription && (keyPart line).contains carriageReturn) := by
    rw [strays, describes_setting hgives]
    simp [hgives.noHeader]
  have hvalue : (reading.give setting value).values setting ≠ none := give_ne_none.mpr (.inl rfl)
  rw [hstrays]
  by_cases htarget : ∃ key : TargetKey, key.setting = setting
  · obtain ⟨key, rfl⟩ := htarget
    cases key with
    | targetPci =>
        refine .inl (.inl ⟨fun hseen => ?_, hvalue⟩)
        exact h.sync.gpu.mp hseen hnew
    | targetControllerPci =>
        refine .inl (.inr ⟨fun hseen => ?_, hreading.current _ hcurrent, .inl hvalue⟩)
        exact h.sync.controller.mp hseen hnew
    | targetBbsDescription =>
        have hboot := h.sync.boot hcurrent
        have hreturn : carriageReturn ∈ keyPart line := by
          by_contra hvisible
          exact hmissed hvisible .targetBbsDescription rfl hboot.symm
        have hmissing : .targetBbsDescription ∉ state.seen := fun hseen =>
          (h.given hseen).elim (fun hcontra => hcontra hnew) fun ⟨_, hcontra⟩ => hcontra hcurrent
        have hwritten : ReadsLine written (seenText line)
            (written.give TargetKey.targetBbsDescription.setting value) :=
          .setting _ value hgives (h.current.trans hcurrent)
            ((h.target .targetBbsDescription).trans (if_neg hmissing))
        have hread := reads_copy hclosed hline hok hreads hwritten
        refine .inr ?_
        rw [if_pos (by simpa using ⟨rfl, hreturn⟩)]
        refine .inr ⟨hmissing, hboot, .inl hvalue, fun after hafter => ?_⟩
        obtain rfl := hread.unique hafter
        exact .inl (give_ne_none.mpr (.inl rfl))
  · have hother : ∀ key : TargetKey, key.setting ≠ setting := fun key heq => htarget ⟨key, heq⟩
    have hdescription : setting ≠ .targetBbsDescription := fun heq =>
      hother .targetBbsDescription heq.symm
    have hnewWritten : written.values setting = none := (h.other setting hother).trans hnew
    have hread := reads_copy hclosed hline hok hreads
      (.setting setting value hgives (h.current.trans hcurrent) hnewWritten)
    have hkept : ∀ key : TargetKey, (reading.give setting value).values key.setting =
        reading.values key.setting := by
      intro key
      simp [Reading.give, hother key]
    have hgpu : (reading.give setting value).values .targetPci = reading.values .targetPci :=
      hkept .targetPci
    have hcontroller : (reading.give setting value).values .targetControllerPci =
        reading.values .targetControllerPci := hkept .targetControllerPci
    have hdisk : (reading.give setting value).values .targetBbsDescription =
        reading.values .targetBbsDescription := hkept .targetBbsDescription
    have hmatches : Matches targets (reading.give setting value) (state.copy line)
        (written.give setting value) := h.toMatches.skip.give hother
    refine .inr ?_
    rw [if_neg (by simp [hdescription])]
    refine ⟨_, hread, hmatches, ⟨?_, ?_, h.sync.boot, h.sync.entered⟩, ?_, ?_, h.here⟩
    · rw [hgpu]
      exact h.sync.gpu
    · rw [hcontroller]
      exact h.sync.controller
    · rw [hdisk]
      exact h.described
    · rw [hdisk]
      exact h.given

end Step

/-- **One line for an editor that follows.** -/
theorem Follows.step (h : Follows targets reading state written) (hreading : reading.WellFormed)
    (hvalid : targets.Valid) (hreads : Reads state.output written) (hclosed : Closed state.output)
    (hline : IsLine line) (hok : LineOk line)
    (hstep : JointStep targets reading state line reading' state') :
    Outcome targets reading' state' (strays reading.inBoot reading.described line) := by
  cases hstep with
  | skip hskip => exact h.skip hreads hclosed hline hok hskip
  | hidden header hseen hnew hhidden =>
      exact h.hidden hreading hreads hclosed hline hok hseen hnew hhidden
  | header header hseen hnew hvisible editSection hsection ended hended =>
      exact h.header hreading hreads hclosed hline hok hvalid hseen hnew hvisible hsection hended
  | replace key value hgives hcurrent hnew hvisible hsection hseen =>
      exact h.replace hreads hclosed hvalid hgives hcurrent hnew hvisible
        hsection hseen
  | copy setting value hgives hcurrent hnew hmissed =>
      exact h.copy hreading hreads hclosed hline hok hgives hcurrent hnew hmissed

/-! ### The whole text -/

theorem JointRun.failing {lines : List Bytes} (h : JointRun targets reading state lines reading' state')
    (hfailing : Failing reading state) : Failing reading' state' := by
  induction h with
  | nil => exact hfailing
  | cons _ _ _ hstep _ ih => exact ih (hstep.failing hfailing)

theorem JointRun.spoiled {lines : List Bytes} (h : JointRun targets reading state lines reading' state')
    (hvalid : targets.Valid) (hspoiled : Spoiled reading state) : Spoiled reading' state' := by
  induction h with
  | nil => exact hspoiled
  | cons hclosed hline _ hstep _ ih => exact ih (hstep.spoiled hspoiled hvalid hclosed hline)

/-- **A whole run of an editor that follows at first.** -/
theorem JointRun.follows {lines : List Bytes} (h : JointRun targets reading state lines reading' state')
    (hvalid : targets.Valid) (hreading : reading.WellFormed) (hreads : Reads state.output written)
    (hfollows : Follows targets reading state written) :
    Outcome targets reading' state' (!editorFollows reading.inBoot reading.described lines) := by
  induction h generalizing written with
  | nil => exact .inr ⟨written, hreads, hfollows⟩
  | cons hclosed hline hok hstep hrun ih =>
      rw [editorFollows_cons hstep.reads]
      rcases hfollows.step hreading hvalid hreads hclosed hline hok hstep with hfailing | houtcome
      · exact .inl (hrun.failing hfailing)
      · split at houtcome
        case isTrue hstrays =>
          rw [hstrays]
          exact .inr (hrun.spoiled hvalid houtcome)
        case isFalse hkept =>
          rw [Bool.not_eq_true] at hkept
          obtain ⟨written', hreads', hfollows'⟩ := houtcome
          rw [hkept]
          exact ih (hstep.reads.wellFormed hreading) hreads' hfollows'

/-! ### The configuration -/

/-- The configuration with the three targets. -/
def NcvConfigCore.setTargets (config : NcvConfigCore) (gpu controller : PciAddress) (disk : Bytes) :
    NcvConfigCore :=
  { config with
    hasTargetPci := true
    hasTargetControllerPci := true
    hasTargetBbsDescription := true
    targetPci := gpu
    targetControllerPci := controller
    targetBbsDescription := disk }

/-- The targets as the editor gets them. -/
def editTargets (gpu controller : PciAddress) (disk : Bytes) : EditTargets where
  gpu := bdfText gpu
  controller := bdfText controller
  encodedDisk := encodeDescription disk

section Meaning

variable {source disk : Bytes} {gpu controller : PciAddress} {capacity : Nat}
  {config : NcvConfigCore}

theorem editTargets_valid (hgpu : gpu.Valid) (hcontroller : controller.Valid)
    (hdisk : Representable disk) : (editTargets gpu controller disk).Valid where
  word key := by
    cases key
    · exact word_bdfText
    · exact word_bdfText
    · exact word_encodeDescription hdisk
  printable key := by
    cases key
    · exact fun character hcharacter => (bdfText_plain hcharacter).1
    · exact fun character hcharacter => (bdfText_plain hcharacter).1
    · exact printable_encodeDescription hdisk
  short key := by
    cases key
    · exact lt_of_eq_of_lt length_bdfText (by decide)
    · exact lt_of_eq_of_lt length_bdfText (by decide)
    · have hlength := length_encodeDescription disk
      have hshort := hdisk.short
      have hbytes : configTextBytes = 65 := rfl
      show (encodeDescription disk).length < 200
      omega
  accepts key := by
    cases key
    · exact Option.isSome_iff_exists.mpr ⟨gpu, parsePciAddress_bdfText hgpu⟩
    · exact Option.isSome_iff_exists.mpr ⟨controller, parsePciAddress_bdfText hcontroller⟩
    · exact Option.isSome_iff_exists.mpr ⟨disk, copyDiskDescription_encodeDescription hdisk⟩

/-- A reading with the targets is the configuration with the targets. -/
theorem Matches.configOf (h : Matches (editTargets gpu controller disk) reading state written)
    (hgpu : gpu.Valid) (hcontroller : controller.Valid) (hdisk : Representable disk)
    (hall : ∀ key : TargetKey, key ∈ state.seen) :
    configOf written.values = (configOf reading.values).setTargets gpu controller disk := by
  have hvalues : written.values =
      Function.update (Function.update (Function.update reading.values
        .targetPci (some (bdfText gpu))) .targetControllerPci (some (bdfText controller)))
        .targetBbsDescription (some (encodeDescription disk)) := by
    have hwritten : ∀ key : TargetKey, written.values key.setting =
        some ((editTargets gpu controller disk).value key) :=
      fun key => (h.target key).trans (if_pos (hall key))
    funext setting
    by_cases hsetting : ∃ key : TargetKey, key.setting = setting
    · obtain ⟨key, rfl⟩ := hsetting
      rw [hwritten key]
      cases key <;> rfl
    · have hother : ∀ key : TargetKey, setting ≠ key.setting := fun key heq =>
        hsetting ⟨key, heq.symm⟩
      have hnoDisk : setting ≠ .targetBbsDescription := hother .targetBbsDescription
      have hnoController : setting ≠ .targetControllerPci := hother .targetControllerPci
      have hnoGpu : setting ≠ .targetPci := hother .targetPci
      rw [Function.update_of_ne hnoDisk, Function.update_of_ne hnoController,
        Function.update_of_ne hnoGpu]
      exact h.other setting fun key heq => hother key heq.symm
  rw [hvalues]
  simp [CsmVgaSelector.configOf, markerOf, Values.read, Setting.marker, Function.update,
    NcvConfigCore.setTargets, parsePciAddress_bdfText hgpu, parsePciAddress_bdfText hcontroller,
    copyDiskDescription_encodeDescription hdisk]

/-- Targets that are distinct pass the last checks. -/
theorem finishConfig_setTargets (h : finishConfig config = .ok config) (hne : gpu ≠ controller) :
    finishConfig (config.setTargets gpu controller disk) =
      .ok (config.setTargets gpu controller disk) := by
  have hmarker : markerConfigIsValid config.marker = true := by
    by_contra hinvalid
    rw [finishConfig, if_pos (by simpa using hinvalid)] at h
    cases h
  have hmarker' : markerConfigIsValid (config.setTargets gpu controller disk).marker = true :=
    hmarker
  unfold finishConfig
  rw [if_neg (by simp [hmarker']), if_neg (by simp [NcvConfigCore.setTargets, hne])]

/-- What a successful edit has done. -/
theorem ncvEditTargets_eq_ok
    (h : ncvEditTargets source (bdfText gpu) (bdfText controller) disk capacity = .ok output) :
    Representable (cString disk) ∧
      ∃ state ended, (linesOf source).foldlM
          (editLine capacity (editTargets gpu controller (cString disk))) editStart = .ok state ∧
        Ended (editTargets gpu controller (cString disk)) state ended ∧
        (∀ key : TargetKey, key ∈ ended.seen) ∧ ended.output = output := by
  unfold ncvEditTargets at h
  split at h
  · cases h
  · split at h
    case h_1 => cases h
    case h_2 encodedDisk hencode =>
      have hdisk := representable_of_encode hencode
      rw [ncvEncodeDiskDescription_eq hdisk] at hencode
      obtain rfl := Except.ok.inj hencode
      obtain ⟨state, hlines, h⟩ := bind_eq_ok h
      obtain ⟨ended, hended, h⟩ := bind_eq_ok h
      split at h
      case isFalse => cases h
      case isTrue hall =>
        refine ⟨hdisk, state, ended, hlines, endSection_eq_ok hended, fun key => ?_,
          Except.ok.inj h⟩
        simpa using List.all_eq_true.mp hall key key.mem_all

/-- **The meaning of an edit.** The output says what the source says, with the new targets, exactly when
the editor has followed the source. -/
theorem editMeaning_iff
    (hparse : ncvParseConfigStrict source ncvConfigDefaults = .ok config)
    (hprobe : config.probe = false) (hgpuSet : config.hasTargetPci = true)
    (hcontrollerSet : config.hasTargetControllerPci = true) (hgpu : gpu.Valid)
    (hcontroller : controller.Valid) (hne : gpu ≠ controller)
    (hedit :
      ncvEditTargets source (bdfText gpu) (bdfText controller) disk capacity = .ok output) :
    ncvParseConfigStrict output ncvConfigDefaults =
        .ok
          { config with
            targetPci := gpu
            targetControllerPci := controller
            targetBbsDescription := cString disk
            hasTargetBbsDescription := true } ↔
      editorFollows false false (linesOf source) = true := by
  have htargets : config.setTargets gpu controller (cString disk) =
      { config with
        targetPci := gpu
        targetControllerPci := controller
        targetBbsDescription := cString disk
        hasTargetBbsDescription := true } := by
    simp only [NcvConfigCore.setTargets, hgpuSet, hcontrollerSet]
  obtain ⟨-, reading, hreads, hfinish⟩ := ncvParseConfigStrict_iff.mp hparse
  obtain ⟨hdisk, state, ended, hlines, hended, hall, rfl⟩ := ncvEditTargets_eq_ok hedit
  have hvalid := editTargets_valid hgpu hcontroller hdisk
  have hrun := jointRun hreads hlines (.inl rfl)
  have hstart : Reads editStart.output .start := .nil .start
  rw [← htargets]
  rcases hrun.follows hvalid Reading.wellFormed_start hstart follows_start with hfailing | houtcome
  · exfalso
    have hgpuSeen := (hended.seen (by decide)).mp (hall .targetPci)
    have hcontrollerSeen := (hended.seen (by decide)).mp (hall .targetControllerPci)
    rcases hfailing with ⟨hmissing, _⟩ | ⟨hmissing, _⟩
    · exact hmissing hgpuSeen
    · exact hmissing hcontrollerSeen
  · have hflags : editorFollows Reading.start.inBoot Reading.start.described (linesOf source) =
        editorFollows false false (linesOf source) := rfl
    rw [hflags] at houtcome
    constructor
    · intro hresult
      by_contra hstrays
      rw [if_pos (by simpa using hstrays)] at houtcome
      obtain ⟨-, written, hwritten, -⟩ := ncvParseConfigStrict_iff.mp hresult
      exact houtcome.endSection hvalid hended written hwritten
    · intro hfollows
      rw [if_neg (by simpa using hfollows)] at houtcome
      obtain ⟨written, hwritten, hfollowed⟩ := houtcome
      obtain ⟨written', hwritten', hmatches⟩ := hfollowed.endSection hvalid hwritten hended
      have hconfig := hmatches.configOf hgpu hcontroller hdisk hall
      obtain rfl := finishConfig_eq_ok hfinish
      refine ncvParseConfigStrict_iff.mpr ⟨?_, written', hwritten', ?_⟩
      · intro hempty
        rw [hempty] at hwritten'
        cases hwritten'
        have htarget := hmatches.target .targetPci
        rw [if_pos (hall .targetPci)] at htarget
        cases htarget
      · rw [hconfig]
        exact finishConfig_setTargets hfinish hne

end Meaning

/-! ### A saved configuration -/

/-- A configuration for a boot, with this key for the description. -/
def savedSource (descriptionKey : Bytes) : Bytes :=
  textOfLines
    [ascii "[Behavior]", ascii "Probe=false", ascii "[Video]", ascii "TargetPci=0000:03:00.0",
      ascii "[Boot]", ascii "TargetControllerPci=0000:05:00.0",
      keyLine descriptionKey (ascii "Original Disk")]

def savedConfig : NcvConfigCore :=
  { ncvConfigDefaults with
    hasProbe := true
    probe := false
    hasTargetPci := true
    targetPci := { segment := 0, bus := 3, device := 0, function := 0 }
    hasTargetControllerPci := true
    targetControllerPci := { segment := 0, bus := 5, device := 0, function := 0 }
    hasTargetBbsDescription := true
    targetBbsDescription := ascii "Original Disk" }

def savedGpu : PciAddress := { segment := 0, bus := 4, device := 0, function := 0 }

def savedController : PciAddress := { segment := 0, bus := 6, device := 0, function := 0 }

/-- The saved configuration after the edit. -/
def savedOutput : Bytes :=
  textOfLines
    [ascii "[Behavior]", ascii "Probe=false", ascii "[Video]", ascii "TargetPci=0000:04:00.0",
      ascii "[Boot]", ascii "TargetControllerPci=0000:06:00.0",
      ascii "TargetBbsDescription=Example disk B"]

theorem editMeaning_iff_saved :
    editorFollows false false (linesOf (savedSource (ascii "TargetBbsDescription"))) = true ∧
      ncvParseConfigStrict savedOutput ncvConfigDefaults =
        .ok
          { savedConfig with
            targetPci := savedGpu
            targetControllerPci := savedController
            targetBbsDescription := ascii "Example disk B"
            hasTargetBbsDescription := true } := by
  have hfollows :
      editorFollows false false (linesOf (savedSource (ascii "TargetBbsDescription"))) = true := by
    decide +kernel
  have hparse : ncvParseConfigStrict (savedSource (ascii "TargetBbsDescription"))
      ncvConfigDefaults = .ok savedConfig := by
    decide +kernel
  have hedit : ncvEditTargets (savedSource (ascii "TargetBbsDescription")) (bdfText savedGpu)
      (bdfText savedController) (ascii "Example disk B") 4096 = .ok savedOutput := by
    decide +kernel
  exact ⟨hfollows, (editMeaning_iff hparse rfl rfl rfl (by decide) (by decide) (by decide)
    hedit).mpr hfollows⟩

/-- The parser reads the key through the carriage return, the editor does not: the source is accepted,
the edit succeeds, and its output is refused. -/
theorem editMeaning_return :
    ncvParseConfigStrict (savedSource (ascii "Target\rBbsDescription")) ncvConfigDefaults =
        .ok savedConfig ∧
      ∃ output,
        ncvEditTargets (savedSource (ascii "Target\rBbsDescription")) (bdfText savedGpu)
            (bdfText savedController) (ascii "Example disk B") 4096 = .ok output ∧
          ncvParseConfigStrict output ncvConfigDefaults = .error .compromisedData := by
  have hedit : ncvEditTargets (savedSource (ascii "Target\rBbsDescription")) (bdfText savedGpu)
      (bdfText savedController) (ascii "Example disk B") 4096 =
        .ok
          (textOfLines
            [ascii "[Behavior]", ascii "Probe=false", ascii "[Video]",
              ascii "TargetPci=0000:04:00.0", ascii "[Boot]",
              ascii "TargetControllerPci=0000:06:00.0",
              ascii "Target\rBbsDescription=Original Disk",
              ascii "TargetBbsDescription=Example disk B"]) := by
    decide +kernel
  exact ⟨by decide +kernel, _, hedit, by decide +kernel⟩

end CsmVgaSelector
