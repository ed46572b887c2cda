import CsmVgaSelector.Proof.Report

/-!
# Firmware strings and the report

Two runs over the same records, one with the strings that firmware wrote and one with those strings
empty. The report ends the same, whatever it was before and whatever the sinks answer, exactly when no
string breaks a line in front of a record name.
-/

namespace CsmVgaSelector

variable {A : LogAnswer → Prop} {report : BootReport} {text : Text}

/-- The strings of a Boot#### option and of the live row. `PathText` is the text of the option's
device path, which ends in the BBS description. -/
structure FirmwareStrings where
  description : List UInt16
  pathText : Option Text
  bbsDescription : List UInt8
  manufacturer : List UInt8
  liveDescription : List UInt8
  deriving DecidableEq

namespace FirmwareStrings

/-- The strings empty; the text of the device path is then another. -/
def emptied (pathText : Option Text) : FirmwareStrings where
  description := []
  pathText := pathText
  bbsDescription := []
  manufacturer := []
  liveDescription := []

/-- One of the strings breaks a line in front of a record name. -/
def StartsRecord (strings : FirmwareStrings) : Prop :=
  CsmVgaSelector.StartsRecord (unicodeText strings.description) ∨
    CsmVgaSelector.StartsRecord (strings.pathText.getD []) ∨
    CsmVgaSelector.StartsRecord (asciiText strings.manufacturer) ∨
    CsmVgaSelector.StartsRecord (asciiText strings.liveDescription)

instance (strings : FirmwareStrings) : Decidable strings.StartsRecord :=
  inferInstanceAs (Decidable (_ ∨ _))

def inCandidate (strings : FirmwareStrings) (candidate : BootCandidate) : BootCandidate :=
  { candidate with
    description := some strings.description
    bbsDescription := strings.bbsDescription }

def inContext (strings : FirmwareStrings) (context : BootTargetContext) : BootTargetContext :=
  { context with
    liveManufacturer := strings.manufacturer
    liveDescription := strings.liveDescription }

/-- The report after `LegacyBootLogBootCandidate` has logged an option with these strings. -/
def candidateReport (strings : FirmwareStrings) (candidate : BootCandidate)
    (answers : Nat → LogAnswer) (report : BootReport) : BootReport :=
  ((legacyBootLogBootCandidate strings.pathText (strings.inCandidate candidate)).run answers report).2

/-- The report after `LegacyBootMoveCandidateToContext` has logged a live row with these strings. -/
def selectionReport (strings : FirmwareStrings) (rom : RomEvidence) (candidate : BootCandidate)
    (context : BootTargetContext) (answers : Nat → LogAnswer) (report : BootReport) : BootReport :=
  ((legacyBootMoveCandidateToContextLogged rom (strings.inCandidate candidate)
    (strings.inContext context)).run answers report).2

/-- The report is the same with these strings as with those, whatever stands around them. -/
def SameReports (strings strings' : FirmwareStrings) : Prop :=
  (∀ candidate answers report,
    strings.candidateReport candidate answers report =
      strings'.candidateReport candidate answers report) ∧
  ∀ rom candidate context answers report,
    strings.selectionReport rom candidate context answers report =
      strings'.selectionReport rom candidate context answers report

end FirmwareStrings

variable {strings : FirmwareStrings} {candidate : BootCandidate}

/-! ### Strings that start nothing -/

theorem wp_legacyBootLogHexBytes_quiet {label : String} {bytes : List UInt8}
    (hlabel : newline ∉ ofString label) :
    (legacyBootLogHexBytes label bytes).Wp A (fun _ report' => report' = report) report := by
  unfold legacyBootLogHexBytes
  split
  case h_1 =>
    have hempty : newline ∉ ofString "      " ++ ofString label :=
      notMem_append (by decide) hlabel
    exact wp_logText_quiet (quiet_text hempty (by decide) rfl (by decide))
  case h_2 first rest hlines =>
    apply wp_logTexts_quiet
    intro line hline
    rw [← hlines] at hline
    obtain ⟨number, -, rfl⟩ := List.mem_map.mp hline
    exact quiet_hexLine hlabel

/-- Nothing is heard of an option whose strings start no record. -/
theorem wp_legacyBootLogBootCandidate_quiet (h : ¬ strings.StartsRecord) :
    (legacyBootLogBootCandidate strings.pathText (strings.inCandidate candidate)).Wp A
      (fun _ report' => report' = report) report := by
  simp only [FirmwareStrings.StartsRecord, not_or] at h
  have htexts : ∀ line ∈ candidateText (strings.inCandidate candidate) ::
      [pathLine strings.pathText, bbsPathText (strings.inCandidate candidate),
        optionalDataText (strings.inCandidate candidate)], Quiet line := by
    simp only [List.forall_mem_cons]
    exact ⟨quiet_candidateText rfl h.1, quiet_pathLine h.2.1, quiet_bbsPathText _,
      quiet_optionalDataText _, List.forall_mem_nil _⟩
  unfold legacyBootLogBootCandidate
  refine .ite (fun _ => .pure rfl) fun _ => (wp_logTexts_quiet htexts).bind ?_
  rintro status _ rfl
  exact .ite (fun _ => .pure rfl) fun _ => wp_legacyBootLogHexBytes_quiet (by decide)

theorem wp_logTextIf_quiet {condition : Bool} (h : Quiet text) :
    (logTextIf condition text).Wp A (fun _ report' => report' = report) report := by
  unfold logTextIf
  refine .ite (fun _ => (wp_logText_quiet h).bind ?_) fun _ => .pure rfl
  rintro status _ rfl
  exact .pure rfl

/-- Nothing is heard of a selected row whose strings start no record. -/
theorem wp_legacyBootMoveCandidateToContextLogged_quiet {rom : RomEvidence}
    {context : BootTargetContext} (h : ¬ strings.StartsRecord) :
    (legacyBootMoveCandidateToContextLogged rom (strings.inCandidate candidate)
      (strings.inContext context)).Wp A (fun _ report' => report' = report) report := by
  simp only [FirmwareStrings.StartsRecord, not_or] at h
  unfold legacyBootMoveCandidateToContextLogged
  refine .ite (fun _ => .pure rfl) fun _ => .ite (fun _ => ?cannotPair) fun _ => ?pairs
  case cannotPair =>
    refine (wp_logText_quiet (quiet_cannotPairText _ _)).bind ?_
    rintro status _ rfl
    exact .pure rfl
  case pairs =>
    refine (wp_logTextIf_quiet (quiet_statusDiffersText _)).bind ?_
    rintro _ _ rfl
    refine (wp_logTexts_quiet ?_).bind ?_
    · simp only [List.forall_mem_cons]
      exact ⟨quiet_selectedText h.2.2.1 h.2.2.2, quiet_ownedCopiesText _, List.forall_mem_nil _⟩
    · rintro status _ rfl
      exact .pure rfl

/-! ### A string that starts a record -/

/-- The report has seen nothing yet. -/
structure Waiting (report : BootReport) : Prop where
  active : report.active = true
  checkpoint : report.checkpoint = []
  failureCode : report.failureCode = []

/-- The report has seen a record. -/
def Heard (report : BootReport) : Prop := report.checkpoint ≠ []

theorem recordName_ne_nil {line name : Text} (h : recordName line = some name) : name ≠ [] := by
  unfold recordName at h
  dsimp only at h
  split at h
  case isTrue hname =>
    obtain rfl := Option.some.inj h
    intro hnil
    simp [hnil] at hname
  case isFalse => exact absurd h (by simp)

theorem Heard.observeName {name : Text} (h : Heard report) (hname : name ≠ []) :
    Heard (report.observeName name) := by
  unfold BootReport.observeName
  by_cases hcode : report.failureCode = []
  · rw [if_pos hcode]
    exact hname
  · rw [if_neg hcode]
    exact h

theorem Heard.observeLine {line : Text} (h : Heard report) : Heard (report.observeLine line) := by
  unfold BootReport.observeLine
  split
  case h_1 name hname => exact Heard.observeName h (recordName_ne_nil hname)
  case h_2 => exact h

theorem Heard.observeFrom {atBeginning : Bool} (h : Heard report) :
    Heard (BootReport.observeFrom atBeginning text report) := by
  induction text generalizing atBeginning report with
  | nil => exact h
  | cons character rest ih =>
      apply ih
      split
      case isTrue => exact h.observeLine
      case isFalse => exact h

theorem Heard.observe (h : Heard report) : Heard (bootReportObserve text report) := by
  unfold bootReportObserve
  split
  · exact h.observeFrom
  · exact h

/-- A line is either not heard or leaves a checkpoint. -/
theorem Waiting.observeLine (h : Waiting report) (line : Text) :
    if (recordName line).isSome then Heard (report.observeLine line)
    else Waiting (report.observeLine line) := by
  cases hname : recordName line with
  | none =>
      rw [observeLine_of_none hname]
      exact h
  | some name =>
      have hne := recordName_ne_nil hname
      simpa [BootReport.observeLine, hname, BootReport.observeName, h.failureCode, Heard] using hne

theorem Waiting.observeFrom {atBeginning : Bool} (h : Waiting report) :
    Waiting (BootReport.observeFrom atBeginning text report) ∨
      Heard (BootReport.observeFrom atBeginning text report) := by
  induction text generalizing atBeginning report with
  | nil => exact .inl h
  | cons character rest ih =>
      rw [BootReport.observeFrom]
      cases atBeginning with
      | false => exact ih h
      | true =>
          have hline := h.observeLine (character :: rest)
          split at hline
          case isTrue => exact .inr hline.observeFrom
          case isFalse => exact ih hline

/-- A record that a text starts is heard, wherever it stands. -/
theorem Waiting.heard_observeFrom {atBeginning : Bool} (h : Waiting report)
    (hstarts : StartsRecord text ∨ atBeginning = true ∧ (recordName text).isSome = true) :
    Heard (BootReport.observeFrom atBeginning text report) := by
  induction text generalizing atBeginning report with
  | nil =>
      rcases hstarts with hstarts | ⟨-, hname⟩
      · exact absurd hstarts not_startsRecord_nil
      · exact absurd hname (by decide)
  | cons character rest ih =>
      have hline := h.observeLine (character :: rest)
      have hrest : StartsRecord (character :: rest) →
          StartsRecord rest ∨ (character == newline) = true ∧ (recordName rest).isSome = true := by
        rw [startsRecord_cons, beq_iff_eq]
        exact Or.symm
      rw [BootReport.observeFrom]
      cases atBeginning with
      | false =>
          have hstarts := hstarts.resolve_right fun hbeginning => absurd hbeginning.1 (by decide)
          exact ih h (hrest hstarts)
      | true =>
          split at hline
          case isTrue => exact hline.observeFrom
          case isFalse hnone =>
            have hstarts := hstarts.resolve_right fun hbeginning => hnone hbeginning.2
            exact ih hline (hrest hstarts)

theorem Waiting.observe (h : Waiting report) :
    Waiting (bootReportObserve text report) ∨ Heard (bootReportObserve text report) := by
  rw [bootReportObserve, if_pos h.active]
  exact h.observeFrom

theorem Waiting.heard_observe (h : Waiting report) (hstarts : StartsRecord text) :
    Heard (bootReportObserve text report) := by
  rw [bootReportObserve, if_pos h.active]
  exact h.heard_observeFrom (.inl hstarts)

/-- Every text is formatted, and no sink fails. -/
def Logged (answer : LogAnswer) : Prop := answer = { formatted := true, status := .success }

theorem wp_logText_logged {Q : EfiStatus → BootReport → Prop}
    (h : Q .success (bootReportObserve text report)) : (logText text).Wp Logged Q report := by
  unfold logText
  simp only [Prog.wp_bind, Prog.wp_call]
  rintro answer rfl
  exact h

theorem wp_logTexts_heard {rest : List Text} (h : Heard report) :
    (logTexts text rest).Wp Logged (fun _ => Heard) report := by
  induction rest generalizing text report with
  | nil => exact wp_logText_logged h.observe
  | cons next rest ih =>
      apply Prog.wp_bind.mpr
      apply wp_logText_logged
      exact .ite (fun _ => .pure h.observe) fun _ => ih h.observe

/-- One of the texts starts a record, and all of them are logged. -/
theorem wp_logTexts_starts {rest : List Text} (h : Waiting report)
    (hstarts : ∃ line ∈ text :: rest, StartsRecord line) :
    (logTexts text rest).Wp Logged (fun _ => Heard) report := by
  induction rest generalizing text report with
  | nil =>
      obtain ⟨line, hline, hstarts⟩ := hstarts
      obtain rfl := List.mem_singleton.mp hline
      exact wp_logText_logged (h.heard_observe hstarts)
  | cons next rest ih =>
      apply Prog.wp_bind.mpr
      apply wp_logText_logged
      refine .ite (fun herror => absurd herror (by decide)) fun _ => ?_
      have hobserve : Waiting (bootReportObserve text report) ∨ Heard (bootReportObserve text report) :=
        h.observe
      rcases hobserve with hwaiting | hheard
      · obtain ⟨line, hline, hstarts⟩ := hstarts
        rcases List.mem_cons.mp hline with rfl | hline
        · exact wp_logTexts_heard (h.heard_observe hstarts)
        · exact ih hwaiting ⟨line, hline, hstarts⟩
      · exact wp_logTexts_heard hheard

theorem wp_legacyBootLogHexBytes_heard {label : String} {bytes : List UInt8} (h : Heard report) :
    (legacyBootLogHexBytes label bytes).Wp Logged (fun _ => Heard) report := by
  unfold legacyBootLogHexBytes
  split
  case h_1 => exact wp_logText_logged h.observe
  case h_2 => exact wp_logTexts_heard h

theorem wp_legacyBootLogBootCandidate_starts (h : Waiting report)
    (hlegacy : candidate.isLegacy = true)
    (hstarts : StartsRecord (unicodeText strings.description) ∨
      StartsRecord (strings.pathText.getD [])) :
    (legacyBootLogBootCandidate strings.pathText (strings.inCandidate candidate)).Wp Logged
      (fun _ => Heard) report := by
  have htexts : ∃ line ∈ candidateText (strings.inCandidate candidate) ::
      [pathLine strings.pathText, bbsPathText (strings.inCandidate candidate),
        optionalDataText (strings.inCandidate candidate)], StartsRecord line := by
    rcases hstarts with hdescription | hpath
    · exact ⟨_, List.mem_cons_self .., (startsRecord_candidateText rfl).mpr hdescription⟩
    · refine ⟨pathLine strings.pathText, by simp, ?_⟩
      cases hpathText : strings.pathText with
      | none =>
          rw [hpathText] at hpath
          exact absurd hpath not_startsRecord_nil
      | some pathText =>
          rw [hpathText] at hpath
          exact startsRecord_pathLine.mpr hpath
  unfold legacyBootLogBootCandidate
  refine .ite (fun hnot => ?_) fun _ => (wp_logTexts_starts h htexts).bind ?_
  · simp [FirmwareStrings.inCandidate, hlegacy] at hnot
  · intro status report' hheard
    exact .ite (fun _ => .pure hheard) fun _ => wp_legacyBootLogHexBytes_heard hheard

theorem wp_logTextIf_of_waiting {condition : Bool} (h : Waiting report) :
    (logTextIf condition text).Wp Logged (fun _ report' => Waiting report' ∨ Heard report')
      report := by
  unfold logTextIf
  refine .ite (fun _ => ?_) fun _ => .pure (.inl h)
  apply Prog.wp_bind.mpr
  apply wp_logText_logged
  exact .pure h.observe

theorem wp_legacyBootMoveCandidateToContextLogged_starts {rom : RomEvidence}
    {context : BootTargetContext} (h : Waiting report) (hlegacy : candidate.isLegacy = true)
    (hactive : candidate.isActive = true)
    (hpairs : pairsWithLiveDisk rom (strings.inCandidate candidate) context.liveBbsEntry = true)
    (hstarts : StartsRecord (asciiText strings.manufacturer) ∨
      StartsRecord (asciiText strings.liveDescription)) :
    (legacyBootMoveCandidateToContextLogged rom (strings.inCandidate candidate)
      (strings.inContext context)).Wp Logged (fun _ => Heard) report := by
  unfold legacyBootMoveCandidateToContextLogged
  refine .ite (fun hnot => ?_) fun _ => .ite (fun hnot => ?_) fun _ => ?_
  · simp [FirmwareStrings.inCandidate, hlegacy, hactive] at hnot
  · simp [FirmwareStrings.inContext, hpairs] at hnot
  · refine (wp_logTextIf_of_waiting h).bind ?_
    rintro _ report' (hwaiting | hheard)
    · refine (wp_logTexts_starts hwaiting ?_).bind fun _ _ hheard => .pure hheard
      exact ⟨_, List.mem_cons_self .., startsRecord_selectedText.mpr hstarts⟩
    · exact (wp_logTexts_heard hheard).bind fun _ _ hheard => .pure hheard

/-! ### The exact condition -/

/-- A report that waits for its first record. -/
def freshReport : BootReport where
  active := true
  stage := []
  checkpoint := []
  failureCode := []
  diskBbsWarning := false
  diskOrderWarning := false

theorem freshReport_waiting : Waiting freshReport := ⟨rfl, rfl, rfl⟩

/-- A generic hard-drive option and a disk that pair. -/
def pairingCandidate : BootCandidate where
  isLegacy := true
  isActive := true
  number := 0
  attributes := 1
  description := none
  devicePath := none
  devicePathCrc32 := 0
  bbsDeviceType := bbsTypeHarddrive
  bbsStatusFlag := 0
  bbsDescription := []
  optionalData := none
  optionalDataCrc32 := 0

def pairingContext : BootTargetContext :=
  { liveBbsEntry := { (default : BbsTable) with deviceType := bbsHardDisk, statusFlags := 0x500 } }

def allLogged : Nat → LogAnswer := fun _ => { formatted := true, status := .success }

/-- Strings that start no record are heard as little as empty ones. -/
theorem sameReports_of_not_startsRecord {strings strings' : FirmwareStrings}
    (h : ¬ strings.StartsRecord) (h' : ¬ strings'.StartsRecord) : strings.SameReports strings' := by
  constructor
  · intro candidate answers report
    calc strings.candidateReport candidate answers report
      _ = report := (wp_legacyBootLogBootCandidate_quiet h).runAny answers
      _ = strings'.candidateReport candidate answers report :=
          ((wp_legacyBootLogBootCandidate_quiet h').runAny answers).symm
  · intro rom candidate context answers report
    calc strings.selectionReport rom candidate context answers report
      _ = report := (wp_legacyBootMoveCandidateToContextLogged_quiet h).runAny answers
      _ = strings'.selectionReport rom candidate context answers report :=
          ((wp_legacyBootMoveCandidateToContextLogged_quiet h').runAny answers).symm

/-- Strings that start a record are heard by a report that waits. -/
theorem not_sameReports_of_startsRecord {strings strings' : FirmwareStrings}
    (h : strings.StartsRecord) (h' : ¬ strings'.StartsRecord) : ¬ strings.SameReports strings' := by
  intro hsame
  rw [FirmwareStrings.StartsRecord, ← or_assoc] at h
  rcases h with hcandidate | hlive
  · have hheard : Heard (strings.candidateReport pairingCandidate allLogged freshReport) :=
      (wp_legacyBootLogBootCandidate_starts freshReport_waiting rfl hcandidate).run fun _ => rfl
    have hsilent : strings'.candidateReport pairingCandidate allLogged freshReport = freshReport :=
      (wp_legacyBootLogBootCandidate_quiet h').runAny _
    rw [hsame.1, hsilent] at hheard
    exact hheard rfl
  · have hheard : Heard
        (strings.selectionReport .reset pairingCandidate pairingContext allLogged freshReport) :=
      (wp_legacyBootMoveCandidateToContextLogged_starts freshReport_waiting rfl rfl rfl hlive).run
        fun _ => rfl
    have hsilent :
        strings'.selectionReport .reset pairingCandidate pairingContext allLogged freshReport =
          freshReport :=
      (wp_legacyBootMoveCandidateToContextLogged_quiet h').runAny _
    rw [hsame.2, hsilent] at hheard
    exact hheard rfl

/-- **Firmware strings leave the report alone exactly when none of them breaks a line in front of a
record name.** `EmptyPath` is the text of the device path once its strings are empty. -/
theorem sameReports_iff (strings : FirmwareStrings) (emptyPath : Option Text)
    (hpath : ¬ StartsRecord (emptyPath.getD [])) :
    strings.SameReports (.emptied emptyPath) ↔ ¬ strings.StartsRecord := by
  have hempty : ¬ (FirmwareStrings.emptied emptyPath).StartsRecord := by
    rintro (hstarts | hstarts | hstarts | hstarts)
    · exact not_startsRecord_nil hstarts
    · exact hpath hstarts
    · exact not_startsRecord_nil hstarts
    · exact not_startsRecord_nil hstarts
  constructor
  · intro hsame hstarts
    exact not_sameReports_of_startsRecord hstarts hempty hsame
  · intro hquiet
    exact sameReports_of_not_startsRecord hquiet hempty

/-- A description with a line break in front of a record name. -/
def forgedStrings : FirmwareStrings where
  description := ofString "A\nNCV_BOOT_FAIL_X"
  pathText := some (ofString "BBS(HD,,0x0)")
  bbsDescription := []
  manufacturer := []
  liveDescription := []

/-- The strings of a disk that says no such thing, although it names the program's records. -/
def honestStrings : FirmwareStrings where
  description := ofString "Hard Drive NCV_BOOT_FAIL_X"
  pathText := some (ofString "BBS(HD,P0: Disk,0x0)")
  bbsDescription := [0x50, 0x30]
  manufacturer := []
  liveDescription := [0x0A, 0x50, 0x30]

theorem sameReports_iff_sample :
    ¬ StartsRecord ((some (ofString "BBS(HD,,0x0)")).getD []) ∧
      honestStrings.SameReports (.emptied (some (ofString "BBS(HD,,0x0)"))) ∧
      ¬ forgedStrings.SameReports (.emptied (some (ofString "BBS(HD,,0x0)"))) := by
  have hpath : ¬ StartsRecord ((some (ofString "BBS(HD,,0x0)")).getD []) := by decide
  refine ⟨hpath, (sameReports_iff honestStrings _ hpath).mpr (by decide), fun hsame => ?_⟩
  exact (sameReports_iff forgedStrings _ hpath).mp hsame (by decide)

/-- A forged failure code. -/
theorem forgedStrings_failureCode :
    (forgedStrings.candidateReport pairingCandidate allLogged freshReport).failureCode =
        ofString "NCV_BOOT_FAIL_X" ∧
      ((FirmwareStrings.emptied (some (ofString "BBS(HD,,0x0)"))).candidateReport pairingCandidate
        allLogged freshReport).failureCode = [] := by
  decide +kernel

end CsmVgaSelector
