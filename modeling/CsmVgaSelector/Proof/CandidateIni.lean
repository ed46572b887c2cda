import CsmVgaSelector.Proof.Values

/-!
# The generated configuration is read back

Every line of the generated configuration is a comment, or blank, or one of the program's own lines, or
one of the three targets, and the parser takes it as it is written. So the active lines of the whole are
known, whatever the candidates are called, and what the parser makes of them is computed.
-/

namespace CsmVgaSelector

variable {text line : Bytes} {bound : Nat}

/-! ### Bounds -/

/-- A printable text of at most so many characters. -/
structure Fits (bound : Nat) (text : Bytes) : Prop where
  printable : ∀ character ∈ text, isPrintable character = true
  length_le : text.length ≤ bound

theorem Fits.nil : Fits 0 [] := ⟨by simp, le_refl _⟩

theorem Fits.mono {bound' : Nat} (h : Fits bound text) (hbound : bound ≤ bound') :
    Fits bound' text :=
  ⟨h.printable, h.length_le.trans hbound⟩

theorem Fits.append {bound' : Nat} {after : Bytes} (h : Fits bound text) (h' : Fits bound' after) :
    Fits (bound + bound') (text ++ after) where
  printable character hcharacter :=
    (List.mem_append.mp hcharacter).elim (h.printable character) (h'.printable character)
  length_le := by
    rw [List.length_append]
    exact Nat.add_le_add h.length_le h'.length_le

theorem fits_ascii (string : String) (h : (ascii string).all isPrintable = true) :
    Fits (ascii string).length (ascii string) :=
  ⟨List.all_eq_true.mp h, le_refl _⟩

theorem Fits.ite {condition : Prop} [Decidable condition] {bound' : Nat} {text' : Bytes}
    (h : Fits bound text) (h' : Fits bound' text') :
    Fits (max bound bound') (if condition then text else text') := by
  split
  · exact h.mono (le_max_left ..)
  · exact h'.mono (le_max_right ..)

theorem Fits.plainLine (h : Fits bound line) (hbound : bound < configMaxLineBytes) :
    PlainLine line :=
  ⟨List.all_eq_true.mpr h.printable, h.length_le.trans_lt hbound⟩

theorem fits_putHex {number digits : Nat} : Fits digits (putHex number digits) :=
  ⟨fun _ hcharacter => (putHex_plain hcharacter).1, length_putHex.le⟩

theorem fits_bdfText {address : PciAddress} : Fits 12 (bdfText address) :=
  ⟨fun _ hcharacter => (bdfText_plain hcharacter).1, length_bdfText.le⟩

theorem fits_decimalDigits {fuel number : Nat} : Fits fuel (decimalDigits fuel number) := by
  induction fuel generalizing number with
  | zero => exact .nil
  | succ fuel ih =>
      rw [decimalDigits]
      split
      case isTrue => exact Fits.nil.mono (Nat.zero_le _)
      case isFalse =>
        have hdigit : number % 10 < 10 := Nat.mod_lt _ (by decide)
        constructor
        · rw [List.forall_mem_cons]
          refine ⟨?_, ih.printable⟩
          generalize number % 10 = digit at hdigit
          interval_cases digit <;> decide
        · exact Nat.succ_le_succ ih.length_le

theorem fits_putDec {number : Nat} : Fits 24 (putDec number) := by
  unfold putDec
  split
  case isTrue => exact ⟨by decide +kernel, by decide⟩
  case isFalse =>
    have hdigits := @fits_decimalDigits 24 number
    exact ⟨fun character hcharacter => hdigits.printable character (List.mem_reverse.mp hcharacter),
      by rw [List.length_reverse]; exact hdigits.length_le⟩

theorem fits_commentText (array : Bytes) (capacity : Nat) :
    Fits (capacity + 14) (commentText array capacity) := by
  refine Fits.append ⟨?_, ?_⟩ (.ite .nil (fits_ascii "<unterminated>" (by decide)))
  · intro character hcharacter
    obtain ⟨own, -, rfl⟩ := List.mem_map.mp hcharacter
    split
    · assumption
    · decide
  · rw [List.length_map]
    exact (List.takeWhile_prefix _).length_le.trans (List.length_take_le ..)

theorem fits_descriptionText {description : CandidateString} :
    Fits 143 (descriptionText description) := by
  unfold descriptionText
  split
  case h_1 encoded hencoded =>
    have hrepresentable := representable_of_encode hencoded
    rw [ncvEncodeDiskDescription_eq hrepresentable] at hencoded
    cases hencoded
    refine ⟨printable_encodeDescription hrepresentable, ?_⟩
    have hlength := length_encodeDescription (cString description.array)
    have hshort := hrepresentable.short
    simp only [configTextBytes] at hshort
    omega
  case h_2 => exact fits_commentText ..

/-! ### The lines fit -/

/-- The lines fit in these bounds, one by one. -/
abbrev LinesFit (bounds : List Nat) (lines : List Bytes) : Prop := List.Forall₂ Fits bounds lines

theorem LinesFit.length_le {bounds : List Nat} {lines : List Bytes} (h : LinesFit bounds lines) :
    (textOfLines lines).length ≤ (bounds.map (· + 2)).sum := by
  induction h with
  | nil => exact le_refl _
  | cons hline _ ih =>
      simp only [textOfLines, List.flatMap_cons, List.length_append, List.length_cons,
        List.length_nil, List.map_cons, List.sum_cons] at ih ⊢
      have hlength := hline.length_le
      omega

theorem LinesFit.plainLine {bounds : List Nat} {lines : List Bytes} (h : LinesFit bounds lines)
    (hbounds : ∀ bound ∈ bounds, bound < configMaxLineBytes) : ∀ line ∈ lines, PlainLine line := by
  induction h with
  | nil => simp
  | cons hline _ ih =>
      rw [List.forall_mem_cons] at hbounds ⊢
      exact ⟨hline.plainLine hbounds.1, ih hbounds.2⟩

theorem fits_settingLine (key : String) {selected : Bool} {value : Bytes}
    (hkey : (ascii key).all isPrintable = true) (hvalue : Fits bound value) :
    Fits (2 + (ascii key).length + bound) (settingLine selected key value) :=
  ((Fits.ite .nil (fits_ascii "# " (by decide))).append (fits_ascii key hkey)).append hvalue

theorem fits_yesNo {flag : Bool} : Fits 3 (yesNo flag) :=
  Fits.ite (fits_ascii "yes" (by decide)) (fits_ascii "no" (by decide))

theorem fits_candidateTitle (title : String) {index : Nat} {selected : Bool}
    (htitle : (ascii title).all isPrintable = true) :
    Fits ((ascii title).length + 24 + 11) (candidateTitle title index selected) :=
  ((fits_ascii title htitle).append fits_putDec).append
    (.ite (fits_ascii " - selected" (by decide)) .nil)

def displayBounds : List Nat := [55, 45, 50, 68, 25, 27, 31, 34, 160, 0]

theorem linesFit_displayLines {index : Nat} {display : NcvDisplayCandidate} {selected : Bool} :
    LinesFit displayBounds (displayLines index display selected) := by
  have hcolon : Fits 1 [byte ':'] := ⟨by decide +kernel, by decide⟩
  refine .cons (fits_candidateTitle "# Display candidate " (by decide)) <|
    .cons ?identity <| .cons ?gop <|
    .cons ?owner <|
    .cons ((fits_ascii "# Option ROM exposed: " (by decide)).append fits_yesNo) <|
    .cons ((fits_ascii "# Valid legacy x86 ROM: " (by decide)).append fits_yesNo) <|
    .cons ((fits_ascii "# Upstream path discovered: " (by decide)).append fits_yesNo) <|
    .cons ?validation <|
    .cons ?location <| .cons .nil .nil
  case identity =>
    have hline := (((((((fits_ascii "# PCI identity: " (by decide)).append (@fits_putHex
      display.vendor.toNat 4)).append hcolon).append (@fits_putHex display.deviceId.toNat 4)).append
      (fits_ascii " subsystem " (by decide))).append
      (@fits_putHex display.subsystemVendor.toNat 4)).append hcolon).append
      (@fits_putHex display.subsystemDevice.toNat 4)
    exact hline.mono (by decide)
  case gop =>
    exact ((fits_ascii "# GOP association: " (by decide)).append
      (.ite (fits_ascii "unknown (ranked conservatively)" (by decide)) fits_yesNo)).mono (by decide)
  case owner =>
    exact ((fits_ascii "# Active legacy VGA owner: " (by decide)).append
      (.ite (fits_ascii "unknown (ranked conservatively as active)" (by decide))
        fits_yesNo)).mono (by decide)
  case validation =>
    exact ((fits_ascii "# Upstream path validation: " (by decide)).append
      (.ite (fits_ascii "passed" (by decide)) (fits_ascii "failed" (by decide)))).mono (by decide)
  case location =>
    have hraw := ((((((((fits_ascii "# PCI location unavailable: segment=0x" (by decide)).append
      (@fits_putHex display.rawSegment.toNat 16)).append (fits_ascii " bus=0x" (by decide))).append
      (@fits_putHex display.rawBus.toNat 16)).append (fits_ascii " device=0x" (by decide))).append
      (@fits_putHex display.rawDevice.toNat 16)).append
      (fits_ascii " function=0x" (by decide))).append
      (@fits_putHex display.rawFunction.toNat 16)).append
      (fits_ascii "; no TargetPci emitted" (by decide))
    exact (Fits.ite (fits_settingLine "TargetPci=" (by decide) fits_bdfText) hraw).mono (by decide)

def storageBounds : List Nat := [55, 159, 152, 37, 26, 82, 166, 0]

theorem linesFit_storageLines {index : Nat} {item : NcvStorageCandidate} {selected : Bool} :
    LinesFit storageBounds (storageLines index item selected) := by
  refine .cons (fits_candidateTitle "# Storage candidate " (by decide)) <|
    .cons ((fits_ascii "# Manufacturer: " (by decide)).append (fits_commentText _ candidateStringBytes)) <|
    .cons ((fits_ascii "# Model: " (by decide)).append (fits_commentText _ candidateStringBytes)) <|
    .cons ((fits_ascii "# BBS index: " (by decide)).append fits_putDec) <|
    .cons ?kind <| .cons ?location <|
    .cons (fits_settingLine "TargetBbsDescription=" (by decide)
      fits_descriptionText) <| .cons .nil .nil
  case kind =>
    exact ((fits_ascii "# Controller type: " (by decide)).append
      (.ite (fits_ascii "USB" (by decide)) (fits_ascii "non-USB" (by decide)))).mono (by decide)
  case location =>
    have hraw := (((((fits_ascii "# Invalid BBS PCI location: bus=0x" (by decide)).append
      (@fits_putHex item.rawBus.toNat 8)).append (fits_ascii " device=0x" (by decide))).append
      (@fits_putHex item.rawDevice.toNat 8)).append (fits_ascii " function=0x" (by decide))).append
      (@fits_putHex item.rawFunction.toNat 8)
    exact (Fits.ite (fits_settingLine "TargetControllerPci=" (by decide) fits_bdfText) hraw).mono
      (by decide)

/-! ### The whole fits -/

theorem length_textOfLines_append {lines lines' : List Bytes} :
    (textOfLines (lines ++ lines')).length =
      (textOfLines lines).length + (textOfLines lines').length := by
  simp [textOfLines]

/-- The blocks of a list of candidates. -/
theorem length_textOfLines_mapIdx {α : Type} {block : Nat → α → List Bytes}
    (h : ∀ index item, (textOfLines (block index item)).length ≤ bound) (items : List α) :
    (textOfLines (items.mapIdx block).flatten).length ≤ items.length * bound := by
  induction items generalizing block with
  | nil => exact Nat.zero_le _
  | cons item items ih =>
      have hrest := @ih (fun index => block (index + 1)) fun index => h (index + 1)
      have hfirst := h 0 item
      rw [List.mapIdx_cons, List.flatten_cons, length_textOfLines_append, List.length_cons,
        Nat.succ_mul]
      omega

theorem forall_mapIdx {α : Type} {block : Nat → α → List Bytes} {p : Bytes → Prop}
    (h : ∀ index item, ∀ line ∈ block index item, p line) (items : List α) :
    ∀ line ∈ (items.mapIdx block).flatten, p line := by
  intro line hline
  obtain ⟨lines, hlines, hline⟩ := List.mem_flatten.mp hline
  obtain ⟨index, hindex, rfl⟩ := List.mem_mapIdx.mp hlines
  exact h _ _ line hline

theorem headingLines_plain (complete : Bool) :
    ∀ line ∈ headingLines complete, PlainLine line := by
  have hall : ∀ line ∈ headingLines complete,
      line.all isPrintable = true ∧ line.length < configMaxLineBytes := by
    cases complete <;> decide
  exact fun line hline => ⟨(hall line hline).1, (hall line hline).2⟩

theorem endpointLines_plain : ∀ line ∈ endpointLines, PlainLine line := by
  have hall : ∀ line ∈ endpointLines,
      line.all isPrintable = true ∧ line.length < configMaxLineBytes := by
    decide
  exact fun line hline => ⟨(hall line hline).1, (hall line hline).2⟩

section Lines

variable (displays : List NcvDisplayCandidate) (selectedDisplay : Option Nat)
  (storage : List NcvStorageCandidate) (selectedStorage : Option Nat)

theorem candidateIniLines_plain :
    ∀ line ∈ candidateIniLines displays selectedDisplay storage selectedStorage,
      PlainLine line := by
  simp only [candidateIniLines, List.forall_mem_append]
  refine ⟨⟨⟨headingLines_plain _, ?_⟩, endpointLines_plain⟩, ?_⟩
  · exact forall_mapIdx (fun _ _ => linesFit_displayLines.plainLine (by decide)) displays
  · exact forall_mapIdx (fun _ _ => linesFit_storageLines.plainLine (by decide)) storage

/-- The generated configuration fits its buffer. -/
theorem length_candidateIni (hdisplays : displays.length ≤ maxDisplayCandidates)
    (hstorage : storage.length ≤ maxStorageCandidates) :
    (textOfLines (candidateIniLines displays selectedDisplay storage selectedStorage)).length <
      candidateIniBytes := by
  have hheading (complete : Bool) : (textOfLines (headingLines complete)).length ≤ 400 := by
    cases complete <;> decide +kernel
  have hendpoint : (textOfLines endpointLines).length ≤ 100 := by decide
  have hdisplay (selected : Nat → Bool) := length_textOfLines_mapIdx
    (fun index display => (@linesFit_displayLines index display (selected index)).length_le) displays
  have hitem (selected : Nat → Bool) := length_textOfLines_mapIdx
    (fun index item => (@linesFit_storageLines index item (selected index)).length_le) storage
  have hdisplayBound : (displayBounds.map (· + 2)).sum = 515 := by decide
  have hstorageBound : (storageBounds.map (· + 2)).sum = 693 := by decide
  rw [hdisplayBound] at hdisplay
  rw [hstorageBound] at hitem
  have hcomplete := hheading (selectedDisplay.isSome && selectedStorage.isSome)
  have hdisplays' := hdisplay fun index =>
    selectedDisplay.isSome && selectedStorage.isSome && selectedDisplay == some index
  have hstorage' := hitem fun index =>
    selectedDisplay.isSome && selectedStorage.isSome && selectedStorage == some index
  simp only [maxDisplayCandidates, maxStorageCandidates] at hdisplays hstorage
  simp only [candidateIniLines, length_textOfLines_append, candidateIniBytes]
  omega

end Lines

/-! ### The active lines -/

def activeLines (lines : List Bytes) : List Bytes := (lines.map trim).filter isActiveLine

/-- The parser reads the active lines. -/
theorem foldlM_activeLines {state : ParseState} {lines : List Bytes} :
    lines.foldlM (fun state line => parseLine state (trim line)) state =
      (activeLines lines).foldlM parseLine state := by
  induction lines generalizing state with
  | nil => rfl
  | cons line lines ih =>
      rw [List.foldlM_cons, activeLines, List.map_cons, List.filter_cons]
      split
      case isTrue =>
        rw [List.foldlM_cons]
        exact bind_congr fun _ => ih
      case isFalse hinactive =>
        rw [parseLine_of_inactive (by simpa using hinactive)]
        exact ih

theorem activeLines_append {lines lines' : List Bytes} :
    activeLines (lines ++ lines') = activeLines lines ++ activeLines lines' := by
  simp [activeLines]

/-- A comment of the program stays one, whatever follows. -/
theorem isActiveLine_comment (rest : Bytes) : isActiveLine (trim (byte '#' :: rest)) = false := by
  have hdrop : (byte '#' :: rest).dropWhile isSpace = byte '#' :: rest :=
    List.dropWhile_cons_of_neg (by decide)
  rw [trim, hdrop]
  cases htrim : (byte '#' :: rest).rdropWhile isSpace with
  | nil => rfl
  | cons first rest' =>
      have hprefix : first :: rest' <+: byte '#' :: rest := htrim ▸ List.rdropWhile_prefix _ _
      obtain rfl : first = byte '#' := (List.cons_prefix_cons.mp hprefix).1
      rfl

theorem activeLines_comment {lines : List Bytes} (h : line.head? = some (byte '#')) :
    activeLines (line :: lines) = activeLines lines := by
  obtain ⟨rest, rfl⟩ : ∃ rest, line = byte '#' :: rest := List.head?_eq_some_iff.mp h
  rw [activeLines, List.map_cons, List.filter_cons_of_neg]
  · rfl
  · simp [isActiveLine_comment rest]

theorem activeLines_active {lines : List Bytes} (h : isActiveLine (trim line) = true) :
    activeLines (line :: lines) = trim line :: activeLines lines :=
  List.filter_cons_of_pos h

/-- What is active in a block depends on whether its candidate is selected. -/
theorem activeLines_mapIdx {α : Type} {block : Nat → α → Bool → List Bytes}
    {active : α → List Bytes} {selected : Nat → Bool}
    (h : ∀ index item selected,
      activeLines (block index item selected) = if selected then active item else [])
    (items : List α) :
    activeLines (items.mapIdx fun index item => block index item (selected index)).flatten =
      (items.mapIdx fun index item => if selected index then active item else []).flatten := by
  induction items generalizing block selected with
  | nil => rfl
  | cons item items ih =>
      have hrest := @ih (fun index => block (index + 1)) (fun index => selected (index + 1))
        fun index => h (index + 1)
      rw [List.mapIdx_cons, List.flatten_cons, List.mapIdx_cons, List.flatten_cons,
        activeLines_append, h, hrest]

theorem flatten_mapIdx_nil {α : Type} (items : List α) :
    (items.mapIdx fun _ _ => ([] : List Bytes)).flatten = [] := by
  rw [List.flatten_eq_nil_iff]
  intro block hblock
  obtain ⟨_, _, rfl⟩ := List.mem_mapIdx.mp hblock
  rfl

/-- Of blocks that are empty but for one, that one is left. -/
theorem flatten_mapIdx_selected {α : Type} {block : α → List Bytes} (items : List α)
    (selected : Option Nat) :
    (items.mapIdx fun index item => if selected == some index then block item else []).flatten =
      ((selected.bind fun index => items[index]?).map block).getD [] := by
  cases selected with
  | none => simp
  | some index =>
      induction items generalizing index with
      | nil => simp
      | cons item items ih =>
          rw [List.mapIdx_cons, List.flatten_cons]
          cases index with
          | zero => simp
          | succ index => simpa using ih index

/-! ### The targets -/

/-- The addresses and the description of what has been selected. -/
structure ChosenTargets where
  gpu : PciAddress
  controller : PciAddress
  disk : Bytes

/-- Of a display's lines the selected address alone is active. -/
theorem activeLines_displayLines {index : Nat} {display : NcvDisplayCandidate} {selected : Bool} :
    activeLines (displayLines index display selected) =
      if selected then if display.addressValid then [gpuLine display.address] else [] else [] := by
  unfold displayLines
  iterate 8 rw [activeLines_comment rfl]
  cases selected with
  | false =>
      simp only [Bool.false_eq_true, if_false]
      split
      · exact activeLines_comment rfl
      · exact activeLines_comment rfl
  | true =>
      simp only [if_true]
      split
      · show activeLines [gpuLine display.address, []] = _
        rw [activeLines_active (by rw [trim_gpuLine]; rfl), trim_gpuLine]
        rfl
      · exact activeLines_comment rfl

theorem activeLines_storageLines {index : Nat} {item : NcvStorageCandidate} {selected : Bool} :
    activeLines (storageLines index item selected) =
      if selected then
        (if item.addressValid then [controllerLine item.address] else []) ++
          activeLines [diskLine (descriptionText item.description)]
      else [] := by
  unfold storageLines
  iterate 5 rw [activeLines_comment rfl]
  cases selected with
  | false =>
      simp only [Bool.false_eq_true, if_false]
      split
      · rw [activeLines_comment rfl]
        exact activeLines_comment rfl
      · rw [activeLines_comment rfl]
        exact activeLines_comment rfl
  | true =>
      simp only [if_true]
      have hdisk : activeLines [settingLine true "TargetBbsDescription="
          (descriptionText item.description), []] =
            activeLines [diskLine (descriptionText item.description)] := by
        show activeLines ([diskLine (descriptionText item.description)] ++ [[]]) = _
        rw [activeLines_append]
        exact List.append_nil _
      split
      · show activeLines (controllerLine item.address :: _) = _
        rw [activeLines_active (by rw [trim_controllerLine]; rfl), trim_controllerLine, hdisk]
        rfl
      · rw [activeLines_comment rfl, hdisk]
        rfl

/-- The program's own lines, and the targets. -/
def generatedLines (targets : Option ChosenTargets) : List Bytes :=
  [ascii "[Marker]", ascii "Enabled=false", ascii "[Behavior]", ascii "Probe=false",
    ascii "[Video]"] ++
    (match targets with
      | none => []
      | some targets => [gpuLine targets.gpu]) ++
    [ascii "[Endpoint]", ascii "IoDecoding=On", ascii "MemoryDecoding=On",
      ascii "BusMastering=Ignore", ascii "[Boot]"] ++
    match targets with
    | none => []
    | some targets =>
        [controllerLine targets.controller, diskLine (encodeDescription targets.disk)]

/-- The defaults, with what the program's lines set. -/
def generatedDefaults : NcvConfigCore :=
  { ncvConfigDefaults with
    marker := { ncvConfigDefaults.marker with seen := 1, enabled := 0 }
    hasProbe := true
    probe := false
    hasIoDecoding := true
    hasMemoryDecoding := true
    hasBusMastering := true
    ioDecoding := .on
    memoryDecoding := .on
    busMastering := .ignore }

def generatedConfig (targets : Option ChosenTargets) : NcvConfigCore :=
  match targets with
  | none => generatedDefaults
  | some targets =>
      ((generatedDefaults.setGpu targets.gpu).setController targets.controller).setDisk targets.disk

/-- A boot can be configured with these targets. -/
structure ChosenTargets.Valid (targets : ChosenTargets) : Prop where
  gpu : targets.gpu.Valid
  controller : targets.controller.Valid
  distinct : targets.gpu ≠ targets.controller
  disk : Representable targets.disk

/-- Where the parser is before the displays. -/
def videoState : ParseState where
  config :=
    { ncvConfigDefaults with
      marker := { ncvConfigDefaults.marker with seen := 1, enabled := 0 }
      hasProbe := true
      probe := false }
  current := some .video
  sectionSeen := [.video, .behavior, .marker]
  line := []

/-- Where the parser is before the disks, but for the display. -/
def bootState (config : NcvConfigCore) : ParseState where
  config := config
  current := some .boot
  sectionSeen := [.boot, .endpoint, .video, .behavior, .marker]
  line := []

theorem parse_generatedLines {targets : Option ChosenTargets}
    (h : ∀ chosen ∈ targets, chosen.Valid) :
    (generatedLines targets).foldlM parseLine (parseStart ncvConfigDefaults) =
      .ok (bootState (generatedConfig targets)) := by
  cases targets with
  | none => rfl
  | some targets =>
      have hvalid := h targets rfl
      have hvideo : [ascii "[Marker]", ascii "Enabled=false", ascii "[Behavior]",
          ascii "Probe=false", ascii "[Video]"].foldlM parseLine (parseStart ncvConfigDefaults) =
            .ok videoState := rfl
      have hgpu : [gpuLine targets.gpu].foldlM parseLine videoState =
          .ok { videoState with config := videoState.config.setGpu targets.gpu } := by
        rw [List.foldlM_cons, parseLine_gpuLine hvalid.gpu rfl rfl]
        rfl
      have hboot : [ascii "[Endpoint]", ascii "IoDecoding=On", ascii "MemoryDecoding=On",
          ascii "BusMastering=Ignore", ascii "[Boot]"].foldlM parseLine
            { videoState with config := videoState.config.setGpu targets.gpu } =
              .ok (bootState (generatedDefaults.setGpu targets.gpu)) := rfl
      have hdisk : [controllerLine targets.controller,
          diskLine (encodeDescription targets.disk)].foldlM parseLine
            (bootState (generatedDefaults.setGpu targets.gpu)) =
              .ok (bootState (generatedConfig (some targets))) := by
        rw [List.foldlM_cons, parseLine_controllerLine hvalid.controller rfl rfl]
        show [diskLine (encodeDescription targets.disk)].foldlM parseLine
          (bootState ((generatedDefaults.setGpu targets.gpu).setController targets.controller)) = _
        rw [List.foldlM_cons, parseLine_diskLine hvalid.disk rfl rfl]
        rfl
      exact (foldlM_append_ok (foldlM_append_ok (foldlM_append_ok hvideo |>.trans hgpu)
        |>.trans hboot)).trans hdisk

/-! ### The round trip -/

/-- The lines of a text that the parser acts on, as it sees them. -/
def activeLinesOf (text : Bytes) : List Bytes :=
  ((linesOf text).map seenText).filter isActiveLine

theorem activeLinesOf_textOfLines {lines : List Bytes} (h : ∀ line ∈ lines, PlainLine line) :
    activeLinesOf (textOfLines lines) = activeLines lines := by
  rw [activeLinesOf, linesOf_textOfLines fun line hline => (h line hline).notMem (by decide),
    List.map_map, activeLines]
  congr 1
  apply List.map_congr_left
  intro line hline
  exact congrArg trim (lineText_plain (h line hline))

section RoundTrip

variable (displays : List NcvDisplayCandidate) (selectedDisplay : Option Nat)
  (storage : List NcvStorageCandidate) (selectedStorage : Option Nat)

/-- What has been selected, if both selections exist. -/
def chosenTargets : Option ChosenTargets := do
  let display ← displays[(← selectedDisplay)]?
  let item ← storage[(← selectedStorage)]?
  return {
    gpu := display.address
    controller := item.address
    disk := cString item.description.array }

variable {displays selectedDisplay storage selectedStorage}

/-- What a selection that passes validation selects. -/
theorem selected_of_validate
    (h : validateSelections displays selectedDisplay storage selectedStorage = true) :
    displays.length ≤ maxDisplayCandidates ∧ storage.length ≤ maxStorageCandidates ∧
      (∀ index ∈ selectedDisplay, ∃ display, displays[index]? = some display ∧
        display.addressValid = true) ∧
      ∀ index ∈ selectedStorage, ∃ item, storage[index]? = some item ∧
        item.addressValid = true ∧ Representable (cString item.description.array) := by
  simp only [validateSelections, Bool.and_eq_true, decide_eq_true_eq] at h
  obtain ⟨⟨⟨hdisplays, hstorage⟩, hdisplay⟩, hitem⟩ := h
  refine ⟨hdisplays, hstorage, ?_, ?_⟩
  · rintro index rfl
    dsimp only at hdisplay
    split at hdisplay
    case h_1 => exact absurd hdisplay (by decide)
    case h_2 display hget =>
      simp only [Bool.and_eq_true] at hdisplay
      exact ⟨display, hget, hdisplay.2⟩
  · rintro index rfl
    dsimp only at hitem
    split at hitem
    case h_1 => exact absurd hitem (by decide)
    case h_2 item hget =>
      simp only [Bool.and_eq_true] at hitem
      exact ⟨item, hget, hitem.1.2, (representable_iff.mp hitem.2).1⟩

/-- **The active lines of the generated configuration are the program's own and the targets.** -/
theorem activeLines_candidateIniLines
    (h : validateSelections displays selectedDisplay storage selectedStorage = true) :
    activeLines (candidateIniLines displays selectedDisplay storage selectedStorage) =
      generatedLines (chosenTargets displays selectedDisplay storage selectedStorage) := by
  obtain ⟨-, -, hdisplay, hitem⟩ := selected_of_validate h
  have hheading (complete : Bool) : activeLines (headingLines complete) =
      [ascii "[Marker]", ascii "Enabled=false", ascii "[Behavior]", ascii "Probe=false",
        ascii "[Video]"] := by
    cases complete <;> rfl
  have hendpoint : activeLines endpointLines =
      [ascii "[Endpoint]", ascii "IoDecoding=On", ascii "MemoryDecoding=On",
        ascii "BusMastering=Ignore", ascii "[Boot]"] := rfl
  simp only [candidateIniLines, activeLines_append, hheading, hendpoint,
    activeLines_mapIdx fun index display selected =>
      @activeLines_displayLines index display selected,
    activeLines_mapIdx fun index item selected => @activeLines_storageLines index item selected]
  cases hselectedDisplay : selectedDisplay with
  | none => simp [chosenTargets, generatedLines, flatten_mapIdx_nil]
  | some index =>
      cases hselectedStorage : selectedStorage with
      | none => simp [chosenTargets, generatedLines, flatten_mapIdx_nil]
      | some index' =>
          obtain ⟨display, hget, hvalid⟩ := hdisplay index hselectedDisplay
          obtain ⟨item, hget', hvalid', hrepresentable⟩ := hitem index' hselectedStorage
          have hchosen : chosenTargets displays (some index) storage (some index') =
              some
                { gpu := display.address
                  controller := item.address
                  disk := cString item.description.array } := by
            simp [chosenTargets, hget, hget']
          have hdescription : descriptionText item.description =
              encodeDescription (cString item.description.array) := by
            rw [descriptionText, ncvEncodeDiskDescription_eq hrepresentable]
          have hdisk : activeLines [diskLine (encodeDescription (cString item.description.array))] =
              [diskLine (encodeDescription (cString item.description.array))] := by
            have htrim := trim_diskLine (word_encodeDescription hrepresentable)
            rw [activeLines_active (by rw [htrim]; rfl), htrim]
            rfl
          simp only [Option.isSome_some, Bool.true_and]
          rw [flatten_mapIdx_selected, flatten_mapIdx_selected, hchosen]
          simp [hget, hget', hvalid, hvalid', hdescription, hdisk, generatedLines]

/-- The formatter puts all of its lines. -/
theorem ncvFormatCandidateIni_eq
    (h : validateSelections displays selectedDisplay storage selectedStorage = true) :
    ncvFormatCandidateIni displays selectedDisplay storage selectedStorage candidateIniBytes =
      .ok (textOfLines (candidateIniLines displays selectedDisplay storage selectedStorage)) := by
  obtain ⟨hdisplays, hstorage, -, -⟩ := selected_of_validate h
  have hlength := length_candidateIni displays selectedDisplay storage selectedStorage hdisplays
    hstorage
  have hput := @NcvText.putText_of_lt
    (textOfLines (candidateIniLines displays selectedDisplay storage selectedStorage))
    (NcvText.empty candidateIniBytes) rfl (by simpa [NcvText.empty] using hlength)
  unfold ncvFormatCandidateIni
  rw [if_neg (by rw [h]; decide), hput]
  rfl

theorem parse_candidateIniLines
    (h : validateSelections displays selectedDisplay storage selectedStorage = true)
    (htargets : ∀ chosen ∈ chosenTargets displays selectedDisplay storage selectedStorage,
      chosen.Valid) :
    ncvParseConfigStrict
        (textOfLines (candidateIniLines displays selectedDisplay storage selectedStorage))
        ncvConfigDefaults =
      .ok (generatedConfig (chosenTargets displays selectedDisplay storage selectedStorage)) := by
  have hne : textOfLines (candidateIniLines displays selectedDisplay storage selectedStorage) ≠ [] :=
    List.cons_ne_nil _ _
  rw [ncvParseConfigStrict_eq hne, foldlM_textOfLines (candidateIniLines_plain _ _ _ _),
    foldlM_activeLines, activeLines_candidateIniLines h, parse_generatedLines htargets]
  show finishConfig (generatedConfig _) = _
  cases hchosen : chosenTargets displays selectedDisplay storage selectedStorage with
  | none => rfl
  | some targets =>
      have hdistinct := (htargets targets hchosen).distinct
      have hequal : (targets.gpu == targets.controller) = false := by simpa using hdistinct
      show (if (!markerConfigIsValid generatedDefaults.marker) = true then _
        else if (targets.gpu == targets.controller) = true then _ else _) = _
      rw [hequal]
      rfl

/-- **What the formatter writes, the parser reads.** The generated configuration fits its buffer and is
accepted with exactly the selected targets, or with none; its active lines are the program's own and the
targets, whatever firmware calls the candidates. -/
theorem candidateIni_roundTrip
    (hselections :
      validateSelections displays selectedDisplay storage selectedStorage = true)
    (hgpu : ∀ index ∈ selectedDisplay, ∀ display, displays[index]? = some display →
      display.address.Valid)
    (hcontroller : ∀ index ∈ selectedStorage, ∀ item, storage[index]? = some item →
      item.address.Valid)
    (hdistinct : ∀ chosen ∈ chosenTargets displays selectedDisplay storage selectedStorage,
      chosen.gpu ≠ chosen.controller) :
    ∃ text config,
      ncvFormatCandidateIni displays selectedDisplay storage selectedStorage candidateIniBytes =
        .ok text ∧
      ncvParseConfigStrict text ncvConfigDefaults = .ok config ∧
      activeLinesOf text =
        generatedLines (chosenTargets displays selectedDisplay storage selectedStorage) ∧
      (∀ index ∈ selectedDisplay, ∀ index' ∈ selectedStorage,
        ∃ display item, displays[index]? = some display ∧ storage[index']? = some item ∧
          config.hasTargetPci = true ∧ config.targetPci = display.address ∧
          config.hasTargetControllerPci = true ∧ config.targetControllerPci = item.address ∧
          config.hasTargetBbsDescription = true ∧
          config.targetBbsDescription = cString item.description.array ∧
          ncvBootRequirementsValidate (ncvConfigCoreGetBootRequirements config) = 0) ∧
      (selectedDisplay = none ∨ selectedStorage = none →
        config.hasTargetPci = false ∧ config.hasTargetControllerPci = false ∧
          config.hasTargetBbsDescription = false) := by
  obtain ⟨-, -, hdisplay, hitem⟩ := selected_of_validate hselections
  have hchosen : ∀ index ∈ selectedDisplay, ∀ index' ∈ selectedStorage,
      ∃ display item, displays[index]? = some display ∧ storage[index']? = some item ∧
        Representable (cString item.description.array) ∧
        chosenTargets displays selectedDisplay storage selectedStorage =
          some
            { gpu := display.address
              controller := item.address
              disk := cString item.description.array } := by
    rintro index rfl index' rfl
    obtain ⟨display, hget, -⟩ := hdisplay index rfl
    obtain ⟨item, hget', -, hrepresentable⟩ := hitem index' rfl
    exact ⟨display, item, hget, hget', hrepresentable, by simp [chosenTargets, hget, hget']⟩
  have hvalid : ∀ chosen ∈ chosenTargets displays selectedDisplay storage selectedStorage,
      chosen.Valid := by
    intro chosen hmem
    cases selectedDisplay with
    | none => simp [chosenTargets] at hmem
    | some index =>
        cases selectedStorage with
        | none => simp [chosenTargets] at hmem
        | some index' =>
            obtain ⟨display, item, hget, hget', hrepresentable, hsome⟩ :=
              hchosen index rfl index' rfl
            have hne := hdistinct chosen hmem
            rw [hsome] at hmem
            cases hmem
            exact ⟨hgpu index rfl display hget, hcontroller index' rfl item hget', hne,
              hrepresentable⟩
  refine ⟨_, _, ncvFormatCandidateIni_eq hselections,
    parse_candidateIniLines hselections hvalid, ?_, ?_, ?_⟩
  · rw [activeLinesOf_textOfLines (candidateIniLines_plain _ _ _ _),
      activeLines_candidateIniLines hselections]
  · intro index hindex index' hindex'
    obtain ⟨display, item, hget, hget', -, hsome⟩ := hchosen index hindex index' hindex'
    rw [hsome]
    have hrequirements : ncvBootRequirementsValidate
        { probe := false
          hasTargetPci := true
          hasTargetControllerPci := true
          hasIoDecoding := true
          hasMemoryDecoding := true
          hasBusMastering := true } = 0 := by
      decide
    exact ⟨display, item, hget, hget', rfl, rfl, rfl, rfl, rfl, rfl, hrequirements⟩
  · intro hnone
    have hchosenNone : chosenTargets displays selectedDisplay storage selectedStorage = none := by
      rcases hnone with rfl | rfl
      · rfl
      · cases selectedDisplay with
        | none => rfl
        | some index => simp [chosenTargets]
    rw [hchosenNone]
    exact ⟨rfl, rfl, rfl⟩

end RoundTrip

/-! ### A concrete selection -/

def sampleDisplay : NcvDisplayCandidate where
  address := { segment := 0, bus := 1, device := 0, function := 0 }
  rawSegment := 0
  rawBus := 1
  rawDevice := 0
  rawFunction := 0
  vendor := 0x10DE
  deviceId := 0x0611
  subsystemVendor := 0
  subsystemDevice := 0
  addressValid := true
  gopAssociated := false
  gopAssociationKnown := true
  activeLegacyVgaOwner := false
  activeLegacyVgaOwnerKnown := true
  optionRomExposed := true
  acceptedLegacyRom := true
  pathDiscovered := true
  pathValidated := true
  eligible := true
  selected := true

def sampleStorage : NcvStorageCandidate where
  bbsIndex := 3
  address := { segment := 0, bus := 0, device := 31, function := 2 }
  rawBus := 0
  rawDevice := 31
  rawFunction := 2
  baseClass := 1
  subClass := 6
  manufacturer := ⟨ascii "M\n[Boot]" ++ List.replicate 121 0, by decide +kernel⟩
  description := ⟨ascii " \"Disk\" 0 " ++ List.replicate 119 0, by decide +kernel⟩
  addressValid := true
  usb := false
  firmwareStatusKnown := false
  firmwareStatus := 0
  firmwarePriority := 0
  identityAmbiguous := false
  eligible := true
  selected := true

theorem candidateIni_roundTrip_sample :
    validateSelections [sampleDisplay] (some 0) [sampleStorage] (some 0) = true ∧
      ∃ text config,
        ncvFormatCandidateIni [sampleDisplay] (some 0) [sampleStorage] (some 0)
          candidateIniBytes = .ok text ∧
        ncvParseConfigStrict text ncvConfigDefaults = .ok config := by
  have hselections :
      validateSelections [sampleDisplay] (some 0) [sampleStorage] (some 0) = true := by
    decide +kernel
  have hgpu : ∀ index ∈ some 0, ∀ display, [sampleDisplay][index]? = some display →
      display.address.Valid := by
    rintro _ ⟨⟩ _ ⟨⟩
    decide
  have hcontroller : ∀ index ∈ some 0, ∀ item, [sampleStorage][index]? = some item →
      item.address.Valid := by
    rintro _ ⟨⟩ _ ⟨⟩
    decide
  have hdistinct : ∀ chosen ∈ chosenTargets [sampleDisplay] (some 0) [sampleStorage] (some 0),
      chosen.gpu ≠ chosen.controller := by
    rintro _ ⟨⟩
    decide
  obtain ⟨text, config, hformat, hparse, -⟩ :=
    candidateIni_roundTrip hselections hgpu hcontroller hdistinct
  exact ⟨hselections, text, config, hformat, hparse⟩

end CsmVgaSelector
