import CsmVgaSelector.Proof.BootChoice
import CsmVgaSelector.Proof.DiskAgreement
import CsmVgaSelector.Route.Endpoints
import CsmVgaSelector.Setup.BootOptions

/-!
# The report and the boot on the boot options

Both decoders ask for the same layout, but for the string of the BBS node, at which only the boot looks, and the
control characters, which only the report refuses. No description that the configuration asks for has one, so
the option that the boot chooses is among those that the report counts.
-/

namespace CsmVgaSelector

open Peek

section

variable {bytes path : List UInt8} {offset count characters : Nat} {granted : Bool} {option : BbsOption}

/-! ### The path -/

/-- The path is one BBS node, with whatever string, and the node that ends the path. -/
structure GenericBbsPath (path : List UInt8) : Prop where
  node : path[0]! = bbsDevicePathType ∧ path[1]! = bbsBbsDp
  nodeLength : 9 ≤ (readLe16 path 2).toNat
  end_ : path.drop (readLe16 path 2).toNat = [endDevicePathType, endEntireDevicePathSubtype, 4, 0]

/-- The string of the node ends in its last byte, and is not too long. -/
structure BbsStringSound (path : List UInt8) : Prop where
  terminator : path[(readLe16 path 2).toNat - 1]! = 0
  text : 0 ∉ bbsText path (readLe16 path 2).toNat
  room : (readLe16 path 2).toNat - 8 ≤ maxStringBytes + 1

theorem bbsPath_iff : BbsPath path ↔ GenericBbsPath path ∧ BbsStringSound path :=
  ⟨fun h => ⟨⟨h.node, h.nodeLength, h.end_⟩, ⟨h.terminator, h.text, h.room⟩⟩,
    fun h => ⟨h.1.node, h.1.nodeLength, h.2.terminator, h.2.text, h.2.room, h.1.end_⟩⟩

/-- A node that is not the BBS node ends the check. -/
theorem peekBbsPath_unsupported (h : 4 ≤ path.length)
    (hnode : ¬ (path[0]! = bbsDevicePathType ∧ path[1]! = bbsBbsDp)) :
    Yields (InBytes path) (byteAt path) (peekBbsPath path.length) .unsupported := by
  have hfirst : InBytes path 0 := Nat.lt_of_lt_of_le (by decide) h
  have hsecond : InBytes path 1 := Nat.lt_of_lt_of_le (by decide) h
  refine Yields.bind_peek hfirst ?_
  by_cases htype : path[0]! = bbsDevicePathType
  · rw [byteAt, if_neg (not_not.mpr htype)]
    refine Yields.bind_peek hsecond ?_
    rw [byteAt, if_pos fun hsub => hnode ⟨htype, hsub⟩]
    exact Yields.pure
  · rw [byteAt, if_pos htype]
    exact Yields.pure

theorem peekBbsPath_yields (h : 4 ≤ path.length) :
    ∃ status, Yields (InBytes path) (byteAt path) (peekBbsPath path.length) status ∧
      (status.isError = false ↔ GenericBbsPath path) := by
  have hfirst : InBytes path 0 := Nat.lt_of_lt_of_le (by decide) h
  have hsecond : InBytes path 1 := Nat.lt_of_lt_of_le (by decide) h
  by_cases hnode : path[0]! = bbsDevicePathType ∧ path[1]! = bbsBbsDp
  swap
  · exact ⟨_, peekBbsPath_unsupported h hnode, iff_of_false (by decide) fun hpath => hnode hpath.node⟩
  have hlength := @peekWord_yields path 2 h
  by_cases hsize : (readLe16 path 2).toNat < 9 ∨ (readLe16 path 2).toNat + 4 ≠ path.length
  · refine ⟨.compromisedData, Yields.bind_peek hfirst ?_, iff_of_false (by decide) fun hpath => ?_⟩
    · rw [byteAt, if_neg (not_not.mpr hnode.1)]
      refine Yields.bind_peek hsecond ?_
      rw [byteAt, if_neg (not_not.mpr hnode.2)]
      refine hlength.bind ?_
      rw [if_pos hsize]
      exact Yields.pure
    · have hbound := hpath.nodeLength
      have hend := (endEntire_iff.mp hpath.end_).1
      omega
  have hends := @peekIsEndEntire_decides path (readLe16 path 2).toNat (by omega)
  obtain ⟨status, hstatus, hiff⟩ : ∃ status, Yields (InBytes path) (byteAt path)
      (peekIsEndEntire (readLe16 path 2).toNat >>= fun ends =>
        if (!ends) = true then Pure.pure EfiStatus.compromisedData else Pure.pure .success) status ∧
      (status.isError = false ↔ GenericBbsPath path) := by
    by_cases hend : path.drop (readLe16 path 2).toNat = [endDevicePathType, endEntireDevicePathSubtype, 4, 0]
    · refine ⟨.success, Yields.guard hends (fun _ => Yields.pure) fun hnot => ?_,
        iff_of_true rfl ⟨hnode, by omega, hend⟩⟩
      exact absurd (endEntire_iff.mp hend).2 hnot
    · refine ⟨.compromisedData, Yields.guard hends (fun hnot => ?_) fun _ => rfl,
        iff_of_false (by decide) fun hpath => hend hpath.end_⟩
      exact absurd (endEntire_iff.mpr ⟨by omega, hnot⟩) hend
  refine ⟨status, Yields.bind_peek hfirst ?_, hiff⟩
  rw [byteAt, if_neg (not_not.mpr hnode.1)]
  refine Yields.bind_peek hsecond ?_
  rw [byteAt, if_neg (not_not.mpr hnode.2)]
  refine hlength.bind ?_
  rw [if_neg hsize]
  exact hstatus

/-! ### The option -/

theorem peekHasControl_decides (h : offset + 2 * count ≤ bytes.length) :
    Decides (InBytes bytes) (byteAt bytes) (peekHasControl offset count)
      (∃ character ∈ wordsAt bytes offset count, character < 0x20) := by
  induction count generalizing offset with
  | zero => exact Decides.pure (by simp [wordsAt])
  | succ count ih =>
      rw [peekHasControl, wordsAt_succ]
      refine Decides.bind (peekWord_yields (by omega)) ?_
      by_cases hcontrol : readLe16 bytes offset < 0x20
      · rw [if_pos hcontrol]
        exact Decides.pure (iff_of_true rfl ⟨_, List.mem_cons_self, hcontrol⟩)
      · rw [if_neg hcontrol]
        refine (ih (by omega)).congr ?_
        simp only [List.mem_cons, exists_eq_or_imp, hcontrol, false_or]

/-- A load option of which the report asks no more than the layout. -/
structure GenericOption (bytes : List UInt8) (characters : Nat) : Prop where
  description : DescriptionEnds bytes 0 characters
  path : pathPlace characters + pathBytes bytes ≤ bytes.length
  bbs : GenericBbsPath (pathOf bytes characters)

theorem loadOption_iff : LoadOption bytes characters ↔
    GenericOption bytes characters ∧ BbsStringSound (pathOf bytes characters) :=
  ⟨fun h => ⟨⟨h.description, h.path, (bbsPath_iff.mp h.bbs).1⟩, (bbsPath_iff.mp h.bbs).2⟩,
    fun h => ⟨h.1.description, h.1.path, bbsPath_iff.mpr ⟨h.1.bbs, h.2⟩⟩⟩

def HasControl (bytes : List UInt8) (characters : Nat) : Prop :=
  ∃ character ∈ wordsAt bytes loadOptionFixedBytes characters, character < 0x20

/-- The parts of the option that the report keeps. -/
def reportedOption (bytes : List UInt8) (characters : Nat) : BbsOption where
  active := readLe32 bytes 0 &&& loadOptionActive != 0
  bbsDeviceType := readLe16 (pathOf bytes characters) 4
  description := wordsAt bytes loadOptionFixedBytes (characters + 1)

/-- What the report makes of an option whose description has so many characters. -/
structure ReportsOption (granted : Bool) (bytes : List UInt8) (characters : Nat) (result : Except EfiStatus BbsOption) :
    Prop where
  ok : ∀ option, result = .ok option ↔ granted = true ∧ GenericOption bytes characters ∧
    ¬ HasControl bytes characters ∧ option = reportedOption bytes characters
  control : GenericOption bytes characters → HasControl bytes characters → result = .error .compromisedData

theorem ReportsOption.refused {status : EfiStatus} (h : ¬ GenericOption bytes characters) :
    ReportsOption granted bytes characters (.error status) where
  ok := fun _ => iff_of_false (by simp) fun hreports => h hreports.2.1
  control := fun hoption => absurd hoption h

theorem peekBbsOption_yields (hdescription : DescriptionEnds bytes 0 characters) :
    ∃ result, Yields (InBytes bytes) (byteAt bytes)
        (peekBbsOption granted (readLe32 bytes 0) bytes.length characters (pathBytes bytes)) result ∧
      ReportsOption granted bytes characters result := by
  have hplace : loadOptionFixedBytes + (characters + 1) * 2 = pathPlace characters := rfl
  have hinside : pathPlace characters ≤ bytes.length := hdescription.inside
  unfold peekBbsOption
  dsimp only
  rw [hplace]
  by_cases hsizes : pathBytes bytes < 4 ∨ pathPlace characters > bytes.length ∨
      pathBytes bytes > bytes.length - pathPlace characters
  · rw [if_pos hsizes]
    refine ⟨_, Yields.pure, .refused fun hoption => ?_⟩
    have hpath := hoption.path
    have hlength : (pathOf bytes characters).length = pathBytes bytes := slice_length hpath
    have hend := (endEntire_iff.mp hoption.bbs.end_).1
    omega
  rw [if_neg hsizes]
  have hpath : pathPlace characters + pathBytes bytes ≤ bytes.length := by omega
  have hlength : (pathOf bytes characters).length = pathBytes bytes := slice_length hpath
  obtain ⟨status, hstatus, hbbs⟩ := @peekBbsPath_yields (pathOf bytes characters) (by omega)
  rw [hlength] at hstatus
  have hwalk := yields_through hpath hstatus
  cases herror : status.isError with
  | true =>
      refine ⟨.error status, hwalk.bind ?_, .refused fun hoption => ?_⟩
      · rw [if_pos herror]
        exact Yields.pure
      · rw [hbbs.mpr hoption.bbs] at herror
        cases herror
  | false =>
      have hoption : GenericOption bytes characters := ⟨hdescription, hpath, hbbs.mp herror⟩
      have hcontrol := @peekHasControl_decides bytes loadOptionFixedBytes characters (by
        rw [← hplace] at hinside
        omega)
      have hhead : ∀ {k : Bool → OptionRead (Except EfiStatus BbsOption)} {result},
          Yields (InBytes bytes) (byteAt bytes)
            (k ((peekHasControl loadOptionFixedBytes characters).run (byteAt bytes))) result →
          Yields (InBytes bytes) (byteAt bytes)
            (if status.isError then return .error status
              else peekHasControl loadOptionFixedBytes characters >>= k) result := by
        intro k result hk
        rw [if_neg (by simp [herror])]
        exact Yields.bind ⟨hcontrol.within, rfl⟩ hk
      by_cases hhas : HasControl bytes characters
      · refine ⟨.error .compromisedData, hwalk.bind (hhead ?_), fun option => ?_, fun _ _ => rfl⟩
        · rw [if_pos (hcontrol.run_iff.mpr hhas)]
          exact Yields.pure
        · exact iff_of_false (by simp) fun hreports => hreports.2.2.1 hhas
      have hnone : ¬ (peekHasControl loadOptionFixedBytes characters).run (byteAt bytes) = true :=
        mt hcontrol.run_iff.mp hhas
      cases granted with
      | false =>
          refine ⟨.error .outOfResources, hwalk.bind (hhead ?_), fun option => ?_, fun _ hhas' => absurd hhas' hhas⟩
          · rw [if_neg hnone, Bool.not_false, if_pos rfl]
            exact Yields.pure
          · exact iff_of_false (by simp) fun hreports => Bool.false_ne_true hreports.1
      | true =>
          have hwords := @peekWords_yields bytes loadOptionFixedBytes (characters + 1) (by omega)
          have hend := (endEntire_iff.mp hoption.bbs.end_).1
          have hbound := hoption.bbs.nodeLength
          have hword := @peekWord_yields (pathOf bytes characters) 4 (by omega)
          have htype := yields_through hpath hword
          refine ⟨.ok (reportedOption bytes characters), hwalk.bind (hhead ?_), fun option => ?_,
            fun _ hhas' => absurd hhas' hhas⟩
          · rw [if_neg hnone, if_neg (by simp)]
            exact hwords.bind (htype.bind Yields.pure)
          · rw [Except.ok.injEq, eq_comm]
            exact ⟨fun h => ⟨rfl, hoption, hhas, h⟩, fun h => h.2.2.2⟩

theorem peekParseBbsOption_yields :
    ∃ result, Yields (InBytes bytes) (byteAt bytes) (peekParseBbsOption granted bytes.length) result ∧
      (∀ option, result = .ok option ↔ granted = true ∧ ∃ characters, GenericOption bytes characters ∧
        ¬ HasControl bytes characters ∧ option = reportedOption bytes characters) ∧
      ∀ characters, GenericOption bytes characters → HasControl bytes characters →
        result = .error .compromisedData := by
  unfold peekParseBbsOption
  by_cases hshort : bytes.length < loadOptionFixedBytes + 2
  · rw [if_pos hshort]
    refine ⟨_, Yields.pure, fun option => iff_of_false (by simp) ?_, fun _ _ _ => rfl⟩
    rintro ⟨-, characters, hoption, -⟩
    have hinside := hoption.description.inside
    unfold descriptionPlace at hinside
    omega
  rw [if_neg hshort]
  have hsix : 6 + 2 ≤ bytes.length := Nat.not_lt.mp hshort
  have hattributes := @peekDoubleWord_yields bytes (by omega)
  have hpathLength := @peekWord_yields bytes 4 (by omega)
  obtain ⟨found, hfound, hends⟩ := @peekDescriptionEnd_yields bytes 0
  cases found with
  | none =>
      refine ⟨_, hattributes.bind (hpathLength.bind (hfound.bind Yields.pure)), fun option => ?_, fun _ _ _ => rfl⟩
      refine iff_of_false (by simp) ?_
      rintro ⟨-, characters, hoption, -⟩
      exact absurd ((hends characters).mpr hoption.description) (by simp)
  | some characters =>
      have hdescription : DescriptionEnds bytes 0 characters := (hends characters).mp rfl
      obtain ⟨result, hyields, hreports⟩ := @peekBbsOption_yields bytes characters granted hdescription
      refine ⟨result, hattributes.bind (hpathLength.bind (hfound.bind hyields)), fun option => ?_, ?_⟩
      · rw [hreports.ok]
        constructor
        · rintro ⟨hgranted, hoption⟩
          exact ⟨hgranted, characters, hoption⟩
        · rintro ⟨hgranted, characters', hoption, hrest⟩
          obtain rfl : characters' = characters := hoption.description.unique hdescription
          exact ⟨hgranted, hoption, hrest⟩
      · intro characters' hoption hhas
        obtain rfl : characters' = characters := hoption.description.unique hdescription
        exact hreports.control hoption hhas

theorem parseBbsOption_iff : parseBbsOption granted bytes = .ok option ↔ granted = true ∧
    ∃ characters, GenericOption bytes characters ∧ ¬ HasControl bytes characters ∧
      option = reportedOption bytes characters := by
  obtain ⟨result, hyields, hresult, -⟩ := @peekParseBbsOption_yields bytes granted
  rw [← hresult, ← hyields.run_eq]
  rfl

theorem parseBbsOption_control (hoption : GenericOption bytes characters) (hhas : HasControl bytes characters) :
    parseBbsOption granted bytes = .error .compromisedData := by
  obtain ⟨result, hyields, -, hresult⟩ := @peekParseBbsOption_yields bytes granted
  exact hyields.run_eq.trans (hresult characters hoption hhas)

end

/-! ### One option, read twice -/

section

variable {bytes : List UInt8} {characters : Nat} {number : UInt16}

theorem words_eq_terminated (h : DescriptionEnds bytes 0 characters) :
    wordsAt bytes loadOptionFixedBytes (characters + 1) =
      terminated (wordsAt bytes loadOptionFixedBytes characters) := by
  have hlast := h.terminator
  rw [descriptionPlace, Nat.mul_comm] at hlast
  rw [wordsAt, List.range_succ, List.map_append, List.map_singleton, hlast]
  rfl

theorem zero_notMem_words (h : DescriptionEnds bytes 0 characters) :
    0 ∉ wordsAt bytes loadOptionFixedBytes characters := by
  intro hzero
  obtain ⟨index, hindex, hword⟩ := List.mem_map.mp hzero
  refine h.text index (Nat.zero_le _) (List.mem_range.mp hindex) ?_
  rw [descriptionPlace, Nat.mul_comm]
  exact hword

/-- What the report makes of an option that the boot accepts. -/
theorem parseBbsOption_of_loadOption (h : LoadOption bytes characters) :
    parseBbsOption true bytes =
      if (wordsAt bytes loadOptionFixedBytes characters).any (· < 0x20) then .error .compromisedData
      else .ok (reportedOption bytes characters) := by
  have hoption := (loadOption_iff.mp h).1
  by_cases hhas : HasControl bytes characters
  · rw [parseBbsOption_control hoption hhas, if_pos]
    exact List.any_eq_true.mpr (by simpa [HasControl] using hhas)
  · rw [parseBbsOption_iff.mpr ⟨rfl, characters, hoption, hhas, rfl⟩, if_neg]
    simpa [HasControl] using hhas

theorem parseBbsOption_of_candidate {candidate : BootCandidate}
    (h : legacyBootParseLegacyBootOption allPools number bytes = .ok candidate) :
    ∃ text, 0 ∉ text ∧ candidate.description = some (terminated text) ∧
      parseBbsOption true bytes = if text.any (· < 0x20) then .error .compromisedData
        else .ok ⟨candidate.isActive, candidate.bbsDeviceType, terminated text⟩ := by
  obtain ⟨characters, hload, rfl⟩ := legacyBootParseLegacyBootOption_iff.mp h
  have hwords := words_eq_terminated hload.description
  refine ⟨wordsAt bytes loadOptionFixedBytes characters, zero_notMem_words hload.description,
    congrArg some hwords, ?_⟩
  rw [parseBbsOption_of_loadOption hload, reportedOption, hwords]
  rfl

/-- **The report and the boot on one option.** The report reads only inside the variable. Of an option that the boot
accepts it reads what the boot does, unless the description has a control character; and of what the report
accepts the boot accepts all but the options whose BBS string is unsound. -/
theorem bootOptions_agree (bytes : List UInt8) (number : UInt16) :
    (∀ granted, (peekParseBbsOption granted bytes.length).Within (InBytes bytes) (byteAt bytes)) ∧
    (∀ candidate, legacyBootParseLegacyBootOption allPools number bytes = .ok candidate →
      ∃ text, 0 ∉ text ∧ candidate.description = some (terminated text) ∧
        parseBbsOption true bytes = if text.any (· < 0x20) then .error .compromisedData
          else .ok ⟨candidate.isActive, candidate.bbsDeviceType, terminated text⟩) ∧
    ∀ option, parseBbsOption true bytes = .ok option →
      ∃ characters, GenericOption bytes characters ∧ option = reportedOption bytes characters ∧
        ((∃ candidate, legacyBootParseLegacyBootOption allPools number bytes = .ok candidate) ↔
          BbsStringSound (pathOf bytes characters)) := by
  refine ⟨fun granted => ?_, fun candidate => parseBbsOption_of_candidate, fun option hoption => ?_⟩
  · obtain ⟨result, hyields, -⟩ := @peekParseBbsOption_yields bytes granted
    exact hyields.within
  · obtain ⟨-, characters, hgeneric, -, rfl⟩ := parseBbsOption_iff.mp hoption
    refine ⟨characters, hgeneric, rfl, ⟨?_, fun hsound => ?_⟩⟩
    · rintro ⟨candidate, hcandidate⟩
      obtain ⟨characters', hload, -⟩ := legacyBootParseLegacyBootOption_iff.mp hcandidate
      obtain rfl : characters' = characters := hload.description.unique hgeneric.description
      exact (loadOption_iff.mp hload).2
    · have hload : LoadOption bytes characters := loadOption_iff.mpr ⟨hgeneric, hsound⟩
      exact ⟨_, legacyBootParseLegacyBootOption_iff.mpr ⟨characters, hload, rfl⟩⟩

end

/-! ### The texts -/

section

variable {text wanted needle : List UInt16}

theorem charToUpper_eq : charToUpper = legacyBootUnicodeUpperAscii := rfl

theorem unicodeString_terminated (htext : 0 ∉ text) : unicodeString (terminated text) = text := by
  have hkept : ∀ character ∈ text, (character != 0) = true := fun character hmem =>
    bne_iff_ne.mpr (ne_of_mem_of_not_mem hmem htext)
  rw [unicodeString, terminated, List.takeWhile_append_of_pos hkept]
  simp

theorem equalInsensitive_iff : equalInsensitive text wanted = true ↔ folded text = folded wanted := by
  induction text generalizing wanted with
  | nil =>
      cases wanted with
      | nil => exact iff_of_true rfl rfl
      | cons other wanted => exact iff_of_false Bool.false_ne_true (by simp [folded])
  | cons character text ih =>
      cases wanted with
      | nil => exact iff_of_false Bool.false_ne_true (by simp [folded])
      | cons other wanted =>
          rw [equalInsensitive, charToUpper_eq, Bool.and_eq_true, beq_iff_eq, ih, folded, folded, folded, folded,
            List.map_cons, List.map_cons, List.cons_eq_cons]

theorem infix_of_containsInsensitive (h : containsInsensitive text needle = true) :
    folded needle <:+: folded text := by
  unfold containsInsensitive at h
  split at h
  case isTrue => cases h
  case isFalse hsizes =>
    simp only [List.any_eq_true, List.all_eq_true, List.mem_range, beq_iff_eq, charToUpper_eq] at h
    obtain ⟨offset, hoffset, hhere⟩ := h
    refine List.infix_iff_getElem?.mpr ⟨offset, ?_, fun index hindex => ?_⟩
    · simp only [folded, List.length_map]
      omega
    · rw [folded, List.length_map] at hindex
      have hsame := hhere index hindex
      rw [getElem!_pos text _ (by omega), getElem!_pos needle _ hindex] at hsame
      simp only [folded, List.getElem_map, List.getElem?_map, Nat.add_comm index offset]
      rw [List.getElem?_eq_getElem (by omega), Option.map_some, hsame]

/-! ### The whole order -/

/-- The options that the report counts. -/
def ReportVariables.options (variables_ : ReportVariables) (words : List UInt16) : List BbsOption :=
  words.filterMap fun number => (variables_.optionOf number).toOption

theorem addOrder_eq {config : Option ProbeConfig} {variables_ : ReportVariables} {words : List UInt16}
    {summary : BootOptionProbeSummary} :
    summary.addOrder config variables_ words =
      { summary with
        genericBbsOptions := summary.genericBbsOptions + (variables_.options words).length
        activeGenericHardDiskOptions := summary.activeGenericHardDiskOptions +
          (variables_.options words).countP BbsOption.isActiveHardDisk
        configuredDescriptionMatches := summary.configuredDescriptionMatches +
          (variables_.options words).countP (·.isConfigured config)
        excludedDescriptionMatches := summary.excludedDescriptionMatches +
          (variables_.options words).countP (·.isExcluded config) } := by
  induction words generalizing summary with
  | nil => rfl
  | cons number words ih =>
      unfold BootOptionProbeSummary.addOrder ReportVariables.options
      rw [List.filterMap_cons]
      cases variables_.optionOf number with
      | error status => exact ih
      | ok option =>
          refine ih.trans ?_
          simp only [Except.toOption, List.length_cons, List.countP_cons, BootOptionProbeSummary.add,
            ReportVariables.options, BootOptionProbeSummary.mk.injEq, true_and]
          refine ⟨?_, ?_, ?_, ?_⟩ <;> omega

/-- What the report of an order counts. -/
theorem bootOptionsProbe_eq {config : Option ProbeConfig} {variables_ : ReportVariables} {bytes : List UInt8}
    (hread : variables_.bootOrder = .ok bytes) (hnonempty : bytes ≠ []) (heven : bytes.length % 2 = 0) :
    bootOptionsProbe config variables_ =
      (.success,
        { bootOrderStatus := .success
          bootOrderEntries := bytes.length / 2
          genericBbsOptions := (variables_.options (orderWords bytes)).length
          activeGenericHardDiskOptions :=
            (variables_.options (orderWords bytes)).countP BbsOption.isActiveHardDisk
          configuredDescriptionMatches := (variables_.options (orderWords bytes)).countP (·.isConfigured config)
          excludedDescriptionMatches := (variables_.options (orderWords bytes)).countP (·.isExcluded config) }) := by
  have hsound : ¬ (bytes.length = 0 ∨ bytes.length % 2 ≠ 0) := by
    simp [heven, hnonempty]
  unfold bootOptionsProbe
  rw [hread]
  dsimp only
  rw [if_neg hsound, addOrder_eq]
  simp only [Nat.zero_add]

/-- The variables as the boot reads them, with memory for every description. -/
def BootVariables.reported (store : BootVariables) : ReportVariables where
  bootOrder := store.bootOrder
  bootOption := store.bootOption
  granted := fun _ => true

/-- To be a control character does not depend on the case. -/
theorem control_upperAscii {character : UInt16} :
    legacyBootUnicodeUpperAscii character < 0x20 ↔ character < 0x20 := by
  unfold legacyBootUnicodeUpperAscii
  split
  case isTrue hlower =>
    have hlow : 97 ≤ character.toNat := UInt16.le_iff_toNat_le.mp hlower.1
    have hhigh : character.toNat ≤ 122 := UInt16.le_iff_toNat_le.mp hlower.2
    rw [UInt16.lt_iff_toNat_lt, UInt16.lt_iff_toNat_lt, UInt16.toNat_sub]
    change (2 ^ 16 - 32 + character.toNat) % 2 ^ 16 < 32 ↔ character.toNat < 32
    omega
  case isFalse => exact Iff.rfl

theorem control_of_folded (hsame : folded text = folded wanted)
    (hwanted : ∀ character ∈ wanted, ¬ character < 0x20) :
    text.any (· < 0x20) = false := by
  rw [List.any_eq_false]
  intro character hcharacter hcontrol
  have hmem : legacyBootUnicodeUpperAscii character ∈ folded wanted := hsame ▸ List.mem_map_of_mem hcharacter
  obtain ⟨other, hother, hupper⟩ := List.mem_map.mp hmem
  refine hwanted other hother (control_upperAscii.mp ?_)
  rw [hupper]
  exact control_upperAscii.mpr (of_decide_eq_true hcontrol)

/-- What is imported has no control characters. -/
theorem import_text {core : NcvConfigCore} {config : ProbeConfig} (h : probeConfigImportCore core = .ok config) :
    config.core = core ∧ ∀ character ∈ config.legacyOptionDescription, ¬ character < 0x20 := by
  obtain ⟨hcore, hoption, -⟩ := probeConfigImportCore_copies h
  obtain ⟨hprintable, hunits⟩ := copyAsciiToUnicode_eq_ok hoption
  refine ⟨hcore, fun character hcharacter => ?_⟩
  rw [hunits] at hcharacter
  obtain ⟨byte, hbyte, rfl⟩ := List.mem_map.mp hcharacter
  have hallowed := hprintable byte hbyte
  rw [isPrintable, Bool.and_eq_true, decide_eq_true_eq, decide_eq_true_eq, UInt8.le_iff_toNat_le] at hallowed
  rw [UInt16.lt_iff_toNat_lt, UInt8.toNat_toUInt16]
  exact Nat.not_lt.mpr hallowed.1

/-- What the report reads of an option that the boot has decoded. -/
theorem optionOf_reported {store : BootVariables} {number : UInt16} {candidate : BootCandidate}
    (hdecoded : store.candidateOf number = .ok candidate)
    (hdescription : candidate.description = some (terminated text))
    (hcontrol : text.any (· < 0x20) = false) :
    store.reported.optionOf number = .ok ⟨candidate.isActive, candidate.bbsDeviceType, terminated text⟩ := by
  unfold BootVariables.candidateOf at hdecoded
  cases hread : store.bootOption number with
  | error status =>
      rw [hread] at hdecoded
      dsimp only at hdecoded
      split_ifs at hdecoded
  | ok bytes =>
      rw [hread] at hdecoded
      obtain ⟨text', -, hdescription', hparse⟩ :=
        parseBbsOption_of_candidate (legacyBootParseLegacyBootOption_pools hdecoded)
      obtain rfl : text = text' := by
        rw [hdescription, Option.some_inj] at hdescription'
        exact List.append_cancel_right hdescription'
      have hoption : store.reported.optionOf number = parseBbsOption true bytes := by
        unfold ReportVariables.optionOf BootVariables.reported
        dsimp only
        rw [hread]
      rw [hoption, hparse, hcontrol]
      rfl

/-- What a search that succeeds has selected. -/
theorem configured_of_chosen {store : BootVariables} {request : DiscoverRequest} {answers : Nat → EfiStatus}
    {choice : BootChoice} {bytes : List UInt8} (hrequest : request.Valid)
    (hlog : ∀ n, MessageSucceeds (answers n)) (hread : store.bootOrder = .ok bytes)
    (hchosen : ((discoverBootCandidate store request).run answers choice).1 = .success) :
    Decisive store request bytes ∧ ∃ number ∈ orderWords bytes,
      Configured store request number ((discoverBootCandidate store request).run answers choice).2.selected := by
  have hends := (@discoverBootCandidate_wp store request bytes choice hrequest hread).run hlog
  have hdecisive : Decisive store request bytes := by_contra fun hunsound => (hends.2 hunsound).1 hchosen
  obtain ⟨-, -, -, candidate, hcandidate⟩ := (decisive_iff hrequest).mp hdecisive
  obtain ⟨number, hnumber, hfound⟩ := List.mem_filterMap.mp (hcandidate ▸ List.mem_singleton_self candidate)
  refine ⟨hdecisive, number, hnumber, ?_⟩
  rw [(hends.1 hdecisive).2, hcandidate]
  exact (configuredCandidate_iff hrequest).mp hfound

/-- **What boots is counted.** The option that the boot chooses for a configuration that names its description is
one that the report counts, as a match of that description, and not of the excluded one. So without a match in
the report the boot finds nothing. -/
theorem chosen_reported {core : NcvConfigCore} {config : ProbeConfig} {store : BootVariables}
    {answers : Nat → EfiStatus} {choice : BootChoice} {bytes : List UInt8} {isUsb : Bool}
    (himport : probeConfigImportCore core = .ok config) (hnamed : core.hasLegacyOptionDescription = true)
    (hrequest : (resolveDescriptions config isUsb).discoverRequest.Valid)
    (hlog : ∀ n, MessageSucceeds (answers n)) (hread : store.bootOrder = .ok bytes)
    (hchosen : ((discoverBootCandidate store (resolveDescriptions config isUsb).discoverRequest).run answers
      choice).1 = .success) :
    let selected := ((discoverBootCandidate store (resolveDescriptions config isUsb).discoverRequest).run answers
      choice).2.selected
    let report := bootOptionsProbe (some config) store.reported
    (∃ number ∈ orderWords bytes, ∃ option, store.reported.optionOf number = .ok option ∧
      selected.description = some option.description ∧ selected.bbsDeviceType = option.bbsDeviceType ∧
      option.active = true ∧ option.isConfigured (some config) = true ∧ option.isExcluded (some config) = false) ∧
    report.1 = .success ∧ 0 < report.2.configuredDescriptionMatches ∧
      report.2.excludedDescriptionMatches < report.2.genericBbsOptions := by
  intro selected report
  obtain ⟨hcore, htext⟩ := import_text himport
  obtain ⟨hdecisive, number, hnumber, hconfigured⟩ := configured_of_chosen hrequest hlog hread hchosen
  obtain ⟨text, hzero, hdescription, hwanted, hexcluded⟩ := hconfigured.description
  have hwantedText : (resolveDescriptions config isUsb).discoverRequest.legacyOptionDescription =
      config.legacyOptionDescription := by
    rw [ProbeConfig.discoverRequest, resolveDescriptions, hcore, hnamed, if_pos rfl]
  rw [hwantedText] at hwanted
  have hoption := optionOf_reported hconfigured.decoded hdescription (control_of_folded hwanted htext)
  have hmatches : BbsOption.isConfigured ⟨selected.isActive, selected.bbsDeviceType, terminated text⟩
      (some config) = true := by
    rw [BbsOption.isConfigured, Option.any_some, hcore, hnamed, Bool.true_and, unicodeString_terminated hzero]
    exact equalInsensitive_iff.mpr hwanted
  have hkept : BbsOption.isExcluded ⟨selected.isActive, selected.bbsDeviceType, terminated text⟩
      (some config) = false := by
    rw [BbsOption.isExcluded, Option.any_some, unicodeString_terminated hzero, Bool.and_eq_false_imp]
    intro hexclude
    rw [Bool.eq_false_iff]
    intro hcontains
    refine hexcluded ?_
    rw [ProbeConfig.discoverRequest, resolveDescriptions, hexclude, if_pos rfl]
    exact infix_of_containsInsensitive hcontains
  have hmem : (⟨selected.isActive, selected.bbsDeviceType, terminated text⟩ : BbsOption) ∈
      store.reported.options (orderWords bytes) :=
    List.mem_filterMap.mpr ⟨number, hnumber, by rw [hoption]; rfl⟩
  have hreport : report = _ := bootOptionsProbe_eq hread hdecisive.nonempty hdecisive.even
  refine ⟨⟨number, hnumber, _, hoption, hdescription, rfl, hconfigured.active, hmatches, hkept⟩, ?_⟩
  rw [hreport]
  refine ⟨rfl, List.countP_pos_iff.mpr ⟨_, hmem, hmatches⟩, ?_⟩
  refine lt_of_le_of_ne List.countP_le_length fun hall => ?_
  have hthis := List.countP_eq_length.mp hall _ hmem
  rw [hkept] at hthis
  cases hthis

/-- The configuration of `diskRequest`. -/
def diskConfigCore : NcvConfigCore :=
  { ncvConfigDefaults with
    hasLegacyOptionDescription := true
    legacyOptionDescription := ascii "d"
    hasExcludeDescription := true
    excludeDescription := ascii "X" }

def diskConfig : ProbeConfig where
  core := diskConfigCore
  name := []
  legacyOptionDescription := [0x64]
  excludeDescription := [0x58]
  targetBbsDescription := []

theorem chosen_reported_disk :
    0 < (bootOptionsProbe (some diskConfig) diskStore.reported).2.configuredDescriptionMatches := by
  have himport : probeConfigImportCore diskConfigCore = .ok diskConfig := by rfl
  have hrequest : (resolveDescriptions diskConfig false).discoverRequest = diskRequest := by rfl
  have hvalid : diskRequest.Valid := ⟨by decide, by decide, by decide, by decide⟩
  let answers : Nat → EfiStatus := fun _ => .success
  have hlog : ∀ n, MessageSucceeds (answers n) := fun _ => rfl
  have hends := (@discoverBootCandidate_wp diskStore diskRequest [1, 0] ⟨0, zeroCandidate⟩ hvalid rfl).run hlog
  have hchosen := (hends.1 diskStore_decisive).1
  rw [← hrequest] at hvalid hchosen
  exact (chosen_reported himport rfl hvalid hlog rfl hchosen).2.2.1

end

end CsmVgaSelector
