import CsmVgaSelector.Report.Candidate
import Mathlib.Tactic.IntervalCases

/-!
# Whose words the report hears

The report looks at the beginnings of lines. The texts of the program begin their lines with words that
are no record names, so a text can start a record only where a firmware string inside it breaks the
line. Where none does, the report is deaf to the whole text; where one does, it hears the string.
-/

namespace CsmVgaSelector

variable {A : LogAnswer → Prop} {report : BootReport} {text inserted : Text}

/-- A line break in the text is followed by a record name. -/
def StartsRecord (text : Text) : Prop :=
  ∃ before after, text = before ++ newline :: after ∧ (recordName after).isSome = true

/-! ### Record names -/

theorem isPrefixOf_takeWhile {part line : Text}
    (hpart : ∀ character ∈ part, isTokenCharacter character = true) :
    part.isPrefixOf (line.takeWhile isTokenCharacter) = part.isPrefixOf line := by
  induction part generalizing line with
  | nil => rfl
  | cons character part ih =>
      cases line with
      | nil => rfl
      | cons first line =>
          by_cases hsame : character = first
          · subst hsame
            rw [List.takeWhile_cons_of_pos (hpart character (List.mem_cons_self ..))]
            simp [ih fun other hother => hpart other (List.mem_cons_of_mem _ hother)]
          · have hne : (character == first) = false := by simpa using hsame
            rw [List.takeWhile_cons]
            split <;> simp [List.isPrefixOf, hne]

/-- A record name is read off the token characters that the line begins with. -/
theorem recordName_congr {line line' : Text}
    (h : line.takeWhile isTokenCharacter = line'.takeWhile isTokenCharacter) :
    recordName line = recordName line' := by
  have hname : ∀ character ∈ ofString "NCV_", isTokenCharacter character = true :=
    List.all_eq_true.mp (by decide)
  have hprefix : (ofString "NCV_").isPrefixOf line = (ofString "NCV_").isPrefixOf line' := by
    rw [← isPrefixOf_takeWhile hname, h, isPrefixOf_takeWhile hname]
  simp only [recordName, h, hprefix]

/-- No record name runs past the end of a text that is followed by something else. -/
theorem recordName_append {after : Text} (line : Text)
    (hafter : after.takeWhile isTokenCharacter = []) :
    recordName (line ++ after) = recordName line := by
  refine recordName_congr ?_
  rw [List.takeWhile_append, hafter, List.append_nil]
  split
  case isTrue hall =>
    exact (List.takeWhile_prefix isTokenCharacter).eq_of_length hall |>.symm
  case isFalse => rfl

theorem startsRecord_cons {character : UInt16} : StartsRecord (character :: text) ↔
    character = newline ∧ (recordName text).isSome = true ∨ StartsRecord text := by
  constructor
  · rintro ⟨before, after, htext, hname⟩
    cases before with
    | nil =>
        obtain ⟨rfl, rfl⟩ := List.cons.inj htext
        exact .inl ⟨rfl, hname⟩
    | cons first before =>
        obtain ⟨-, rfl⟩ := List.cons.inj htext
        exact .inr ⟨before, after, rfl, hname⟩
  · rintro (⟨rfl, hname⟩ | ⟨before, after, rfl, hname⟩)
    · exact ⟨[], text, rfl, hname⟩
    · exact ⟨character :: before, after, rfl, hname⟩

theorem not_startsRecord_nil : ¬ StartsRecord [] := by
  rintro ⟨before, after, htext, -⟩
  simp at htext

/-- What stands before a line break starts nothing. -/
theorem startsRecord_append_of_notMem {before : Text} (h : newline ∉ before) :
    StartsRecord (before ++ text) ↔ StartsRecord text := by
  induction before with
  | nil => rfl
  | cons character before ih =>
      rw [List.mem_cons, not_or] at h
      rw [List.cons_append, startsRecord_cons, ih h.2, or_iff_right]
      exact fun hcharacter => h.1 hcharacter.1.symm

/-- A text followed by something that is no part of a name. -/
theorem startsRecord_append {after : Text} (hafter : after.takeWhile isTokenCharacter = []) :
    StartsRecord (text ++ after) ↔ StartsRecord text ∨ StartsRecord after := by
  induction text with
  | nil => simp [not_startsRecord_nil]
  | cons character text ih =>
      rw [List.cons_append, startsRecord_cons, startsRecord_cons, ih, recordName_append text hafter,
        or_assoc]

/-! ### What the report does not hear -/

/-- A line that begins with no record name is not heard. -/
theorem observeLine_of_none {line : Text} (h : recordName line = none) :
    report.observeLine line = report := by
  have hwarning (name : Text) (hname : (recordName name).isSome = true) :
      (name ++ [0x0D]).isPrefixOf line = false := by
    by_contra hline
    rw [Bool.not_eq_false, List.isPrefixOf_iff_prefix] at hline
    obtain ⟨rest, rfl⟩ := hline
    rw [List.append_assoc, recordName_append name (by simp [isTokenCharacter])] at h
    simp [h] at hname
  have hbbs : (ofString "NCV_DISK_FIRMWARE_WARNING_BBS\r").isPrefixOf line = false :=
    hwarning (ofString "NCV_DISK_FIRMWARE_WARNING_BBS") (by decide)
  have horder : (ofString "NCV_DISK_FIRMWARE_WARNING_ORDER\r").isPrefixOf line = false :=
    hwarning (ofString "NCV_DISK_FIRMWARE_WARNING_ORDER") (by decide)
  simp [BootReport.observeLine, h, hbbs, horder]

/-- Nothing is heard of a text that neither begins with a record name nor starts a record. -/
theorem observeFrom_of_not_startsRecord {atBeginning : Bool}
    (hbeginning : atBeginning = true → recordName text = none) (h : ¬ StartsRecord text) :
    BootReport.observeFrom atBeginning text report = report := by
  induction text generalizing atBeginning report with
  | nil => rfl
  | cons character rest ih =>
      rw [startsRecord_cons, not_or, not_and, Bool.not_eq_true, Option.isSome_eq_false_iff,
        Option.isNone_iff_eq_none] at h
      rw [BootReport.observeFrom, ih (fun hbreak => h.1 (by simpa using hbreak)) h.2]
      split
      case isTrue hline => exact observeLine_of_none (hbeginning hline)
      case isFalse => rfl

/-- A text that the report does not hear, whatever it has heard before. -/
structure Quiet (text : Text) : Prop where
  beginning : recordName text = none
  inside : ¬ StartsRecord text

theorem Quiet.observe (h : Quiet text) : bootReportObserve text report = report := by
  unfold bootReportObserve
  split
  · exact observeFrom_of_not_startsRecord (fun _ => h.beginning) h.inside
  · rfl

/-! ### The texts of the program -/

theorem recordName_of_head {character : UInt16} (hhead : text.head? = some character)
    (hcharacter : character ≠ 0x4E) : recordName text = none := by
  cases text with
  | nil => rfl
  | cons first rest =>
      obtain rfl : first = character := by simpa using hhead
      have hprefix : (ofString "NCV_").isPrefixOf (first :: rest) = false := by
        have hfirst : ((0x4E : UInt16) == first) = false := by simpa using hcharacter.symm
        show ((0x4E : UInt16) == first && _) = false
        rw [hfirst, Bool.false_and]
      simp [recordName, hprefix]

/-- A text around a firmware string starts what the string starts. -/
theorem startsRecord_around {before after : Text} (hbefore : newline ∉ before)
    (hafter : after.takeWhile isTokenCharacter = []) :
    StartsRecord (around before inserted after) ↔ StartsRecord inserted ∨ StartsRecord after := by
  rw [around, List.append_assoc, startsRecord_append_of_notMem hbefore, startsRecord_append hafter]

theorem notMem_digits {digits : List Nat} : newline ∉ digits.map digitText := by
  intro hmem
  obtain ⟨digit, -, hdigit⟩ := List.mem_map.mp hmem
  by_cases hlt : digit < 16
  · interval_cases digit <;> exact absurd hdigit (by decide)
  · have hlength : (ofString "0123456789ABCDEF").length = 16 := rfl
    rw [digitText, List.getD_eq_getElem?_getD, List.getElem?_eq_none (by omega)] at hdigit
    exact absurd hdigit (by decide)

theorem notMem_hexText {width value : Nat} : newline ∉ hexText width value := by
  intro hmem
  rcases List.mem_append.mp hmem with hzero | hdigit
  · exact absurd (List.eq_of_mem_replicate hzero) (by decide)
  · exact notMem_digits hdigit

theorem notMem_decimalText {value : Nat} : newline ∉ decimalText value := notMem_digits

theorem notMem_append {before after : Text} (hbefore : newline ∉ before)
    (hafter : newline ∉ after) : newline ∉ before ++ after := by
  rw [List.mem_append, not_or]
  exact ⟨hbefore, hafter⟩

theorem sanitizeCharacter_ne_newline (value : UInt8) :
    (sanitizeCharacter value).toUInt16 ≠ newline := by
  unfold sanitizeCharacter
  split
  case isTrue hprintable =>
    intro heq
    have hle := UInt8.le_iff_toNat_le.mp hprintable.1
    have hvalue := congrArg UInt16.toNat heq
    simp [newline] at hle hvalue
    omega
  case isFalse => decide

theorem notMem_sanitized {input : List UInt8} {outputBytes : Nat} :
    newline ∉ asciiText (legacyBootSanitizeAsciiForLog input outputBytes) := by
  intro hmem
  obtain ⟨byte, hbyte, hwide⟩ := List.mem_map.mp hmem
  obtain ⟨value, -, rfl⟩ := List.mem_map.mp (List.takeWhile_subset _ hbyte)
  exact sanitizeCharacter_ne_newline value hwide

/-! ### Programs that are not heard -/

theorem wp_logText_quiet (h : Quiet text) :
    (logText text).Wp A (fun _ report' => report' = report) report := by
  unfold logText
  simp only [Prog.wp_bind, Prog.wp_call]
  intro answer _
  exact .ite (fun _ => .pure rfl) fun _ => h.observe

theorem wp_logTexts_quiet {rest : List Text} (h : ∀ line ∈ text :: rest, Quiet line) :
    (logTexts text rest).Wp A (fun _ report' => report' = report) report := by
  induction rest generalizing text with
  | nil => exact wp_logText_quiet (h text (List.mem_cons_self ..))
  | cons next rest ih =>
      refine Prog.Wp.bind (wp_logText_quiet (h text (List.mem_cons_self ..))) ?_
      rintro status _ rfl
      exact .ite (fun _ => .pure rfl) fun _ => ih fun line hline => h line (List.mem_cons_of_mem _ hline)

/-! ### The texts without firmware strings -/

instance decidableStartsRecord : (text : Text) → Decidable (StartsRecord text)
  | [] => isFalse not_startsRecord_nil
  | _ :: text =>
      have := decidableStartsRecord text
      decidable_of_iff _ startsRecord_cons.symm

/-- A text that ends with words of the program, and has no line break before them. -/
theorem quiet_text {before : Text} {ending : String} {character : UInt16}
    (hbefore : newline ∉ before) (hending : ¬ StartsRecord (ofString ending))
    (hhead : (before ++ ofString ending).head? = some character) (hcharacter : character ≠ 0x4E) :
    Quiet (before ++ ofString ending) := by
  constructor
  · exact recordName_of_head hhead hcharacter
  · rwa [startsRecord_append_of_notMem hbefore]

theorem quiet_hexLine {label : String} {bytes : List UInt8} {line : Nat}
    (hlabel : newline ∉ ofString label) : Quiet (hexLine label bytes line) := by
  have hbytes : newline ∉ ((bytes.drop (line * 16)).take 16).flatMap fun byte =>
      ofString " " ++ hexText 2 byte.toNat := by
    intro hmem
    obtain ⟨byte, -, hbyte⟩ := List.mem_flatMap.mp hmem
    exact notMem_append (by decide) notMem_hexText hbyte
  refine quiet_text ?_ (by decide) rfl (by decide)
  refine notMem_append (notMem_append (notMem_append (notMem_append (notMem_append ?_ hlabel) ?_)
    notMem_hexText) ?_) hbytes
  all_goals decide

theorem quiet_bbsPathText (candidate : BootCandidate) : Quiet (bbsPathText candidate) := by
  refine quiet_text ?_ (by decide) rfl (by decide)
  refine notMem_append (notMem_append (notMem_append (notMem_append (notMem_append (notMem_append
    (notMem_append (notMem_append (notMem_append ?_ notMem_hexText) ?_) notMem_hexText) ?_)
    notMem_sanitized) ?_) notMem_hexText) ?_) notMem_hexText
  all_goals decide

theorem quiet_optionalDataText (candidate : BootCandidate) : Quiet (optionalDataText candidate) := by
  refine quiet_text ?_ (by decide) rfl (by decide)
  refine notMem_append (notMem_append (notMem_append ?_ notMem_hexText) ?_) notMem_hexText
  all_goals decide

theorem quiet_cannotPairText (candidate : BootCandidate) (context : BootTargetContext) :
    Quiet (cannotPairText candidate context) := by
  refine quiet_text ?_ (by decide) rfl (by decide)
  refine notMem_append (notMem_append (notMem_append (notMem_append (notMem_append (notMem_append
    (notMem_append ?_ notMem_hexText) ?_) notMem_decimalText) ?_) notMem_hexText) ?_) notMem_hexText
  all_goals decide

theorem quiet_statusDiffersText (context : BootTargetContext) :
    Quiet (statusDiffersText context) := by
  refine quiet_text ?_ (by decide) rfl (by decide)
  refine notMem_append (notMem_append (notMem_append (notMem_append (notMem_append (notMem_append
    (notMem_append ?_ notMem_hexText) ?_) notMem_hexText) ?_) notMem_decimalText) ?_) notMem_hexText
  all_goals decide

theorem quiet_ownedCopiesText (context : BootTargetContext) : Quiet (ownedCopiesText context) := by
  refine quiet_text ?_ (by decide) rfl (by decide)
  refine notMem_append (notMem_append (notMem_append (notMem_append (notMem_append (notMem_append
    (notMem_append (notMem_append (notMem_append ?_ notMem_hexText) ?_) notMem_hexText) ?_)
    notMem_hexText) ?_) notMem_hexText) ?_) notMem_hexText
  all_goals decide

/-! ### The texts with firmware strings -/

theorem notMem_candidatePrefix (candidate : BootCandidate) :
    newline ∉ ofString "  Boot" ++ hexText 4 candidate.number.toNat ++ ofString " active=" ++
      ofString (if candidate.isActive then "yes" else "no") ++ ofString " attributes=0x" ++
      hexText 8 candidate.attributes.toNat ++ ofString " description=\"" := by
  refine notMem_append (notMem_append (notMem_append (notMem_append (notMem_append (notMem_append ?_
    notMem_hexText) ?_) ?_) ?_) notMem_hexText) ?_
  case refine_3 => split <;> decide
  all_goals decide

theorem notMem_selectedPrefix (context : BootTargetContext) :
    newline ∉ selectedPrefix context := by
  refine notMem_append (notMem_append (notMem_append (notMem_append (notMem_append (notMem_append
    (notMem_append (notMem_append (notMem_append (notMem_append ?_ notMem_hexText) ?_)
    notMem_decimalText) ?_) notMem_hexText) ?_) notMem_hexText) ?_) notMem_hexText) ?_
  all_goals decide

theorem startsRecord_candidateText {candidate : BootCandidate} {description : List UInt16}
    (h : candidate.description = some description) :
    StartsRecord (candidateText candidate) ↔ StartsRecord (unicodeText description) := by
  rw [candidateText, startsRecord_around (notMem_candidatePrefix candidate) (by decide), h]
  exact or_iff_left (by decide)

theorem startsRecord_pathLine {pathText : Text} :
    StartsRecord (pathLine (some pathText)) ↔ StartsRecord pathText := by
  rw [pathLine, startsRecord_around (by decide) (by decide)]
  exact or_iff_left (by decide)

theorem startsRecord_selectedText {context : BootTargetContext} :
    StartsRecord (selectedText context) ↔
      StartsRecord (asciiText context.liveManufacturer) ∨
        StartsRecord (asciiText context.liveDescription) := by
  have hafter : ((around (ofString "\" description=\"") (asciiText context.liveDescription)
      (ofString "\"\r\n")).takeWhile isTokenCharacter) = [] := rfl
  rw [selectedText, startsRecord_around (notMem_selectedPrefix context) hafter,
    startsRecord_around (by decide) (by decide), or_iff_left (b := StartsRecord (ofString "\"\r\n"))]
  decide

theorem quiet_candidateText {candidate : BootCandidate} {description : List UInt16}
    (h : candidate.description = some description) (hquiet : ¬ StartsRecord (unicodeText description)) :
    Quiet (candidateText candidate) := by
  constructor
  · exact @recordName_of_head _ 0x20 rfl (by decide)
  · rwa [startsRecord_candidateText h]

theorem quiet_pathLine {pathText : Option Text} (h : ¬ StartsRecord (pathText.getD [])) :
    Quiet (pathLine pathText) := by
  constructor
  · exact @recordName_of_head _ 0x20 rfl (by decide)
  · cases pathText with
    | none => decide
    | some pathText => rwa [startsRecord_pathLine]

theorem quiet_selectedText {context : BootTargetContext}
    (hmanufacturer : ¬ StartsRecord (asciiText context.liveManufacturer))
    (hdescription : ¬ StartsRecord (asciiText context.liveDescription)) :
    Quiet (selectedText context) := by
  constructor
  · exact @recordName_of_head _ 0x53 rfl (by decide)
  · rw [startsRecord_selectedText, not_or]
    exact ⟨hmanufacturer, hdescription⟩

end CsmVgaSelector
