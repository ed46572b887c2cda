import CsmVgaSelector.Config.Edit
import CsmVgaSelector.Proof.Values

/-!
# Two readers of one line

The parser drops every carriage return of a line before it trims it; the editor trims carriage returns
only at the end. So they see the same line unless a carriage return stands further in, and what each of
them takes for a header or a key is put here in terms of the other.
-/

namespace CsmVgaSelector

variable {line text key value : Bytes}

/-- The line without the line feed that ends it. -/
def rawText (line : Bytes) : Bytes := line.takeWhile (· != lineFeed)

/-- What stands before the first equals sign. -/
def keyPart (line : Bytes) : Bytes := (rawText line).takeWhile (· != byte '=')

/-- The first character that is no blank is a carriage return. -/
def hiddenStart (line : Bytes) : Bool :=
  ((rawText line).dropWhile isSpace).head? == some carriageReturn

/-! ### Trimming -/

theorem mem_dropWhile_of_not {p : UInt8 → Bool} {character : UInt8}
    (hcharacter : p character = false) : character ∈ text.dropWhile p ↔ character ∈ text := by
  constructor
  · exact fun hmem => (List.dropWhile_suffix p).subset hmem
  · intro hmem
    rw [← List.takeWhile_append_dropWhile (p := p) (l := text), List.mem_append] at hmem
    rcases hmem with htaken | hdropped
    · have := List.mem_takeWhile_imp htaken
      rw [hcharacter] at this
      exact absurd this (by decide)
    · exact hdropped

theorem mem_rdropWhile_of_not {p : UInt8 → Bool} {character : UInt8}
    (hcharacter : p character = false) : character ∈ text.rdropWhile p ↔ character ∈ text := by
  rw [List.rdropWhile, List.mem_reverse, mem_dropWhile_of_not hcharacter, List.mem_reverse]

theorem mem_trim_of_not {character : UInt8} (hcharacter : isSpace character = false) :
    character ∈ trim text ↔ character ∈ text := by
  rw [trim, mem_rdropWhile_of_not hcharacter, mem_dropWhile_of_not hcharacter]

theorem trim_dropWhile : trim (text.dropWhile isSpace) = trim text := by
  rw [trim, trim, List.dropWhile_idempotent]

/-- Trimming at the end stops at a character that stays. -/
theorem rdropWhile_append_cons {p : UInt8 → Bool} {character : UInt8} {before after : Bytes}
    (hcharacter : p character = false) :
    ∃ rest, (before ++ character :: after).rdropWhile p = before ++ character :: rest := by
  induction after using List.reverseRecOn with
  | nil =>
      refine ⟨[], ?_⟩
      rw [List.rdropWhile_concat_neg]
      simp [hcharacter]
  | append_singleton after last ih =>
      by_cases hlast : p last = true
      · obtain ⟨rest, hrest⟩ := ih
        refine ⟨rest, ?_⟩
        rw [← List.cons_append, ← List.append_assoc, List.rdropWhile_concat_pos _ _ _ hlast, hrest]
      · refine ⟨after ++ [last], ?_⟩
        rw [← List.cons_append, ← List.append_assoc, List.rdropWhile_concat_neg _ _ _ hlast]

theorem dropWhile_append_cons {p : UInt8 → Bool} {character : UInt8} {before after : Bytes}
    (hcharacter : p character = false) :
    (before ++ character :: after).dropWhile p = before.dropWhile p ++ character :: after := by
  induction before with
  | nil => exact List.dropWhile_cons_of_neg (by simp [hcharacter])
  | cons first before ih =>
      by_cases hfirst : p first = true
      · rw [List.cons_append, List.dropWhile_cons_of_pos hfirst, List.dropWhile_cons_of_pos hfirst,
          ih]
      · rw [List.cons_append, List.dropWhile_cons_of_neg hfirst, List.dropWhile_cons_of_neg hfirst,
          List.cons_append]

/-- Trimming blanks and carriage returns, and then dropping carriage returns. -/
theorem filter_rdropWhile_isBlankEnd :
    (text.rdropWhile isBlankEnd).filter (· != carriageReturn) =
      (text.filter (· != carriageReturn)).rdropWhile isSpace := by
  induction text using List.reverseRecOn with
  | nil => rfl
  | append_singleton text last ih =>
      rw [List.filter_append]
      by_cases hreturn : last = carriageReturn
      · subst hreturn
        rw [List.rdropWhile_concat_pos _ _ _ (by decide), ih, List.filter_cons_of_neg (by simp),
          List.filter_nil, List.append_nil]
      · have hkept : [last].filter (· != carriageReturn) = [last] := by simp [hreturn]
        rw [hkept]
        by_cases hspace : isSpace last = true
        · rw [List.rdropWhile_concat_pos _ _ _ (by simp [isBlankEnd, hspace]),
            List.rdropWhile_concat_pos _ _ _ hspace, ih]
        · have hblank : ¬ isBlankEnd last = true := by simp [isBlankEnd, hreturn, hspace]
          rw [List.rdropWhile_concat_neg _ _ _ hblank, List.rdropWhile_concat_neg _ _ _ hspace,
            List.filter_append, hkept]

/-! ### Keys -/

theorem rawText_eq (h : byte '=' ∈ rawText line) :
    ∃ rest, rawText line = keyPart line ++ byte '=' :: rest ∧ byte '=' ∉ keyPart line := by
  have hnot : byte '=' ∉ keyPart line := by
    intro hmem
    have hne := List.mem_takeWhile_imp hmem
    exact absurd hne (by decide)
  have hsplit := List.takeWhile_append_dropWhile (p := (· != byte '=')) (l := rawText line)
  cases hdrop : (rawText line).dropWhile (· != byte '=') with
  | nil =>
      rw [hdrop, List.append_nil] at hsplit
      rw [← hsplit] at h
      exact absurd h hnot
  | cons first rest =>
      have hfirst : first = byte '=' := by
        have hhead := List.head?_dropWhile_not (· != byte '=') (rawText line)
        rw [hdrop] at hhead
        simpa using hhead
      rw [hdrop, hfirst] at hsplit
      exact ⟨rest, hsplit.symm, hnot⟩

/-- A line with an equals sign, as the editor sees it. -/
theorem editView_of_equals (h : byte '=' ∈ rawText line) :
    ∃ rest, editView line = (keyPart line).dropWhile isSpace ++ byte '=' :: rest := by
  obtain ⟨rest, hraw, -⟩ := rawText_eq h
  have hview : editView line = ((rawText line).dropWhile isSpace).rdropWhile isBlankEnd := rfl
  rw [hview, hraw, dropWhile_append_cons (by decide)]
  exact rdropWhile_append_cons (by decide)

/-- A line with an equals sign, as the parser sees it. -/
theorem seenText_of_equals (h : byte '=' ∈ rawText line) :
    ∃ rest, seenText line =
      ((keyPart line).filter (· != carriageReturn)).dropWhile isSpace ++ byte '=' :: rest := by
  obtain ⟨rest, hraw, -⟩ := rawText_eq h
  have hseen : seenText line =
      (((rawText line).filter (· != carriageReturn)).dropWhile isSpace).rdropWhile isSpace := rfl
  rw [hseen, hraw, List.filter_append, List.filter_cons_of_pos (by decide),
    dropWhile_append_cons (by decide)]
  exact rdropWhile_append_cons (by decide)

theorem mem_seenText_iff : byte '=' ∈ seenText line ↔ byte '=' ∈ rawText line := by
  rw [seenText, mem_trim_of_not (by decide)]
  show byte '=' ∈ (rawText line).filter _ ↔ _
  rw [List.mem_filter]
  exact and_iff_left (by decide)

theorem mem_editView_iff : byte '=' ∈ editView line ↔ byte '=' ∈ rawText line := by
  rw [editView, mem_rdropWhile_of_not (by decide), mem_dropWhile_of_not (by decide)]
  rfl

theorem takeWhile_append_equals {before rest : Bytes} (h : byte '=' ∉ before) :
    (before ++ byte '=' :: rest).takeWhile (· != byte '=') = before := by
  rw [List.takeWhile_append_of_pos, List.takeWhile_cons_of_neg (by simp), List.append_nil]
  intro character hcharacter
  rw [bne_iff_ne]
  rintro rfl
  exact h hcharacter

/-- The key of the parser. -/
theorem splitEquals_seenText (h : splitEquals (seenText line) = some (key, value)) :
    byte '=' ∈ rawText line ∧ key = trim ((keyPart line).filter (· != carriageReturn)) := by
  have hmem : byte '=' ∈ rawText line := by
    rw [← mem_seenText_iff]
    unfold splitEquals at h
    split at h
    case h_1 => cases h
    case h_2 _ hdrop =>
      by_contra hnot
      have hnil : (seenText line).dropWhile (· != byte '=') = [] := by
        rw [List.dropWhile_eq_nil_iff]
        intro character hcharacter
        rw [bne_iff_ne]
        rintro rfl
        exact hnot hcharacter
      rw [hnil] at hdrop
      cases hdrop
  refine ⟨hmem, ?_⟩
  obtain ⟨rest, hseen⟩ := seenText_of_equals hmem
  obtain ⟨-, -, hnot⟩ := rawText_eq hmem
  have hbefore : byte '=' ∉ ((keyPart line).filter (· != carriageReturn)).dropWhile isSpace := by
    intro hcontra
    exact hnot (List.mem_filter.mp ((List.dropWhile_suffix _).subset hcontra)).1
  unfold splitEquals at h
  split at h
  case h_1 => cases h
  case h_2 =>
    split at h
    · cases h
    · rw [hseen, takeWhile_append_equals hbefore, trim_dropWhile] at h
      exact (Prod.mk.inj (Option.some.inj h)).1.symm

/-- The key of the editor. -/
theorem editKey_editView {name : Bytes} (h : editKey (editView line) = some name) :
    byte '=' ∈ rawText line ∧ name = trim (keyPart line) := by
  unfold editKey at h
  split at h
  · cases h
  · rename_i hkey
    simp only [not_or, not_not] at hkey
    have hmem := mem_editView_iff.mp hkey.2.2.2
    obtain ⟨rest, hview⟩ := editView_of_equals hmem
    obtain ⟨-, -, hnot⟩ := rawText_eq hmem
    have hbefore : byte '=' ∉ (keyPart line).dropWhile isSpace := fun hcontra =>
      hnot ((List.dropWhile_suffix _).subset hcontra)
    rw [hview, takeWhile_append_equals hbefore] at h
    exact ⟨hmem, (Option.some.inj h).symm⟩

/-- A name with a carriage return is no name of the program. -/
theorem equalIgnoringCase_of_return {name expected : Bytes} (h : carriageReturn ∈ name)
    (hexpected : carriageReturn ∉ expected.map lowerCase) :
    equalIgnoringCase name expected = false := by
  by_contra hequal
  rw [Bool.not_eq_false, equalIgnoringCase, beq_iff_eq] at hequal
  have hmem : lowerCase carriageReturn ∈ name.map lowerCase := List.mem_map_of_mem h
  rw [hequal] at hmem
  exact hexpected hmem

theorem targetKey_plain (key : TargetKey) : carriageReturn ∉ key.text.map lowerCase := by
  cases key <;> decide

/-- A carriage return before the equals sign hides the key. -/
theorem editTarget_of_return {current : EditSection} (h : carriageReturn ∈ keyPart line) :
    editTarget current (editView line) = none := by
  unfold editTarget
  split
  case h_1 => rfl
  case h_2 name hname =>
    obtain ⟨-, rfl⟩ := editKey_editView hname
    have hreturn : carriageReturn ∈ trim (keyPart line) :=
      (mem_trim_of_not (by decide)).mpr h
    rw [List.find?_eq_none]
    intro key _
    simp [equalIgnoringCase_of_return hreturn (targetKey_plain key)]

theorem filter_of_notMem (h : carriageReturn ∉ text) :
    text.filter (· != carriageReturn) = text := by
  rw [List.filter_eq_self]
  intro character hcharacter
  rw [bne_iff_ne]
  rintro rfl
  exact h hcharacter

/-- Where no carriage return stands before the equals sign, both see the same beginning. -/
theorem head_of_notMem (hequals : byte '=' ∈ rawText line)
    (hreturn : carriageReturn ∉ keyPart line) :
    (editView line).head? = (seenText line).head? := by
  obtain ⟨rest, hview⟩ := editView_of_equals hequals
  obtain ⟨rest', hseen⟩ := seenText_of_equals hequals
  rw [filter_of_notMem hreturn] at hseen
  rw [hview, hseen]
  cases (keyPart line).dropWhile isSpace <;> rfl

/-- **The key of an active line, as the editor finds it.** -/
theorem editTarget_of_key {current : EditSection} (hactive : isActiveLine (seenText line) = true)
    (hsplit : splitEquals (seenText line) = some (key, value))
    (hreturn : carriageReturn ∉ keyPart line) :
    editTarget current (editView line) =
      TargetKey.all.find? fun target =>
        target.editSection == current && equalIgnoringCase key target.text := by
  obtain ⟨hequals, hkey⟩ := splitEquals_seenText hsplit
  have hhead := head_of_notMem hequals hreturn
  rw [filter_of_notMem hreturn] at hkey
  have hcomment : ¬ (editView line = [] ∨ (editView line).head? = some (byte '#') ∨
      (editView line).head? = some (byte ';') ∨ byte '=' ∉ editView line) := by
    have hmem : byte '=' ∈ editView line := mem_editView_iff.mpr hequals
    rw [hhead]
    rintro (hempty | hhash | hsemicolon | hnone)
    · rw [hempty] at hmem
      exact absurd hmem (by simp)
    · cases hseen : seenText line with
      | nil => simp [hseen] at hhash
      | cons first rest =>
          rw [hseen] at hactive hhash
          obtain rfl : first = byte '#' := by simpa using hhash
          cases hactive
    · cases hseen : seenText line with
      | nil => simp [hseen] at hsemicolon
      | cons first rest =>
          rw [hseen] at hactive hsemicolon
          obtain rfl : first = byte ';' := by simpa using hsemicolon
          cases hactive
    · exact hnone hmem
  have hname : editKey (editView line) =
      some (((editView line).takeWhile (· != byte '=')).rdropWhile isSpace) := if_neg hcomment
  obtain ⟨-, htrim⟩ := editKey_editView hname
  rw [htrim, ← hkey] at hname
  rw [editTarget, hname]

/-! ### Headers -/

/-- Where the line does not begin with a carriage return, the parser sees what the editor sees, less the
carriage returns. -/
theorem seenText_of_not_hidden (h : hiddenStart line = false) :
    seenText line = (editView line).filter (· != carriageReturn) := by
  have hseen : seenText line =
      (((rawText line).filter (· != carriageReturn)).dropWhile isSpace).rdropWhile isSpace := rfl
  have hview : editView line = ((rawText line).dropWhile isSpace).rdropWhile isBlankEnd := rfl
  have hdrop : ((rawText line).filter (· != carriageReturn)).dropWhile isSpace =
      ((rawText line).dropWhile isSpace).filter (· != carriageReturn) := by
    unfold hiddenStart at h
    generalize rawText line = raw at h
    induction raw with
    | nil => rfl
    | cons first raw ih =>
        by_cases hspace : isSpace first = true
        · have hkept : first ≠ carriageReturn := by
            rintro rfl
            exact absurd hspace (by decide)
          rw [List.dropWhile_cons_of_pos hspace] at h ⊢
          rw [List.filter_cons_of_pos (by simpa using hkept), List.dropWhile_cons_of_pos hspace]
          exact ih h
        · rw [List.dropWhile_cons_of_neg hspace] at h ⊢
          have hkept : first ≠ carriageReturn := by simpa using h
          rw [List.filter_cons_of_pos (by simpa using hkept), List.dropWhile_cons_of_neg hspace]
  rw [hseen, hdrop, hview, filter_rdropWhile_isBlankEnd]

/-- The editor sees the carriage return that a hidden line begins with. -/
theorem head_of_hidden (h : hiddenStart line = true) :
    ∀ character ∈ (editView line).head?, character = carriageReturn := by
  intro character hcharacter
  have hview : editView line = ((rawText line).dropWhile isSpace).rdropWhile isBlankEnd := rfl
  have hprefix : editView line <+: (rawText line).dropWhile isSpace :=
    hview ▸ List.rdropWhile_prefix _ _
  have hhead : ((rawText line).dropWhile isSpace).head? = some carriageReturn := by
    simpa [hiddenStart] using h
  obtain ⟨rest, hrest⟩ := List.head?_eq_some_iff.mp hcharacter
  obtain ⟨after, hafter⟩ := hprefix
  rw [hrest] at hafter
  rw [← hafter] at hhead
  exact Option.some.inj hhead

theorem getLast_editView (h : editView line ≠ []) :
    isBlankEnd ((editView line).getLast h) = false := by
  have hlast := List.rdropWhile_last_not isBlankEnd ((rawText line).dropWhile isSpace) h
  exact Bool.eq_false_iff.mpr hlast

/-- A header to the editor is a header to the parser. -/
theorem head_of_isEditHeader (h : isEditHeader (editView line) = true) :
    (seenText line).head? = some (byte '[') := by
  rw [isEditHeader, Bool.and_eq_true, beq_iff_eq] at h
  have hvisible : hiddenStart line = false := by
    by_contra hhidden
    have hreturn := head_of_hidden (Bool.not_eq_false _ ▸ hhidden) (byte '[') h.1
    exact absurd hreturn (by decide)
  rw [seenText_of_not_hidden hvisible]
  obtain ⟨rest, hview⟩ := List.head?_eq_some_iff.mp h.1
  rw [hview]
  rfl

/-- The editor's section of each of the parser's. -/
def NcvConfigSection.editSection : NcvConfigSection → EditSection
  | .video => .video
  | .boot => .boot
  | _ => .other

theorem sectionHeader_plain (current : NcvConfigSection) :
    (sectionHeader current).head? = some (byte '[') ∧
      (sectionHeader current).getLast? = some (byte ']') ∧ byte '=' ∉ sectionHeader current ∧
      carriageReturn ∉ sectionHeader current ∧
      editSectionOf (sectionHeader current) = current.editSection := by
  cases current <;> decide

theorem head_of_visible (h : hiddenStart line = false) :
    (editView line).head? ≠ some carriageReturn := by
  intro hhead
  have hview : editView line = ((rawText line).dropWhile isSpace).rdropWhile isBlankEnd := rfl
  have hprefix : editView line <+: (rawText line).dropWhile isSpace :=
    hview ▸ List.rdropWhile_prefix _ _
  obtain ⟨rest, hrest⟩ := List.head?_eq_some_iff.mp hhead
  obtain ⟨after, hafter⟩ := hprefix
  rw [hrest] at hafter
  rw [hiddenStart, ← hafter] at h
  exact absurd h (by simp)

/-- The editor sees the brackets of a header that is not hidden. -/
theorem brackets_of_header {current : NcvConfigSection}
    (hseen : seenText line = sectionHeader current) (hvisible : hiddenStart line = false) :
    ∃ name, editView line = byte '[' :: name ++ [byte ']'] := by
  obtain ⟨hfirst, hlast, -, -, -⟩ := sectionHeader_plain current
  have hfilter := seenText_of_not_hidden hvisible
  rw [hseen] at hfilter
  rw [hfilter] at hfirst hlast
  have hne : editView line ≠ [] := by
    intro hnil
    rw [hnil] at hfirst
    cases hfirst
  have hend : (editView line).getLast hne ≠ carriageReturn := by
    intro hcontra
    have hblank := getLast_editView hne
    rw [hcontra] at hblank
    exact absurd hblank (by decide)
  have hstart := head_of_visible hvisible
  generalize editView line = view at *
  obtain ⟨first, rest, rfl⟩ := List.exists_cons_of_ne_nil hne
  have hfirstKept : (first :: rest).filter (· != carriageReturn) =
      first :: rest.filter (· != carriageReturn) :=
    List.filter_cons_of_pos (by simpa using hstart)
  rw [hfirstKept, List.head?_cons, Option.some.injEq] at hfirst
  subst hfirst
  have hrest : rest ≠ [] := by
    rintro rfl
    exact absurd hlast (by decide)
  obtain ⟨name, last, rfl⟩ : ∃ name last, rest = name ++ [last] :=
    ⟨_, _, (List.dropLast_concat_getLast hrest).symm⟩
  have hlastKept : [last].filter (· != carriageReturn) = [last] :=
    List.filter_cons_of_pos (by simpa using hend)
  rw [← List.cons_append, List.filter_append, hlastKept, List.getLast?_concat,
    Option.some.injEq] at hlast
  exact ⟨name, by rw [← hlast]; rfl⟩

/-- The editor reads the name of a header that is not hidden, or finds a carriage return in it. -/
theorem isEditHeader_of_header {current : NcvConfigSection}
    (hseen : seenText line = sectionHeader current) (hvisible : hiddenStart line = false) :
    isEditHeader (editView line) = true ∧
      (editSectionOf (editView line) = current.editSection ∨
        editSectionOf (editView line) = .other) := by
  obtain ⟨name, hview⟩ := brackets_of_header hseen hvisible
  constructor
  · rw [isEditHeader, hview, List.getLast?_concat]
    rfl
  · by_cases hreturn : carriageReturn ∈ name
    · right
      have hname : ((editView line).drop 1).dropLast = name := by
        rw [hview]
        exact List.dropLast_concat
      rw [editSectionOf, hname, equalIgnoringCase_of_return hreturn (by decide),
        equalIgnoringCase_of_return hreturn (by decide)]
      rfl
    · left
      have hclean : carriageReturn ∉ editView line := by
        rw [hview]
        simp [hreturn]
        decide
      have hfilter := seenText_of_not_hidden hvisible
      rw [filter_of_notMem hclean, hseen] at hfilter
      rw [← hfilter]
      exact (sectionHeader_plain current).2.2.2.2

/-- A header, hidden or not, sets no target. -/
theorem editTarget_of_header {current : NcvConfigSection} {editSection : EditSection}
    (hseen : seenText line = sectionHeader current) :
    editTarget editSection (editView line) = none := by
  have hequals : byte '=' ∉ editView line := by
    rw [mem_editView_iff, ← mem_seenText_iff, hseen]
    exact (sectionHeader_plain current).2.2.1
  have hkey : editKey (editView line) = none := if_pos (.inr (.inr (.inr hequals)))
  rw [editTarget, hkey]

theorem isEditHeader_of_hidden (h : hiddenStart line = true) :
    isEditHeader (editView line) = false := by
  by_contra hheader
  rw [Bool.not_eq_false, isEditHeader, Bool.and_eq_true, beq_iff_eq] at hheader
  have hreturn := head_of_hidden h (byte '[') hheader.1
  exact absurd hreturn (by decide)

/-! ### Comments -/

/-- The editor copies what the parser passes over. -/
theorem edit_of_inactive {editSection : EditSection} (h : isActiveLine (seenText line) = false) :
    isEditHeader (editView line) = false ∧ editTarget editSection (editView line) = none := by
  constructor
  · by_contra hheader
    rw [Bool.not_eq_false] at hheader
    obtain ⟨rest, hseen⟩ := List.head?_eq_some_iff.mp (head_of_isEditHeader hheader)
    rw [hseen] at h
    cases h
  · by_cases hreturn : carriageReturn ∈ keyPart line
    · exact editTarget_of_return hreturn
    · have hkey : editKey (editView line) = none := by
        by_cases hequals : byte '=' ∈ rawText line
        · have hhead := head_of_notMem hequals hreturn
          have hcomment : (seenText line).head? = some (byte '#') ∨
              (seenText line).head? = some (byte ';') := by
            cases hseen : seenText line with
            | nil =>
                have hmem := mem_seenText_iff.mpr hequals
                rw [hseen] at hmem
                cases hmem
            | cons first rest =>
                rw [hseen] at h
                simpa [isActiveLine, ← not_or, or_iff_not_imp_left] using h
          rw [← hhead] at hcomment
          exact if_pos (.inr (hcomment.elim .inl fun hsemicolon => .inr (.inl hsemicolon)))
        · rw [← mem_editView_iff] at hequals
          exact if_pos (.inr (.inr (.inr hequals)))
      rw [editTarget, hkey]

end CsmVgaSelector
