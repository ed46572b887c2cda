import CsmVgaSelector.Config.Candidate
import Mathlib.Data.List.TakeWhile

/-!
# The parser, line by line

The parser runs over bytes, and `parseRawLine` is what it does from one line feed to the next. A text is
read as the sequence of its lines (`foldlM_parseByte`), so that a statement about a text is an induction
over its lines.
-/

namespace CsmVgaSelector

variable {state : ParseState} {line rest text : Bytes}

/-- A bind that succeeds has succeeded in its first part. -/
theorem bind_eq_ok {ε α β : Type} {m : Except ε α} {k : α → Except ε β} {value : β}
    (h : m >>= k = .ok value) : ∃ first, m = .ok first ∧ k first = .ok value := by
  cases m with
  | error => cases h
  | ok first => exact ⟨first, rfl, h⟩

/-- A loop goes on from where its first part has come to. -/
theorem foldlM_append_ok {ε α σ : Type} {step : σ → α → Except ε σ} {items items' : List α}
    {before after : σ} (h : items.foldlM step before = .ok after) :
    (items ++ items').foldlM step before = items'.foldlM step after := by
  rw [List.foldlM_append, h]
  rfl

/-! ### The lines of a text -/

theorem linesOf_of_notMem (h : lineFeed ∉ line) (hne : line ≠ []) : linesOf line = [line] := by
  induction line with
  | nil => exact absurd rfl hne
  | cons character line ih =>
      rw [List.mem_cons, not_or] at h
      rw [linesOf, if_neg fun hfeed => h.1 hfeed.symm]
      by_cases hline : line = []
      · subst hline
        rfl
      · rw [ih h.2 hline]

theorem linesOf_cons (h : lineFeed ∉ line) :
    linesOf (line ++ lineFeed :: rest) = (line ++ [lineFeed]) :: linesOf rest := by
  induction line with
  | nil => rfl
  | cons character line ih =>
      rw [List.mem_cons, not_or] at h
      rw [List.cons_append, linesOf, if_neg fun hfeed => h.1 hfeed.symm, ih h.2]
      rfl

/-- A text is a last line without a line feed, or a line and a text. -/
theorem lines_cases (text : Bytes) :
    lineFeed ∉ text ∨ ∃ line rest, lineFeed ∉ line ∧ text = line ++ lineFeed :: rest := by
  by_cases hmem : lineFeed ∈ text
  · obtain ⟨line, rest, htext, hline⟩ := List.eq_append_cons_of_mem hmem
    exact .inr ⟨line, rest, hline, htext⟩
  · exact .inl hmem

@[elab_as_elim] theorem lines_induction {motive : Bytes → Prop} (text : Bytes)
    (nil : motive []) (last : ∀ line, lineFeed ∉ line → line ≠ [] → motive line)
    (cons : ∀ line rest, lineFeed ∉ line → motive rest → motive (line ++ lineFeed :: rest)) :
    motive text := by
  induction hlength : text.length using Nat.strong_induction_on generalizing text with
  | _ length ih =>
      rcases lines_cases text with hlast | ⟨line, rest, hline, rfl⟩
      · by_cases hempty : text = []
        · subst hempty
          exact nil
        · exact last text hlast hempty
      · refine cons line rest hline (ih rest.length ?_ rest rfl)
        simp only [List.length_append, List.length_cons] at hlength
        omega

/-- The lines of a text whose first part ends with a line feed, or is empty. -/
theorem linesOf_append {before : Bytes} (h : before = [] ∨ before.getLast? = some lineFeed) :
    linesOf (before ++ rest) = linesOf before ++ linesOf rest := by
  induction before using lines_induction with
  | nil => rfl
  | last line hline hne =>
      have hlast := h.resolve_left hne
      exact absurd (List.mem_of_getLast? hlast) hline
  | cons line before hline ih =>
      rw [List.append_assoc, List.cons_append, linesOf_cons hline, linesOf_cons hline,
        List.cons_append]
      by_cases hbefore : before = []
      · subst hbefore
        rfl
      · rw [ih (.inr ?_)]
        have hlast := h.resolve_left (by simp)
        rwa [List.getLast?_append_cons, List.getLast?_cons, Option.some.injEq,
          List.getLast?_eq_some_getLast hbefore, Option.getD_some, ← Option.some.injEq,
          ← List.getLast?_eq_some_getLast hbefore] at hlast

/-! ### What the parser makes of a line -/

/-- The characters the parser collects of a line. -/
def lineText (line : Bytes) : Bytes :=
  (line.takeWhile (· != lineFeed)).filter (· != carriageReturn)

/-- The line as the parser sees it. -/
def seenText (line : Bytes) : Bytes := trim (lineText line)

/-- The parser from the beginning of a line to its end. -/
def parseRawLine (state : ParseState) (line : Bytes) : Except NcvConfigResult ParseState :=
  if (lineText line).all isPrintable ∧ (lineText line).length < configMaxLineBytes then
    parseLine state (seenText line)
  else .error .compromisedData

theorem takeWhile_of_notMem {value : UInt8} (h : value ∉ text) :
    text.takeWhile (· != value) = text := by
  rw [List.takeWhile_eq_self_iff]
  intro character hcharacter
  simp only [bne_iff_ne, ne_eq]
  rintro rfl
  exact h hcharacter

theorem lineText_of_notMem (h : lineFeed ∉ line) :
    lineText line = line.filter (· != carriageReturn) := by
  rw [lineText, takeWhile_of_notMem h]

theorem lineText_concat (h : lineFeed ∉ line) : lineText (line ++ [lineFeed]) = lineText line := by
  rw [lineText, List.takeWhile_append_of_pos, List.takeWhile_cons_of_neg (by simp),
    List.append_nil, lineText_of_notMem h]
  intro character hcharacter
  simp only [bne_iff_ne, ne_eq]
  rintro rfl
  exact h hcharacter

/-- Characters that do not end the line are collected, unless one is refused. -/
theorem foldlM_parseByte_collect (h : lineFeed ∉ text)
    (hlength : state.line.length < configMaxLineBytes) :
    text.foldlM parseByte state =
      if (text.filter (· != carriageReturn)).all isPrintable ∧
          (state.line ++ text.filter (· != carriageReturn)).length < configMaxLineBytes then
        .ok { state with line := state.line ++ text.filter (· != carriageReturn) }
      else .error .compromisedData := by
  induction text generalizing state with
  | nil => simp [hlength, pure, Except.pure]
  | cons character text ih =>
      rw [List.mem_cons, not_or] at h
      rw [List.foldlM_cons]
      by_cases hreturn : character = carriageReturn
      · rw [parseByte, if_pos hreturn, List.filter_cons_of_neg (by simpa using hreturn)]
        exact ih h.2 hlength
      · rw [parseByte, if_neg hreturn, if_pos fun hfeed => h.1 hfeed.symm,
          List.filter_cons_of_pos (by simpa using hreturn)]
        by_cases hgood : isPrintable character = true ∧ state.line.length + 1 < configMaxLineBytes
        · rw [if_neg (by simpa [hgood.1] using hgood.2)]
          have hnext := @ih { state with line := state.line ++ [character] } h.2
            (by simpa using hgood.2)
          show List.foldlM parseByte { state with line := state.line ++ [character] } text = _
          simpa [hgood.1, List.append_assoc] using hnext
        · have hbad : (!isPrintable character) = true ∨
              state.line.length + 1 ≥ configMaxLineBytes := by
            by_cases hprintable : isPrintable character = true
            · exact .inr (by simpa [hprintable] using hgood)
            · exact .inl (by simpa using hprintable)
          rw [if_pos hbad, if_neg]
          · rfl
          · rintro ⟨hall, hshort⟩
            rw [List.all_cons, Bool.and_eq_true] at hall
            rw [List.length_append, List.length_cons] at hshort
            exact hgood ⟨hall.1, by omega⟩

/-- **From one line feed to the next the parser does one line.** -/
theorem foldlM_parseByte_line (h : lineFeed ∉ line) (hstate : state.line = []) :
    (line ++ [lineFeed]).foldlM parseByte state = parseRawLine state line := by
  rw [List.foldlM_append, foldlM_parseByte_collect h (by rw [hstate]; decide), hstate,
    List.nil_append, parseRawLine, lineText_of_notMem h]
  split
  case isTrue =>
    show parseByte _ lineFeed >>= pure = _
    rw [bind_pure, parseByte, if_neg (by decide), if_neg (by decide)]
    rw [seenText, lineText_of_notMem h]
    congr 1
    rw [← hstate]
  case isFalse => rfl

/-- No line is begun when a line has ended. -/
theorem parseLine_line {state' : ParseState} (h : parseLine state line = .ok state') :
    state'.line = state.line := by
  unfold parseLine at h
  split at h
  case h_1 => cases h; rfl
  case h_2 first _ =>
    by_cases hcomment : first = byte '#' ∨ first = byte ';'
    · rw [if_pos hcomment] at h
      cases h
      rfl
    · rw [if_neg hcomment] at h
      by_cases hheader : first = byte '['
      · rw [if_pos hheader, parseHeader] at h
        obtain ⟨header, -, h⟩ := bind_eq_ok h
        split at h <;> cases h
        rfl
      · rw [if_neg hheader, parseKeyValue] at h
        split at h
        case h_1 =>
          split at h
          · cases h
          · obtain ⟨config, -, h⟩ := bind_eq_ok h
            cases h
            rfl
        case h_2 => cases h

theorem parseRawLine_line {state' : ParseState} (h : parseRawLine state line = .ok state') :
    state'.line = state.line := by
  unfold parseRawLine at h
  split at h
  · exact parseLine_line h
  · cases h

theorem parseRawLine_concat (h : lineFeed ∉ line) :
    parseRawLine state (line ++ [lineFeed]) = parseRawLine state line := by
  rw [parseRawLine, parseRawLine, seenText, seenText, lineText_concat h]

/-- **A text is read line by line.** -/
theorem foldlM_parseByte (hstate : state.line = []) :
    (text ++ [lineFeed]).foldlM parseByte state = (linesOf text).foldlM parseRawLine state := by
  induction text using lines_induction generalizing state with
  | nil =>
      have hend : ([] ++ [lineFeed]).foldlM parseByte state = parseRawLine state [] :=
        foldlM_parseByte_line (by decide) hstate
      rw [hend]
      rfl
  | last line hline hne =>
      rw [foldlM_parseByte_line hline hstate, linesOf_of_notMem hline hne, List.foldlM_cons]
      exact (bind_pure _).symm
  | cons line rest hline ih =>
      have htext : line ++ lineFeed :: rest ++ [lineFeed] =
          (line ++ [lineFeed]) ++ (rest ++ [lineFeed]) := by simp
      rw [htext, List.foldlM_append, foldlM_parseByte_line hline hstate, linesOf_cons hline,
        List.foldlM_cons, parseRawLine_concat hline]
      cases hparse : parseRawLine state line with
      | error => rfl
      | ok state' => exact ih ((parseRawLine_line hparse).trans hstate)

theorem ncvParseConfigStrict_eq {config : NcvConfigCore} (hne : text ≠ []) :
    ncvParseConfigStrict text config = (linesOf text).foldlM parseRawLine (parseStart config) >>=
      fun state => finishConfig state.config := by
  rw [ncvParseConfigStrict, if_neg hne, foldlM_parseByte rfl]

/-! ### Active lines -/

/-- The parser acts on a trimmed line that is neither blank nor a comment. -/
def isActiveLine (line : Bytes) : Bool :=
  match line with
  | [] => false
  | first :: _ => first != byte '#' && first != byte ';'

theorem parseLine_of_inactive {state : ParseState} (h : isActiveLine line = false) :
    parseLine state line = .ok state := by
  cases line with
  | nil => rfl
  | cons first rest =>
      have hcomment : first = byte '#' ∨ first = byte ';' := by
        simpa [isActiveLine, ← not_or, or_iff_not_imp_left] using h
      exact if_pos hcomment

/-! ### Lines that are written -/

/-- A line the parser takes as it is written. -/
structure PlainLine (line : Bytes) : Prop where
  printable : line.all isPrintable = true
  short : line.length < configMaxLineBytes

theorem PlainLine.notMem (h : PlainLine line) {character : UInt8}
    (hcharacter : isPrintable character = false) : character ∉ line := by
  intro hmem
  have hprintable := List.all_eq_true.mp h.printable character hmem
  rw [hcharacter] at hprintable
  exact absurd hprintable (by decide)

theorem lineText_plain (h : PlainLine line) :
    lineText (line ++ [carriageReturn, lineFeed]) = line := by
  have hline : lineFeed ∉ line ++ [carriageReturn] := by
    simp [h.notMem (show isPrintable lineFeed = false by decide)]
    decide
  have hfilter : line.filter (· != carriageReturn) = line := by
    rw [List.filter_eq_self]
    intro character hcharacter
    rw [bne_iff_ne]
    rintro rfl
    exact h.notMem (by decide) hcharacter
  calc lineText (line ++ [carriageReturn, lineFeed])
    _ = lineText ((line ++ [carriageReturn]) ++ [lineFeed]) := by simp
    _ = (line ++ [carriageReturn]).filter (· != carriageReturn) := by
        rw [lineText_concat hline, lineText_of_notMem hline]
    _ = line := by rw [List.filter_append, hfilter]; simp

theorem parseRawLine_plain (h : PlainLine line) :
    parseRawLine state (line ++ [carriageReturn, lineFeed]) = parseLine state (trim line) := by
  rw [parseRawLine, seenText, lineText_plain h, if_pos ⟨h.printable, h.short⟩]

theorem linesOf_textOfLines {lines : List Bytes} (h : ∀ line ∈ lines, lineFeed ∉ line) :
    linesOf (textOfLines lines) = lines.map fun line => line ++ [carriageReturn, lineFeed] := by
  induction lines with
  | nil => rfl
  | cons line lines ih =>
      rw [List.forall_mem_cons] at h
      have hline : lineFeed ∉ line ++ [carriageReturn] := by simp [h.1]; decide
      have htext : textOfLines (line :: lines) =
          (line ++ [carriageReturn]) ++ lineFeed :: textOfLines lines := by
        simp [textOfLines]
      rw [htext, linesOf_cons hline, ih h.2]
      simp

/-- A text of plain lines is read as these lines. -/
theorem foldlM_textOfLines {lines : List Bytes} (h : ∀ line ∈ lines, PlainLine line) :
    (linesOf (textOfLines lines)).foldlM parseRawLine state =
      lines.foldlM (fun state line => parseLine state (trim line)) state := by
  rw [linesOf_textOfLines fun line hline => (h line hline).notMem (by decide), List.foldlM_map]
  induction lines generalizing state with
  | nil => rfl
  | cons line lines ih =>
      rw [List.forall_mem_cons] at h
      rw [List.foldlM_cons, List.foldlM_cons, parseRawLine_plain h.1]
      cases parseLine state (trim line) with
      | error => rfl
      | ok state' => exact ih h.2

end CsmVgaSelector
