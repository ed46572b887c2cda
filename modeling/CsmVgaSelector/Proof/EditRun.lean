import CsmVgaSelector.Proof.EditSync

/-!
# The editor's output, read back

`editorFollows` scans the text for the two places where a carriage return leads the editor astray. As long
as it finds none, the output reads as the source does with the targets replaced (`Follows`); after the
first, the description can only be written where the parser refuses it (`Spoiled`).
-/

namespace CsmVgaSelector

variable {reading reading' : Reading} {line : Bytes} {targets : EditTargets}
  {state state' : EditState} {output : Bytes}

/-! ### Texts that end with a line feed -/

/-- Every line of the text is finished. -/
def Closed (text : Bytes) : Prop := text = [] ∨ text.getLast? = some lineFeed

/-- One line of a text, with the line feed that ends it, if any. -/
def IsLine (line : Bytes) : Prop := linesOf line = [line]

theorem isLine_concat (h : lineFeed ∉ line) : IsLine (line ++ [lineFeed]) := linesOf_cons h

theorem isLine_last (h : lineFeed ∉ line) (hne : line ≠ []) : IsLine line := linesOf_of_notMem h hne

theorem notMem_return (h : lineFeed ∉ line) : lineFeed ∉ line ++ [carriageReturn] := by
  simp only [List.mem_append, List.mem_singleton, not_or]
  exact ⟨h, by decide⟩

theorem isLine_return (h : lineFeed ∉ line) : IsLine (line ++ [carriageReturn, lineFeed]) := by
  simpa using isLine_concat (notMem_return h)

theorem missingEnd_of_closed (h : Closed output) : missingEnd output = [] := by
  rw [missingEnd, if_neg]
  rintro ⟨hne, hlast⟩
  exact h.elim hne hlast

theorem Closed.concat (text : Bytes) : Closed (text ++ [lineFeed]) := .inr (by simp)

theorem Closed.ended (text : Bytes) : Closed (text ++ [carriageReturn, lineFeed]) := .inr (by simp)

theorem closed_missingEnd : Closed (output ++ missingEnd output) := by
  unfold missingEnd
  split
  case isTrue => exact Closed.ended output
  case isFalse hend =>
    rw [not_and_not_right] at hend
    rw [List.append_nil]
    by_cases hne : output = []
    · exact .inl hne
    · exact .inr (hend hne)

/-- The reading of a text. -/
abbrev Reads (text : Bytes) (reading : Reading) : Prop :=
  ReadsLines .start (linesOf text) reading

theorem reads_append_iff {more : Bytes} {after : Reading} (h : Closed output) :
    Reads (output ++ more) after ↔
      ∃ before, Reads output before ∧ ReadsLines before (linesOf more) after := by
  rw [Reads, linesOf_append h, ReadsLines.append_iff]

theorem reads_line_iff {after : Reading} (h : Closed output) (hline : IsLine line) :
    Reads (output ++ line) after ↔
      ∃ before, Reads output before ∧ LineOk line ∧ ReadsLine before (seenText line) after := by
  rw [reads_append_iff h, hline]
  simp only [ReadsLines.singleton_iff]

theorem lineText_return (h : lineFeed ∉ line) :
    lineText (line ++ [carriageReturn, lineFeed]) = lineText line := by
  have hline := notMem_return h
  calc lineText (line ++ [carriageReturn, lineFeed])
    _ = lineText ((line ++ [carriageReturn]) ++ [lineFeed]) := by simp
    _ = (line ++ [carriageReturn]).filter (· != carriageReturn) := by
        rw [lineText_concat hline, lineText_of_notMem hline]
    _ = lineText line := by rw [List.filter_append, lineText_of_notMem h]; simp

/-- Ending the last line changes nothing for the parser. -/
theorem readsLines_missingEnd {before after : Reading} {text : Bytes} :
    ReadsLines before (linesOf (text ++ missingEnd text)) after ↔
      ReadsLines before (linesOf text) after := by
  induction text using lines_induction generalizing before with
  | nil => rfl
  | last line hline hne =>
      have hmissing : missingEnd line = [carriageReturn, lineFeed] := by
        rw [missingEnd, if_pos]
        refine ⟨hne, fun hlast => hline (List.mem_of_getLast? hlast)⟩
      have hend : linesOf (line ++ [carriageReturn, lineFeed]) =
          [line ++ [carriageReturn, lineFeed]] := isLine_return hline
      rw [hmissing, hend, linesOf_of_notMem hline hne, ReadsLines.singleton_iff,
        ReadsLines.singleton_iff, LineOk, LineOk, seenText, seenText, lineText_return hline]
  | cons line rest hline ih =>
      have hmissing : missingEnd (line ++ lineFeed :: rest) = missingEnd rest := by
        by_cases hrest : rest = []
        · subst hrest
          simp [missingEnd]
        · simp only [missingEnd, hrest, List.getLast?_append_cons, List.getLast?_cons,
            List.getLast?_eq_some_getLast hrest, Option.getD_some, ne_eq, not_false_eq_true,
            true_and, List.append_eq_nil_iff, reduceCtorEq, and_false]
      rw [hmissing, List.append_assoc, List.cons_append, linesOf_cons hline, linesOf_cons hline]
      constructor
      · intro h
        cases h with
        | cons hok hstep hlines => exact .cons hok hstep (ih.mp hlines)
      · intro h
        cases h with
        | cons hok hstep hlines => exact .cons hok hstep (ih.mpr hlines)

theorem reads_missingEnd : Reads (output ++ missingEnd output) reading ↔ Reads output reading :=
  readsLines_missingEnd

/-! ### The lines that the editor writes -/

/-- Values that can stand on their lines. -/
structure EditTargets.Valid (targets : EditTargets) : Prop where
  word : ∀ key, Word (targets.value key)
  printable : ∀ key, ∀ character ∈ targets.value key, isPrintable character = true
  short : ∀ key, (targets.value key).length < 200
  accepts : ∀ key : TargetKey, key.setting.accepts (targets.value key) = true

/-- The line of a target. -/
def EditTargets.targetLine (targets : EditTargets) (key : TargetKey) : Bytes :=
  keyLine key.text (targets.value key)

theorem EditTargets.plainLine (h : targets.Valid) (key : TargetKey) :
    PlainLine (targets.targetLine key) := by
  have hkey : key.text.all isPrintable = true ∧ key.text.length ≤ 20 := by
    cases key <;> decide
  constructor
  · rw [targetLine, keyLine, List.all_append, Bool.and_eq_true, List.all_cons, Bool.and_eq_true]
    exact ⟨hkey.1, by decide, List.all_eq_true.mpr (h.printable key)⟩
  · have hshort := h.short key
    rw [targetLine, keyLine, List.length_append, List.length_cons]
    have hline : 221 < configMaxLineBytes := by decide
    omega

theorem EditTargets.lineOk (h : targets.Valid) (key : TargetKey) :
    LineOk (targets.targetLine key ++ [carriageReturn, lineFeed]) := by
  have hplain := targets.plainLine h key
  rw [LineOk, lineText_plain hplain]
  exact ⟨hplain.printable, hplain.short⟩

theorem TargetKey.word_text (key : TargetKey) : Word key.text := by
  cases key <;> exact ⟨by decide, by decide +kernel, by decide +kernel, by decide⟩

theorem EditTargets.seenText_line (h : targets.Valid) (key : TargetKey) :
    seenText (targets.targetLine key ++ [carriageReturn, lineFeed]) = targets.targetLine key := by
  rw [seenText, lineText_plain (targets.plainLine h key), targetLine,
    trim_keyLine key.word_text (h.word key)]

theorem EditTargets.gives (h : targets.Valid) (key : TargetKey) :
    GivesSetting (seenText (targets.targetLine key ++ [carriageReturn, lineFeed])) key.setting
      (targets.value key) := by
  rw [targets.seenText_line h key]
  have hword := key.word_text
  have hhead : (targets.targetLine key).head? = some (byte 'T') := by
    cases key <;> rfl
  have hactive : isActiveLine (targets.targetLine key) = true := by
    obtain ⟨rest, hrest⟩ := List.head?_eq_some_iff.mp hhead
    rw [hrest]
    rfl
  refine ⟨hactive, by rw [hhead]; decide, ?_, h.accepts key, (h.word key).ne_nil⟩
  rw [targetLine, splitEquals_keyLine hword.noEquals (h.word key).noEquals, hword.trim, (h.word key).trim,
    key.key_setting]

theorem EditTargets.isLine (h : targets.Valid) (key : TargetKey) :
    IsLine (targets.targetLine key ++ [carriageReturn, lineFeed]) :=
  isLine_return ((targets.plainLine h key).notMem (by decide))

/-! ### Runs -/

/-- The editor and the reading of its source, over some lines. -/
inductive JointRun (targets : EditTargets) :
    Reading → EditState → List Bytes → Reading → EditState → Prop where
  | nil (reading : Reading) (state : EditState) : JointRun targets reading state [] reading state
  | cons {reading reading' reading'' : Reading} {state state' state'' : EditState} {line : Bytes}
      {lines : List Bytes} (hclosed : Closed state.output) (hline : IsLine line) (hok : LineOk line)
      (hstep : JointStep targets reading state line reading' state')
      (hrun : JointRun targets reading' state' lines reading'' state'') :
      JointRun targets reading state (line :: lines) reading'' state''

theorem JointStep.closed
    (h : JointStep targets reading state (line ++ [lineFeed]) reading' state') :
    Closed state'.output := by
  cases h with
  | skip => simpa [EditState.copy] using Closed.concat (state.output ++ line)
  | hidden => simpa [EditState.copy] using Closed.concat (state.output ++ line)
  | header _ _ _ _ _ _ ended =>
      simpa [EditState.copy, EditState.inSection] using Closed.concat (ended.output ++ line)
  | replace key =>
      simpa [EditState.replace] using
        Closed.ended (state.output ++ keyLine key.text (targets.value key))
  | copy => simpa [EditState.copy] using Closed.concat (state.output ++ line)

/-- **The parser over the source and the editor over the source, line by line.** -/
theorem jointRun {capacity : Nat} {text : Bytes} (hreads : ReadsLines reading (linesOf text) reading')
    (h : (linesOf text).foldlM (editLine capacity targets) state = .ok state')
    (hclosed : Closed state.output) :
    JointRun targets reading state (linesOf text) reading' state' := by
  induction text using lines_induction generalizing reading state with
  | nil =>
      cases hreads
      obtain rfl := Except.ok.inj h
      exact .nil _ _
  | last line hline hne =>
      rw [linesOf_of_notMem hline hne] at hreads h ⊢
      obtain ⟨middle, hedit, h⟩ := bind_eq_ok h
      obtain rfl := Except.ok.inj h
      obtain ⟨hok, hstep⟩ := ReadsLines.singleton_iff.mp hreads
      exact .cons hclosed (isLine_last hline hne) hok (jointStep hstep hedit) (.nil _ _)
  | cons line rest hline ih =>
      rw [linesOf_cons hline] at hreads h ⊢
      obtain ⟨middle, hedit, h⟩ := bind_eq_ok h
      cases hreads with
      | cons hok hstep hlines =>
          have hjoint := jointStep hstep hedit
          exact .cons hclosed (isLine_concat hline) hok hjoint (ih hlines h hjoint.closed)

/-! ### Where the editor goes astray -/

/-- The line gives the description. -/
def describes (line : Bytes) : Bool :=
  isActiveLine (seenText line) &&
    (splitEquals (seenText line)).any fun pair => pair.1 == ascii "TargetBbsDescription"

/-- A carriage return hides the end of `[Boot]` before its description, or the key of the description. -/
def strays (inBoot described : Bool) (line : Bytes) : Bool :=
  inBoot && !described && (seenText line).head? == some (byte '[') && hiddenStart line ||
    describes line && (keyPart line).contains carriageReturn

/-- No line leads the editor astray. -/
def editorFollows : Bool → Bool → List Bytes → Bool
  | _, _, [] => true
  | inBoot, described, line :: lines =>
      let inBoot' :=
        if (seenText line).head? = some (byte '[') then seenText line == ascii "[Boot]" else inBoot
      !strays inBoot described line && editorFollows inBoot' (described || describes line) lines

def Reading.inBoot (reading : Reading) : Bool := reading.current == some .boot

def Reading.described (reading : Reading) : Bool := (reading.values .targetBbsDescription).isSome

theorem describes_header {header : NcvConfigSection} (h : seenText line = sectionHeader header) :
    describes line = false := by
  rw [describes, h]
  cases header <;> decide

theorem describes_setting {setting : Setting} {value : Bytes}
    (h : GivesSetting (seenText line) setting value) :
    describes line = (setting == .targetBbsDescription) := by
  rw [describes, h.active, h.split]
  revert h
  cases setting <;> exact fun _ => rfl

theorem isHeader_boot (header : NcvConfigSection) :
    (sectionHeader header == ascii "[Boot]") = (some header == some NcvConfigSection.boot) := by
  cases header <;> decide

theorem editorFollows_cons {lines : List Bytes}
    (h : ReadsLine reading (seenText line) reading') :
    editorFollows reading.inBoot reading.described (line :: lines) =
      (!strays reading.inBoot reading.described line &&
        editorFollows reading'.inBoot reading'.described lines) := by
  rw [editorFollows]
  cases h with
  | skip hskip =>
      have hdescribes : describes line = false := by rw [describes, hskip, Bool.false_and]
      rw [if_neg (not_header_of_inactive hskip), hdescribes, Bool.or_false]
  | header header hseen =>
      rw [if_pos (hseen ▸ head_sectionHeader header), describes_header hseen, Bool.or_false, hseen,
        isHeader_boot]
      rfl
  | setting setting value hgives =>
      rw [if_neg hgives.noHeader, describes_setting hgives]
      congr 2
      by_cases hsame : setting = .targetBbsDescription
      · subst hsame
        simp [Reading.described, Reading.give]
      · have hother : Setting.targetBbsDescription ≠ setting := fun heq => hsame heq.symm
        simp [Reading.described, Reading.give, Function.update_of_ne hother, hsame]

end CsmVgaSelector
