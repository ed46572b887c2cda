import CsmVgaSelector.Proof.EditFrame
import CsmVgaSelector.Proof.Values

/-!
# One edit after another

The editor finds every line it has written where it wrote it, so an edit of an edited text leaves nothing of
the first: along the source, the second edit of the text written so far is where an edit of the source to the
second targets is (`Retraces`).
-/

namespace CsmVgaSelector

variable {targets earlier later : EditTargets} {state first first' second second' : EditState}
  {line text output : Bytes} {key : TargetKey} {current : EditSection}

/-! ### The editor's own lines -/

/-- The values stay on their lines. -/
def EditTargets.OneLine (targets : EditTargets) : Prop := ∀ key, lineFeed ∉ targets.value key

/-- The line of a target, as it is written. -/
def EditTargets.writtenLine (targets : EditTargets) (key : TargetKey) : Bytes :=
  targets.targetLine key ++ [carriageReturn, lineFeed]

theorem EditTargets.OneLine.targetLine (h : targets.OneLine) (key : TargetKey) :
    lineFeed ∉ targets.targetLine key := by
  have hkey : lineFeed ∉ key.text := by
    cases key <;> decide
  rw [EditTargets.targetLine, keyLine, List.mem_append, List.mem_cons, not_or, not_or]
  exact ⟨hkey, by decide, h key⟩

theorem EditTargets.OneLine.isLine (h : targets.OneLine) (key : TargetKey) :
    IsLine (targets.writtenLine key) := isLine_return (h.targetLine key)

theorem rawText_return (h : lineFeed ∉ line) :
    rawText (line ++ [carriageReturn, lineFeed]) = line ++ [carriageReturn] := by
  have hreturn : line ++ [carriageReturn, lineFeed] = (line ++ [carriageReturn]) ++ [lineFeed] := by
    rw [List.append_assoc]
    rfl
  rw [rawText, hreturn, List.takeWhile_append_of_pos]
  · exact List.append_nil _
  · intro character hcharacter
    rw [bne_iff_ne]
    rintro rfl
    exact notMem_return h hcharacter

theorem keyPart_writtenLine (h : targets.OneLine) : keyPart (targets.writtenLine key) = key.text := by
  have hnot : byte '=' ∉ key.text := key.word_text.noEquals
  rw [keyPart, EditTargets.writtenLine, rawText_return (h.targetLine key), EditTargets.targetLine, keyLine,
    List.append_assoc]
  exact takeWhile_append_equals hnot

theorem editView_writtenLine (h : targets.OneLine) :
    ∃ rest, editView (targets.writtenLine key) = key.text ++ byte '=' :: rest := by
  have hmem : byte '=' ∈ rawText (targets.writtenLine key) := by
    rw [EditTargets.writtenLine, rawText_return (h.targetLine key), EditTargets.targetLine, keyLine]
    simp
  have hstart : key.text.dropWhile isSpace = key.text := by
    cases key <;> decide
  obtain ⟨rest, hview⟩ := editView_of_equals hmem
  rw [keyPart_writtenLine h, hstart] at hview
  exact ⟨rest, hview⟩

/-- The editor finds the line that it writes. -/
theorem editTarget_writtenLine (h : targets.OneLine) :
    isEditHeader (editView (targets.writtenLine key)) = false ∧
      editTarget key.editSection (editView (targets.writtenLine key)) = some key := by
  obtain ⟨rest, hview⟩ := @editView_writtenLine targets key h
  have hhead : (key.text ++ byte '=' :: rest).head? = some (byte 'T') := by
    cases key <;> rfl
  have hname : (key.text ++ byte '=' :: rest).takeWhile (· != byte '=') = key.text :=
    takeWhile_append_equals key.word_text.noEquals
  have hend : key.text.rdropWhile isSpace = key.text := by
    cases key <;> decide
  have hkey : editKey (key.text ++ byte '=' :: rest) = some key.text := by
    rw [editKey, hname, hend, if_neg]
    rw [hhead]
    simp only [List.mem_append, List.mem_cons, true_or, or_true, not_true_eq_false, or_false, not_or]
    exact ⟨by simp, by decide, by decide⟩
  rw [hview]
  constructor
  · rw [isEditHeader, hhead]
    rfl
  · rw [editTarget, hkey]
    cases key <;> decide

/-- The editor does not see a carriage return at the end of a line. -/
theorem editView_return (h : lineFeed ∉ line) : editView (line ++ [carriageReturn, lineFeed]) = editView line := by
  have hraw : rawText line = line := by
    rw [rawText, List.takeWhile_eq_self_iff]
    intro character hcharacter
    rw [bne_iff_ne]
    rintro rfl
    exact h hcharacter
  change ((rawText _).dropWhile isSpace).rdropWhile isBlankEnd =
    ((rawText line).dropWhile isSpace).rdropWhile isBlankEnd
  rw [rawText_return h, hraw, dropWhile_append_cons (by decide)]
  exact List.rdropWhile_concat_pos isBlankEnd _ carriageReturn rfl

theorem lineTarget_writtenLine (h : targets.OneLine) (hcurrent : key.editSection = current) :
    lineTarget current (targets.writtenLine key) = some key := by
  obtain ⟨hheader, htarget⟩ := @editTarget_writtenLine targets key h
  rw [lineTarget, hheader, if_neg Bool.false_ne_true, ← hcurrent, htarget]

theorem not_header_of_lineTarget (h : lineTarget current line = some key) :
    isEditHeader (editView line) = false := by
  by_contra hheader
  rw [lineTarget, if_pos (by simpa using hheader)] at h
  cases h

/-! ### One line again -/

theorem EditState.settle_settle : (state.settle targets).settle targets = state.settle targets := by
  by_cases hends : state.editSection = .boot ∧ TargetKey.targetBbsDescription ∉ state.seen
  · have happend : state.settle targets = state.append targets := if_pos hends
    rw [happend]
    exact settle_of_seen (List.mem_cons_self ..)
  · have hkeep : state.settle targets = state := if_neg hends
    rw [hkeep, hkeep]

theorem EditState.ready_ready : (state.ready targets line).ready targets line = state.ready targets line := by
  unfold ready
  split
  case isTrue => exact settle_settle
  case isFalse => rfl

theorem EditState.editSection_ready : (state.ready targets line).editSection = state.editSection := by
  unfold ready
  split
  case isTrue => exact editSection_settle
  case isFalse => rfl

/-- The section before a header ends once. -/
theorem rewriteLine_ready :
    rewriteLine targets (state.ready targets line) line = rewriteLine targets state line := by
  have hfresh : (∀ key ∈ lineTarget state.editSection line, key ∉ (state.ready targets line).seen) ↔
      ∀ key ∈ lineTarget state.editSection line, key ∉ state.seen := by
    refine forall₂_congr fun key hkey => ?_
    rw [EditState.ready, if_neg (Bool.eq_false_iff.mp (not_header_of_lineTarget hkey))]
  ext state'
  rw [rewriteLine_iff, rewriteLine_iff, EditState.ready_ready, EditState.editSection_ready, hfresh]

/-- The editor does with a line that it has rewritten what it does with the line. -/
theorem rewriteLine_rewrittenLine (h : earlier.OneLine) :
    rewriteLine later state (rewrittenLine earlier state.editSection line) = rewriteLine later state line := by
  cases hkey : lineTarget state.editSection line with
  | none => rw [rewrittenLine, hkey]
  | some key =>
      have hwritten : rewrittenLine earlier state.editSection line = earlier.writtenLine key := by
        rw [rewrittenLine, hkey]
        rfl
      have hkey' := lineTarget_writtenLine h (lineTarget_spec hkey).1
      ext state'
      rw [hwritten, rewriteLine_iff, rewriteLine_iff]
      simp only [rewrittenLine, hkey, hkey', sectionAfter, EditState.ready, not_header_of_lineTarget hkey,
        not_header_of_lineTarget hkey', Bool.false_eq_true, if_false]

/-! ### Along the source -/

/-- Where the second editor is on the source, it is again at the end of the first editor's output. -/
structure Retraces (later : EditTargets) (first second : EditState) : Prop where
  editSection : first.editSection = second.editSection
  seen : first.seen = second.seen
  again : (linesOf first.output).foldlM (rewriteLine later) editStart = some second

theorem Retraces.start : Retraces later editStart editStart := ⟨rfl, rfl, rfl⟩

/-- A line more of the first editor's output. -/
theorem again_append (hagain : (linesOf first.output).foldlM (rewriteLine later) editStart = some second)
    (hclosed : Closed first.output) (hline : IsLine line)
    (hwrite : rewriteLine later second line = some second') :
    (linesOf (first.output ++ line)).foldlM (rewriteLine later) editStart = some second' := by
  rw [linesOf_append hclosed, hline, List.foldlM_append, hagain]
  change [line].foldlM (rewriteLine later) second = _
  rw [List.foldlM_cons, hwrite]
  rfl

theorem closed_append (hline : line.getLast? = some lineFeed) : Closed (output ++ line) := by
  refine .inr ?_
  rw [List.getLast?_append, hline, Option.some_or]

theorem writtenLine_last : (targets.writtenLine key).getLast? = some lineFeed := by
  rw [EditTargets.writtenLine, List.getLast?_append]
  rfl

/-- The description is written where the other editor writes its own. -/
theorem Retraces.append (hfirst : earlier.OneLine) (h : Retraces later first second)
    (hclosed : Closed first.output) (hclosed' : Closed second.output) (hboot : first.editSection = .boot)
    (hmissing : .targetBbsDescription ∉ first.seen) :
    Retraces later (first.append earlier) (second.append later) where
  editSection := h.editSection
  seen := congrArg (TargetKey.targetBbsDescription :: ·) h.seen
  again := by
    have hkey : lineTarget second.editSection (earlier.writtenLine .targetBbsDescription) =
        some .targetBbsDescription :=
      lineTarget_writtenLine hfirst (h.editSection ▸ hboot.symm)
    have hheader := not_header_of_lineTarget hkey
    have hwrite : rewriteLine later second (earlier.writtenLine .targetBbsDescription) =
        some (second.append later) := by
      rw [rewriteLine_iff, hkey]
      constructor
      · rintro _ ⟨⟩
        exact h.seen ▸ hmissing
      · simp only [rewrittenLine, hkey, sectionAfter, EditState.ready, hheader, Bool.false_eq_true, if_false,
          EditState.append, missingEnd_of_closed hclosed', List.append_nil]
        rfl
    have hagain := again_append h.again hclosed (hfirst.isLine _) hwrite
    change (linesOf (first.output ++ missingEnd first.output ++
      earlier.writtenLine .targetBbsDescription)).foldlM _ _ = _
    rw [missingEnd_of_closed hclosed, List.append_nil]
    exact hagain

theorem Retraces.settle (hfirst : earlier.OneLine) (h : Retraces later first second)
    (hclosed : first.editSection = .boot → .targetBbsDescription ∉ first.seen →
      Closed first.output ∧ Closed second.output) :
    Retraces later (first.settle earlier) (second.settle later) := by
  by_cases hends : first.editSection = .boot ∧ TargetKey.targetBbsDescription ∉ first.seen
  · obtain ⟨hboot, hmissing⟩ := hends
    obtain ⟨hfirstClosed, hsecondClosed⟩ := hclosed hboot hmissing
    have hboot' : second.editSection = .boot := h.editSection ▸ hboot
    have hmissing' : .targetBbsDescription ∉ second.seen := h.seen ▸ hmissing
    rw [EditState.settle_of_missing hboot hmissing, EditState.settle_of_missing hboot' hmissing']
    exact h.append hfirst hfirstClosed hsecondClosed hboot hmissing
  · have hends' : ¬(second.editSection = .boot ∧ TargetKey.targetBbsDescription ∉ second.seen) := by
      rwa [← h.editSection, ← h.seen]
    have hkeep : first.settle earlier = first := if_neg hends
    have hkeep' : second.settle later = second := if_neg hends'
    rwa [hkeep, hkeep']

theorem closed_settle (h : Closed state.output) : Closed (state.settle targets).output := by
  by_cases hends : state.editSection = .boot ∧ TargetKey.targetBbsDescription ∉ state.seen
  · rw [EditState.settle_of_missing hends.1 hends.2]
    exact closed_append (@writtenLine_last targets .targetBbsDescription)
  · have hkeep : state.settle targets = state := if_neg hends
    rwa [hkeep]

theorem closed_ready (h : Closed state.output) : Closed (state.ready targets line).output := by
  unfold EditState.ready
  split
  case isTrue => exact closed_settle h
  case isFalse => exact h

theorem Retraces.ready (hfirst : earlier.OneLine) (h : Retraces later first second)
    (hclosed : Closed first.output) (hclosed' : Closed second.output) :
    Retraces later (first.ready earlier line) (second.ready later line) := by
  unfold EditState.ready
  split
  case isTrue => exact h.settle hfirst fun _ _ => ⟨hclosed, hclosed'⟩
  case isFalse => exact h

theorem isLine_rewrittenLine (h : targets.OneLine) (hline : IsLine line) :
    IsLine (rewrittenLine targets current line) := by
  unfold rewrittenLine
  split
  case h_1 key _ => exact h.isLine key
  case h_2 => exact hline

/-- **One line of the source.** The editors take it together, and the second is at the end of the first one's
output again. -/
theorem Retraces.step (hfirst : earlier.OneLine) (h : Retraces later first second)
    (hclosed : Closed first.output) (hclosed' : Closed second.output) (hline : IsLine line)
    (hrun : rewriteLine earlier first line = some first') :
    ∃ second', rewriteLine later second line = some second' ∧ Retraces later first' second' := by
  have hready : Retraces later (first.ready earlier line) (second.ready later line) :=
    h.ready hfirst hclosed hclosed'
  obtain ⟨hfresh, hfirst'⟩ := rewriteLine_iff.mp hrun
  obtain ⟨second', hsecond⟩ : ∃ second', rewriteLine later second line = some second' := by
    refine ⟨_, rewriteLine_iff.mpr ⟨?_, rfl⟩⟩
    rwa [← h.editSection, ← h.seen]
  obtain ⟨-, hsecond'⟩ := rewriteLine_iff.mp hsecond
  refine ⟨second', hsecond, ?_, ?_, ?_⟩
  · rw [hfirst', hsecond', h.editSection]
  · rw [hfirst', hsecond', h.editSection, hready.seen]
  · have hwrite : rewriteLine later (second.ready later line)
        (rewrittenLine earlier first.editSection line) = some second' := by
      have hsection : first.editSection = (second.ready later line).editSection := by
        rw [EditState.editSection_ready, h.editSection]
      rw [hsection, rewriteLine_rewrittenLine hfirst, rewriteLine_ready, hsecond]
    rw [hfirst']
    exact again_append hready.again (closed_ready hclosed) (isLine_rewrittenLine hfirst hline) hwrite

/-- A line that ends with a line feed ends with one in the output. -/
theorem closed_rewriteLine (hline : line.getLast? = some lineFeed)
    (h : rewriteLine targets state line = some state') : Closed state'.output := by
  obtain ⟨-, rfl⟩ := rewriteLine_iff.mp h
  refine closed_append ?_
  unfold rewrittenLine
  split
  case h_1 => exact writtenLine_last
  case h_2 => exact hline

/-- The end of the text. -/
theorem Retraces.finish (hfirst : earlier.OneLine) (h : Retraces later first second)
    (hclosed : first.editSection = .boot → .targetBbsDescription ∉ first.seen →
      Closed first.output ∧ Closed second.output)
    (hrun : first.finish earlier = some output) :
    ∃ output', second.finish later = some output' ∧ rewritten later (linesOf output) = some output' := by
  have hsettled := h.settle hfirst hclosed
  obtain ⟨rfl, hall⟩ := finish_eq_some hrun
  have hall' : TargetKey.all.all (· ∈ (second.settle later).seen) = true := by
    rw [← hsettled.seen, List.all_eq_true]
    exact fun key _ => decide_eq_true (hall key)
  refine ⟨(second.settle later).output, if_pos hall', ?_⟩
  rw [rewritten, hsettled.again]
  change (second.settle later).finish later = _
  rw [EditState.finish, EditState.settle_settle]
  exact if_pos hall'

/-- A line that is copied, with the line end that it lacks. -/
theorem rewriteLine_return (hline : lineFeed ∉ line) (hkey : lineTarget state.editSection line = none)
    (h : rewriteLine targets state line = some state') :
    rewriteLine targets state (line ++ [carriageReturn, lineFeed]) =
      some (state'.copy [carriageReturn, lineFeed]) := by
  have hview := editView_return hline
  have hkey' : lineTarget state.editSection (line ++ [carriageReturn, lineFeed]) = none := by
    rw [lineTarget, hview]
    exact hkey
  obtain ⟨-, rfl⟩ := rewriteLine_iff.mp h
  rw [rewriteLine_iff]
  constructor
  · rw [hkey']
    rintro _ ⟨⟩
  · simp only [rewrittenLine, hkey, hkey', sectionAfter, EditState.ready, hview, EditState.copy,
      List.append_assoc]

/-- A line that is copied without a line feed leaves the output without one. -/
theorem missingEnd_rewriteLine (hline : lineFeed ∉ line) (hne : line ≠ [])
    (hkey : lineTarget state.editSection line = none) (h : rewriteLine targets state line = some state') :
    missingEnd state'.output = [carriageReturn, lineFeed] := by
  obtain ⟨-, rfl⟩ := rewriteLine_iff.mp h
  rw [rewrittenLine, hkey]
  refine if_pos ⟨List.append_ne_nil_of_right_ne_nil _ hne, fun hlast => hline ?_⟩
  rw [List.getLast?_append_of_ne_nil _ hne] at hlast
  exact List.mem_of_getLast? hlast

/-- The description brings the line end that the output lacks. -/
theorem finish_copy (hboot : state.editSection = .boot) (hmissing : .targetBbsDescription ∉ state.seen)
    (hopen : missingEnd state.output = [carriageReturn, lineFeed]) :
    (state.copy [carriageReturn, lineFeed]).finish targets = state.finish targets := by
  have hclosed : missingEnd (state.output ++ [carriageReturn, lineFeed]) = [] :=
    missingEnd_of_closed (.ended _)
  have hcopy : (state.copy [carriageReturn, lineFeed]).settle targets =
      (state.copy [carriageReturn, lineFeed]).append targets :=
    EditState.settle_of_missing hboot hmissing
  have hsettle : (state.copy [carriageReturn, lineFeed]).settle targets = state.settle targets := by
    rw [hcopy, EditState.settle_of_missing hboot hmissing]
    simp only [EditState.append, EditState.copy, hclosed, hopen, List.append_nil]
  rw [EditState.finish, EditState.finish, hsettle]

/-- **A last line without a line feed.** Where the description is missing at the end, the line is as good as
one with the line end that the description brings. -/
theorem Retraces.last (hfirst : earlier.OneLine) (h : Retraces later first second)
    (hclosed : Closed first.output) (hclosed' : Closed second.output) (hline : lineFeed ∉ line)
    (hne : line ≠ []) (hwrite : rewriteLine earlier first line = some first')
    (hrun : first'.finish earlier = some output) :
    ∃ output', (rewriteLine later second line).bind (·.finish later) = some output' ∧
      rewritten later (linesOf output) = some output' := by
  obtain ⟨second', hwrite', hstep⟩ := h.step hfirst hclosed hclosed' (isLine_last hline hne) hwrite
  rw [hwrite', Option.bind_some]
  by_cases hkey : lineTarget first.editSection line = none
  swap
  · -- the line is replaced, with a line end
    obtain ⟨key, hkey⟩ := Option.ne_none_iff_exists'.mp hkey
    have hkey' : lineTarget second.editSection line = some key := h.editSection ▸ hkey
    obtain ⟨-, rfl⟩ := rewriteLine_iff.mp hwrite
    obtain ⟨-, rfl⟩ := rewriteLine_iff.mp hwrite'
    refine hstep.finish hfirst (fun _ _ => ⟨closed_append ?_, closed_append ?_⟩) hrun
    · rw [rewrittenLine, hkey]
      exact writtenLine_last
    · rw [rewrittenLine, hkey']
      exact writtenLine_last
  by_cases hends : first'.editSection = .boot ∧ TargetKey.targetBbsDescription ∉ first'.seen
  swap
  · exact hstep.finish hfirst (fun hboot hmissing => absurd ⟨hboot, hmissing⟩ hends) hrun
  obtain ⟨hboot, hmissing⟩ := hends
  have hboot' : second'.editSection = .boot := hstep.editSection ▸ hboot
  have hmissing' : .targetBbsDescription ∉ second'.seen := hstep.seen ▸ hmissing
  have hkey' : lineTarget second.editSection line = none := h.editSection ▸ hkey
  have hreturn := rewriteLine_return hline hkey hwrite
  have hreturn' := rewriteLine_return hline hkey' hwrite'
  have hlast : (line ++ [carriageReturn, lineFeed]).getLast? = some lineFeed := by
    rw [List.getLast?_append]
    rfl
  have hended : Retraces later (first'.copy [carriageReturn, lineFeed])
      (second'.copy [carriageReturn, lineFeed]) := by
    obtain ⟨_, hother, hended⟩ := h.step hfirst hclosed hclosed' (isLine_return hline) hreturn
    rw [hreturn', Option.some.injEq] at hother
    rwa [hother]
  have hopen := missingEnd_rewriteLine hline hne hkey hwrite
  have hopen' := missingEnd_rewriteLine hline hne hkey' hwrite'
  rw [← finish_copy hboot hmissing hopen] at hrun
  rw [← finish_copy hboot' hmissing' hopen']
  exact hended.finish hfirst
    (fun _ _ => ⟨closed_rewriteLine hlast hreturn, closed_rewriteLine hlast hreturn'⟩) hrun

/-- **The rest of the source.** -/
theorem Retraces.run (hfirst : earlier.OneLine) (h : Retraces later first second)
    (hclosed : Closed first.output) (hclosed' : Closed second.output)
    (hrun : ((linesOf text).foldlM (rewriteLine earlier) first).bind (·.finish earlier) = some output) :
    ∃ output', ((linesOf text).foldlM (rewriteLine later) second).bind (·.finish later) = some output' ∧
      rewritten later (linesOf output) = some output' := by
  induction text using lines_induction generalizing first second with
  | nil => exact h.finish hfirst (fun _ _ => ⟨hclosed, hclosed'⟩) hrun
  | last line hline hne =>
      rw [linesOf_of_notMem hline hne, List.foldlM_cons, Option.bind_eq_bind, Option.bind_assoc] at hrun ⊢
      obtain ⟨first', hwrite, hfinish⟩ := Option.bind_eq_some_iff.mp hrun
      exact h.last hfirst hclosed hclosed' hline hne hwrite hfinish
  | cons line rest hline ih =>
      rw [linesOf_cons hline, List.foldlM_cons, Option.bind_eq_bind, Option.bind_assoc] at hrun ⊢
      obtain ⟨first', hwrite, hrest⟩ := Option.bind_eq_some_iff.mp hrun
      obtain ⟨second', hwrite', hstep⟩ := h.step hfirst hclosed hclosed' (isLine_concat hline) hwrite
      rw [hwrite']
      exact ih hstep (closed_rewriteLine List.getLast?_concat hwrite)
        (closed_rewriteLine List.getLast?_concat hwrite') hrest

/-- **Edits overwrite.** -/
theorem rewritten_twice (hfirst : earlier.OneLine)
    (h : rewritten earlier (linesOf text) = some output) :
    ∃ output', rewritten later (linesOf text) = some output' ∧
      rewritten later (linesOf output) = some output' :=
  Retraces.start.run hfirst (.inl rfl) (.inl rfl) h

/-! ### Enough room -/

/-- The room for the targets that are still to be written. -/
def EditTargets.room (targets : EditTargets) (seen : List TargetKey) : Nat :=
  (TargetKey.all.map fun key => if key ∈ seen then 0 else (targets.writtenLine key).length + 2).sum

theorem EditTargets.length_writtenLine :
    (targets.writtenLine key).length = key.text.length + (targets.value key).length + 3 := by
  simp only [writtenLine, targetLine, keyLine, List.length_append, List.length_cons, List.length_nil]
  omega

theorem EditTargets.room_cons {seen : List TargetKey} (h : key ∉ seen) :
    targets.room (key :: seen) + ((targets.writtenLine key).length + 2) = targets.room seen := by
  simp only [room, TargetKey.all, List.map_cons, List.map_nil, List.sum_cons, List.sum_nil, List.mem_cons]
  cases key <;> simp only [h, reduceCtorEq, true_or, false_or, if_true, if_false] <;> omega

theorem length_missingEnd : (missingEnd output).length ≤ 2 := by
  unfold missingEnd
  split
  · exact Nat.le_refl _
  · exact Nat.zero_le _

theorem length_settle : (state.settle targets).output.length + targets.room (state.settle targets).seen ≤
    state.output.length + targets.room state.seen := by
  by_cases hends : state.editSection = .boot ∧ TargetKey.targetBbsDescription ∉ state.seen
  · have hroom := @EditTargets.room_cons targets _ _ hends.2
    have hmissing := @length_missingEnd state.output
    rw [EditState.settle_of_missing hends.1 hends.2]
    change (state.output ++ missingEnd state.output ++ targets.writtenLine .targetBbsDescription).length +
      targets.room (.targetBbsDescription :: state.seen) ≤ _
    rw [List.length_append, List.length_append]
    omega
  · have hkeep : state.settle targets = state := if_neg hends
    rw [hkeep]

theorem length_rewriteLine (h : rewriteLine targets state line = some state') :
    state'.output.length + targets.room state'.seen ≤
      state.output.length + targets.room state.seen + line.length := by
  obtain ⟨hfresh, rfl⟩ := rewriteLine_iff.mp h
  cases hkey : lineTarget state.editSection line with
  | none =>
      have hready : (state.ready targets line).output.length + targets.room (state.ready targets line).seen ≤
          state.output.length + targets.room state.seen := by
        unfold EditState.ready
        split
        case isTrue => exact length_settle
        case isFalse => exact Nat.le_refl _
      simp only [rewrittenLine, hkey, Option.toList_none, List.nil_append, List.length_append]
      omega
  | some key =>
      have hready : state.ready targets line = state := by
        rw [EditState.ready, not_header_of_lineTarget hkey, if_neg Bool.false_ne_true]
      have hroom := @EditTargets.room_cons targets _ _ (hfresh key hkey)
      have hline : rewrittenLine targets state.editSection line = targets.writtenLine key := by
        rw [rewrittenLine, hkey]
        rfl
      rw [hready, hline]
      simp only [Option.toList_some, List.cons_append, List.nil_append, List.length_append]
      omega

theorem length_rewriteLines {lines : List Bytes} (h : lines.foldlM (rewriteLine targets) state = some state') :
    state'.output.length + targets.room state'.seen ≤
      state.output.length + targets.room state.seen + lines.flatten.length := by
  induction lines generalizing state with
  | nil =>
      obtain rfl := Option.some.inj h
      exact Nat.le_add_right _ _
  | cons line lines ih =>
      obtain ⟨middle, hline, hrest⟩ := Option.bind_eq_some_iff.mp h
      have hstep := length_rewriteLine hline
      have hrun := ih hrest
      rw [List.flatten_cons, List.length_append]
      omega

theorem length_rewritten (h : rewritten targets (linesOf text) = some output) :
    output.length ≤ text.length + targets.room [] := by
  obtain ⟨state, hlines, hfinish⟩ := Option.bind_eq_some_iff.mp h
  obtain ⟨rfl, -⟩ := finish_eq_some hfinish
  have hrun := length_rewriteLines hlines
  have hsettle := @length_settle targets state
  rw [flatten_linesOf] at hrun
  change _ ≤ 0 + targets.room [] + _ at hrun
  omega

/-! ### Choices -/

theorem hexDigit_of_hexNumber {digits : Bytes} {start : Option Nat} {number : Nat}
    (h : digits.foldl
      (fun number character =>
        match number, hexDigit character with
        | some number, some digit => some (number * 16 + digit)
        | _, _ => none)
      start = some number) :
    start ≠ none ∧ ∀ character ∈ digits, hexDigit character ≠ none := by
  induction digits generalizing start with
  | nil =>
      rw [List.foldl_nil] at h
      exact ⟨h ▸ Option.some_ne_none number, fun _ hmem => absurd hmem List.not_mem_nil⟩
  | cons character digits ih =>
      rw [List.foldl_cons] at h
      obtain ⟨hstart, hdigits⟩ := ih h
      split at hstart
      case h_1 number digit hdigit =>
        refine ⟨by simp, ?_⟩
        rw [List.forall_mem_cons]
        exact ⟨by simp [hdigit], hdigits⟩
      case h_2 => exact absurd rfl hstart

theorem lineFeed_of_hexNumber {digits : Bytes} {number : Nat} (h : hexNumber digits = some number) :
    lineFeed ∉ digits := by
  intro hmem
  exact (hexDigit_of_hexNumber h).2 lineFeed hmem (by decide)

/-- An address text is twelve characters on one line. -/
theorem parsePciAddress_oneLine {address : PciAddress} (h : parsePciAddress text = some address) :
    text.length = 12 ∧ lineFeed ∉ text := by
  unfold parsePciAddress at h
  split at h
  case h_2 => cases h
  case h_1 s₁ s₂ s₃ s₄ colon b₁ b₂ colon' d₁ d₂ dot f =>
    split at h
    case isTrue => cases h
    case isFalse hseparators =>
      simp only [not_or, not_not] at hseparators
      obtain ⟨rfl, rfl, rfl⟩ := hseparators
      split at h
      case h_2 => cases h
      case h_1 segment bus device function hsegment hbus hdevice hfunction =>
        have hsegment' := lineFeed_of_hexNumber hsegment
        have hbus' := lineFeed_of_hexNumber hbus
        have hdevice' := lineFeed_of_hexNumber hdevice
        have hfunction' : lineFeed ≠ f := by
          rintro rfl
          cases hfunction
        have hcolon : lineFeed ≠ byte ':' := by decide
        have hdot : lineFeed ≠ byte '.' := by decide
        refine ⟨rfl, ?_⟩
        simp only [List.mem_cons, not_or] at hsegment' hbus' hdevice' ⊢
        tauto

/-- Texts of two addresses, and a description that can be written. -/
structure ValidChoice (gpu controller disk : Bytes) : Prop where
  gpu : (parsePciAddress gpu).isSome = true
  controller : (parsePciAddress controller).isSome = true
  disk : Representable (cString disk)

/-- What the lines of three such targets can add to a text. -/
def choiceRoom : Nat := 217

section

variable {input gpu controller disk : Bytes} {capacity : Nat}

/-- The targets of a choice, as the editor has them. -/
def choiceTargets (gpu controller disk : Bytes) : EditTargets where
  gpu := gpu
  controller := controller
  encodedDisk := encodeDescription (cString disk)

theorem ValidChoice.oneLine (h : ValidChoice gpu controller disk) :
    (choiceTargets gpu controller disk).OneLine := by
  obtain ⟨address, hgpu⟩ := Option.isSome_iff_exists.mp h.gpu
  obtain ⟨address', hcontroller⟩ := Option.isSome_iff_exists.mp h.controller
  intro key hmem
  cases key with
  | targetPci => exact (parsePciAddress_oneLine hgpu).2 hmem
  | targetControllerPci => exact (parsePciAddress_oneLine hcontroller).2 hmem
  | targetBbsDescription =>
      have hprintable := printable_encodeDescription h.disk lineFeed hmem
      exact absurd hprintable (by decide)

theorem ValidChoice.room (h : ValidChoice gpu controller disk) :
    (choiceTargets gpu controller disk).room [] ≤ choiceRoom := by
  obtain ⟨address, hgpu⟩ := Option.isSome_iff_exists.mp h.gpu
  obtain ⟨address', hcontroller⟩ := Option.isSome_iff_exists.mp h.controller
  have hgpuLength := (parsePciAddress_oneLine hgpu).1
  have hcontrollerLength := (parsePciAddress_oneLine hcontroller).1
  have hdiskLength := length_encodeDescription (cString disk)
  have hshort := h.disk.short
  have hbytes : configTextBytes = 65 := rfl
  have hkeys : TargetKey.targetPci.text.length = 9 ∧ TargetKey.targetControllerPci.text.length = 19 ∧
      TargetKey.targetBbsDescription.text.length = 20 := ⟨rfl, rfl, rfl⟩
  simp only [EditTargets.room, TargetKey.all, List.map_cons, List.map_nil, List.sum_cons, List.sum_nil,
    List.not_mem_nil, if_false, EditTargets.length_writtenLine, hkeys]
  change 9 + gpu.length + 3 + 2 + (19 + controller.length + 3 + 2 +
    (20 + (encodeDescription (cString disk)).length + 3 + 2 + 0)) ≤ 217
  omega

/-- A call for such a choice, without its capacity. -/
theorem ValidChoice.edit_iff (h : ValidChoice gpu controller disk) {output : Bytes} :
    ncvEditTargets input gpu controller disk capacity = .ok output ↔
      rewritten (choiceTargets gpu controller disk) (linesOf input) = some output ∧
        output.length < capacity := by
  rw [ncvEditTargets_iff, ncvEncodeDiskDescription_eq h.disk]
  simp only [Except.ok.injEq, exists_eq_left']
  rfl

/-- With enough room the call succeeds when the editor does. -/
theorem ValidChoice.edit_iff_rewritten (h : ValidChoice gpu controller disk)
    (hcapacity : input.length + choiceRoom < capacity) {output : Bytes} :
    ncvEditTargets input gpu controller disk capacity = .ok output ↔
      rewritten (choiceTargets gpu controller disk) (linesOf input) = some output := by
  rw [h.edit_iff]
  refine and_iff_left_of_imp fun hrewritten => ?_
  have hlength := length_rewritten hrewritten
  have hroom := h.room
  omega

end

section Twice

variable {input gpu₁ controller₁ disk₁ gpu₂ controller₂ disk₂ output : Bytes} {capacity : Nat}

/-- An edit to one choice succeeds where the edit to another does, and can then be edited to it. -/
theorem ValidChoice.edit_again (hfirst : ValidChoice gpu₁ controller₁ disk₁)
    (hsecond : ValidChoice gpu₂ controller₂ disk₂) (hcapacity : input.length + choiceRoom < capacity)
    (hedit : ncvEditTargets input gpu₁ controller₁ disk₁ capacity = .ok output) :
    ∃ output', ncvEditTargets input gpu₂ controller₂ disk₂ capacity = .ok output' ∧
      ncvEditTargets output gpu₂ controller₂ disk₂ capacity = .ok output' := by
  have hrewritten := (hfirst.edit_iff_rewritten hcapacity).mp hedit
  obtain ⟨output', hsource, hagain⟩ := rewritten_twice hfirst.oneLine hrewritten
  have hdirect := (hsecond.edit_iff_rewritten hcapacity).mpr hsource
  exact ⟨output', hdirect, hsecond.edit_iff.mpr ⟨hagain, (hsecond.edit_iff.mp hdirect).2⟩⟩

/-- **Edits overwrite.** With enough room an edit to one choice succeeds exactly when an edit to another does;
then the edited text can be edited to the other, and gives the text that the source gives. -/
theorem editTwice (hfirst : ValidChoice gpu₁ controller₁ disk₁)
    (hsecond : ValidChoice gpu₂ controller₂ disk₂) (hcapacity : input.length + choiceRoom < capacity) :
    ((∃ output, ncvEditTargets input gpu₁ controller₁ disk₁ capacity = .ok output) ↔
        ∃ output, ncvEditTargets input gpu₂ controller₂ disk₂ capacity = .ok output) ∧
      ∀ output, ncvEditTargets input gpu₁ controller₁ disk₁ capacity = .ok output →
        (∃ output', ncvEditTargets input gpu₂ controller₂ disk₂ capacity = .ok output' ∧
          ncvEditTargets output gpu₂ controller₂ disk₂ capacity = .ok output') ∧
        ncvEditTargets output gpu₁ controller₁ disk₁ capacity = .ok output := by
  refine ⟨⟨?_, ?_⟩, fun output hedit => ⟨hfirst.edit_again hsecond hcapacity hedit, ?_⟩⟩
  · rintro ⟨output, hedit⟩
    obtain ⟨output', hother, -⟩ := hfirst.edit_again hsecond hcapacity hedit
    exact ⟨output', hother⟩
  · rintro ⟨output, hedit⟩
    obtain ⟨output', hother, -⟩ := hsecond.edit_again hfirst hcapacity hedit
    exact ⟨output', hother⟩
  · obtain ⟨output', hsame, hagain⟩ := hfirst.edit_again hfirst hcapacity hedit
    rw [hedit, Except.ok.injEq] at hsame
    rwa [← hsame] at hagain

end Twice

/-- No line of this source sets the description, and its last line has no line end. -/
def openSource : Bytes :=
  ascii "[Video]\r\nTargetPci=0000:03:00.0\n[Boot]\r\nTargetControllerPci=0000:05:00.0\n# end"

theorem editTwice_inserted :
    ∃ output,
      ncvEditTargets openSource (ascii "0000:04:00.0") (ascii "0000:06:00.0") (ascii "Disk A") 4096 =
          .ok output ∧
        ncvEditTargets output (ascii "0000:07:00.0") (ascii "0000:08:00.0") (ascii "Disk B") 4096 =
          .ok
            (textOfLines
              [ascii "[Video]", ascii "TargetPci=0000:07:00.0", ascii "[Boot]",
                ascii "TargetControllerPci=0000:08:00.0", ascii "# end",
                ascii "TargetBbsDescription=Disk B"]) := by
  have hdisk (disk : Bytes) (h : ncvIniValueIsExactlyRepresentable disk configTextBytes = true) :
      Representable (cString disk) := (representable_iff.mp h).1
  have hfirst : ValidChoice (ascii "0000:04:00.0") (ascii "0000:06:00.0") (ascii "Disk A") :=
    ⟨by decide, by decide, hdisk _ (by decide)⟩
  have hsecond : ValidChoice (ascii "0000:07:00.0") (ascii "0000:08:00.0") (ascii "Disk B") :=
    ⟨by decide, by decide, hdisk _ (by decide)⟩
  have hdirect :
      ncvEditTargets openSource (ascii "0000:07:00.0") (ascii "0000:08:00.0") (ascii "Disk B") 4096 =
        .ok
          (textOfLines
            [ascii "[Video]", ascii "TargetPci=0000:07:00.0", ascii "[Boot]",
              ascii "TargetControllerPci=0000:08:00.0", ascii "# end",
              ascii "TargetBbsDescription=Disk B"]) := by
    decide +kernel
  obtain ⟨hsucceeds, hagain⟩ := editTwice hfirst hsecond (by decide : openSource.length + choiceRoom < 4096)
  obtain ⟨output, hedit⟩ := hsucceeds.mpr ⟨_, hdirect⟩
  obtain ⟨⟨output', hsecondEdit, hresult⟩, -⟩ := hagain output hedit
  rw [hdirect] at hsecondEdit
  exact ⟨output, hedit, hresult.trans hsecondEdit.symm⟩

end CsmVgaSelector
