import CsmVgaSelector.Proof.EditBuffer
import CsmVgaSelector.Proof.EditRun

/-!
# What an edit leaves alone

Without its capacity the editor is a function of its lines, and succeeds with a capacity exactly when the
output fits below it. Its output is the lines of the source, with the targets that it finds replaced where
they stand, and the description inserted at the end of its section if no line has it.
-/

namespace CsmVgaSelector

variable {capacity : Nat} {targets : EditTargets} {state state' : EditState} {line output : Bytes}
  {lines : List Bytes}

/-! ### The editor without a capacity -/

/-- The end of a section. -/
def EditState.settle (state : EditState) (targets : EditTargets) : EditState :=
  if state.editSection = .boot ∧ TargetKey.targetBbsDescription ∉ state.seen then state.append targets
  else state

def rewriteLine (targets : EditTargets) (state : EditState) (line : Bytes) : Option EditState :=
  if isEditHeader (editView line) then
    some (((state.settle targets).inSection (editSectionOf (editView line))).copy line)
  else
    match editTarget state.editSection (editView line) with
    | some key => if key ∈ state.seen then none else some (state.replace targets key)
    | none => some (state.copy line)

/-- The end of the text: every target must have been seen. -/
def EditState.finish (state : EditState) (targets : EditTargets) : Option Bytes :=
  let state := state.settle targets
  if TargetKey.all.all (· ∈ state.seen) then some state.output else none

def rewritten (targets : EditTargets) (lines : List Bytes) : Option Bytes :=
  (lines.foldlM (rewriteLine targets) editStart).bind (·.finish targets)

/-! ### The capacity -/

theorem copyLine_iff : copyLine capacity line state = .ok state' ↔
    state' = state.copy line ∧ state'.output.length < capacity := by
  have hlength : (state.copy line).output.length = state.output.length + line.length := List.length_append
  unfold copyLine
  split
  case isTrue hfull =>
    refine iff_of_false (by simp) ?_
    rintro ⟨rfl, hroom⟩
    omega
  case isFalse hroom =>
    rw [Except.ok.injEq]
    constructor
    · rintro rfl
      refine ⟨rfl, ?_⟩
      change (state.output ++ line).length < capacity
      rw [List.length_append]
      omega
    · rintro ⟨rfl, -⟩
      rfl

theorem replaceLine_iff {key : TargetKey} : replaceLine capacity targets key state = .ok state' ↔
    key ∉ state.seen ∧ state' = state.replace targets key ∧ state'.output.length < capacity := by
  have hlength : (state.replace targets key).output.length =
      state.output.length + (key.text.length + (targets.value key).length + 3) := by
    simp only [EditState.replace, keyLine, List.length_append, List.length_cons, List.length_nil]
    omega
  unfold replaceLine
  split
  case isTrue hseen => exact iff_of_false (by simp) fun h => h.1 hseen
  case isFalse hseen =>
    rw [and_iff_right hseen]
    split
    case isTrue hfull =>
      refine iff_of_false (by simp) ?_
      rintro ⟨rfl, hroom⟩
      omega
    case isFalse hroom =>
      have hsame : ({ state with
          output := state.output ++ key.text ++ [byte '='] ++ targets.value key ++ [carriageReturn, lineFeed]
          seen := key :: state.seen } : EditState) = state.replace targets key := by
        simp [EditState.replace, keyLine]
      rw [Except.ok.injEq, hsame]
      constructor
      · rintro rfl
        refine ⟨rfl, ?_⟩
        omega
      · rintro ⟨rfl, -⟩
        rfl

/-- A section that ends only adds to the output. -/
theorem EditState.prefix_settle : state.output <+: (state.settle targets).output := by
  unfold settle
  split
  · exact ⟨_, (List.append_assoc ..).symm⟩
  · exact List.prefix_refl _

/-- The description with the line ends around it, and the room for it. -/
theorem appendDescription_eq {disk : Bytes} : appendDescription capacity disk output =
    if (output ++ missingEnd output ++ (diskLine disk ++ [carriageReturn, lineFeed])).length < capacity then
      .ok (output ++ missingEnd output ++ (diskLine disk ++ [carriageReturn, lineFeed]))
    else .error .capacity := by
  have hkey : ascii "TargetBbsDescription=" = ascii "TargetBbsDescription" ++ [byte '='] := rfl
  have hlength :
      (output ++ missingEnd output ++ (diskLine disk ++ [carriageReturn, lineFeed])).length =
        output.length +
          ((missingEnd output).length + (ascii "TargetBbsDescription=").length + disk.length + 2) := by
    simp only [hkey, diskLine, keyLine, List.length_append, List.length_cons, List.length_nil]
    omega
  have htext : output ++ missingEnd output ++ ascii "TargetBbsDescription=" ++ disk ++
      [carriageReturn, lineFeed] =
        output ++ missingEnd output ++ (diskLine disk ++ [carriageReturn, lineFeed]) := by
    simp [hkey, diskLine, keyLine]
  rw [hlength, ← htext]
  unfold appendDescription
  rw [← missingEnd]
  dsimp only
  by_cases hfull : (missingEnd output).length + (ascii "TargetBbsDescription=").length + disk.length + 2 ≥
      capacity - output.length
  · rw [if_pos hfull, if_neg (by omega)]
  · rw [if_neg hfull, if_pos (by omega)]

theorem endSection_iff (hstate : state.output.length < capacity) :
    endSection capacity targets state = .ok state' ↔
      state' = state.settle targets ∧ state'.output.length < capacity := by
  unfold endSection EditState.settle
  split
  case isFalse =>
    rw [Except.ok.injEq, eq_comm]
    exact (and_iff_left_of_imp fun h => h ▸ hstate).symm
  case isTrue =>
    constructor
    · intro h
      obtain ⟨output, happend, h⟩ := bind_eq_ok h
      rw [appendDescription_eq] at happend
      split at happend
      case isFalse => cases happend
      case isTrue hroom =>
        obtain rfl := Except.ok.inj happend
        obtain rfl := Except.ok.inj h
        exact ⟨rfl, hroom⟩
    · rintro ⟨rfl, hroom⟩
      change (state.output ++ missingEnd state.output ++
        (diskLine targets.encodedDisk ++ [carriageReturn, lineFeed])).length < capacity at hroom
      rw [appendDescription_eq, if_pos hroom]
      rfl

/-- A line is rewritten with this capacity when the output with it stays below. -/
theorem editLine_iff (hstate : state.output.length < capacity) :
    editLine capacity targets state line = .ok state' ↔
      rewriteLine targets state line = some state' ∧ state'.output.length < capacity := by
  unfold editLine rewriteLine
  by_cases hheader : isEditHeader (editView line) = true
  · rw [if_pos hheader, if_pos hheader, Option.some.injEq]
    constructor
    · intro h
      obtain ⟨ended, hended, hcopy⟩ := bind_eq_ok h
      obtain ⟨rfl, -⟩ := (endSection_iff hstate).mp hended
      obtain ⟨rfl, hroom⟩ := copyLine_iff.mp hcopy
      exact ⟨rfl, hroom⟩
    · rintro ⟨rfl, hroom⟩
      have hsettle : (state.settle targets).output.length < capacity :=
        Nat.lt_of_le_of_lt (List.length_append ▸ Nat.le_add_right _ _) hroom
      rw [(endSection_iff hstate).mpr ⟨rfl, hsettle⟩]
      exact copyLine_iff.mpr ⟨rfl, hroom⟩
  · rw [if_neg hheader, if_neg hheader]
    cases editTarget state.editSection (editView line) with
    | none =>
        dsimp only
        rw [copyLine_iff, Option.some.injEq, eq_comm]
    | some key =>
        dsimp only
        rw [replaceLine_iff]
        split
        case isTrue hseen => exact iff_of_false (fun h => h.1 hseen) (by simp)
        case isFalse hseen => rw [and_iff_right hseen, Option.some.injEq, eq_comm]

/-- A line only adds to the output. -/
theorem prefix_rewriteLine (h : rewriteLine targets state line = some state') :
    state.output <+: state'.output := by
  unfold rewriteLine at h
  split at h
  case isTrue =>
    obtain rfl := Option.some.inj h
    exact EditState.prefix_settle.trans (List.prefix_append ..)
  case isFalse =>
    split at h
    case h_1 =>
      split at h
      case isTrue => cases h
      case isFalse =>
        obtain rfl := Option.some.inj h
        exact List.prefix_append ..
    case h_2 =>
      obtain rfl := Option.some.inj h
      exact List.prefix_append ..

theorem prefix_rewriteLines (h : lines.foldlM (rewriteLine targets) state = some state') :
    state.output <+: state'.output := by
  induction lines generalizing state with
  | nil =>
      obtain rfl := Option.some.inj h
      exact List.prefix_refl _
  | cons line lines ih =>
      obtain ⟨middle, hline, h⟩ := Option.bind_eq_some_iff.mp h
      exact (prefix_rewriteLine hline).trans (ih h)

theorem editLines_iff (hstate : state.output.length < capacity) :
    lines.foldlM (editLine capacity targets) state = .ok state' ↔
      lines.foldlM (rewriteLine targets) state = some state' ∧ state'.output.length < capacity := by
  induction lines generalizing state with
  | nil =>
      rw [List.foldlM_nil, List.foldlM_nil]
      change Except.ok state = .ok state' ↔ some state = some state' ∧ _
      rw [Except.ok.injEq, Option.some.injEq]
      exact (and_iff_left_of_imp fun h => h ▸ hstate).symm
  | cons line lines ih =>
      rw [List.foldlM_cons, List.foldlM_cons]
      constructor
      · intro h
        obtain ⟨middle, hline, h⟩ := bind_eq_ok h
        obtain ⟨hline, hroom⟩ := (editLine_iff hstate).mp hline
        rw [hline]
        exact (ih hroom).mp h
      · rintro ⟨h, hroom⟩
        obtain ⟨middle, hline, h⟩ := Option.bind_eq_some_iff.mp h
        have hmiddle : middle.output.length < capacity :=
          Nat.lt_of_le_of_lt (prefix_rewriteLines h).length_le hroom
        rw [(editLine_iff hstate).mpr ⟨hline, hmiddle⟩]
        exact (ih hmiddle).mpr ⟨h, hroom⟩

/-- **The editor without a capacity.** A call succeeds when the new text fits below the capacity. -/
theorem ncvEditTargets_iff {input gpu controller disk : Bytes} :
    ncvEditTargets input gpu controller disk capacity = .ok output ↔
      ∃ encodedDisk, ncvEncodeDiskDescription disk encodedDescriptionBytes = .ok encodedDisk ∧
        rewritten ⟨gpu, controller, encodedDisk⟩ (linesOf input) = some output ∧
          output.length < capacity := by
  unfold ncvEditTargets
  by_cases hnone : capacity = 0
  · rw [if_pos hnone]
    refine iff_of_false (by simp) ?_
    rintro ⟨-, -, -, hroom⟩
    omega
  rw [if_neg hnone]
  have hstart : editStart.output.length < capacity := Nat.pos_of_ne_zero hnone
  cases ncvEncodeDiskDescription disk encodedDescriptionBytes with
  | error failure => exact iff_of_false (by simp) (by simp)
  | ok encodedDisk =>
      simp only [Except.ok.injEq, exists_eq_left']
      constructor
      · intro h
        obtain ⟨state, hlines, h⟩ := bind_eq_ok h
        obtain ⟨ended, hended, h⟩ := bind_eq_ok h
        obtain ⟨hlines, hroom⟩ := (editLines_iff hstart).mp hlines
        obtain ⟨rfl, hroom⟩ := (endSection_iff hroom).mp hended
        split at h
        case isFalse => cases h
        case isTrue hall =>
          obtain rfl := Except.ok.inj h
          exact ⟨Option.bind_eq_some_iff.mpr ⟨state, hlines, if_pos hall⟩, hroom⟩
      · rintro ⟨h, hroom⟩
        obtain ⟨state, hlines, hfinish⟩ := Option.bind_eq_some_iff.mp h
        unfold EditState.finish at hfinish
        dsimp only at hfinish
        split at hfinish
        case isFalse => cases hfinish
        case isTrue hall =>
          obtain rfl := Option.some.inj hfinish
          have hstate : state.output.length < capacity :=
            Nat.lt_of_le_of_lt EditState.prefix_settle.length_le hroom
          rw [(editLines_iff hstart).mpr ⟨hlines, hstate⟩]
          change (endSection capacity _ state >>= _) = _
          rw [(endSection_iff hstate).mpr ⟨rfl, hroom⟩]
          exact if_pos hall

/-! ### The lines of the output -/

/-- The section after a line. -/
def sectionAfter (current : EditSection) (line : Bytes) : EditSection :=
  if isEditHeader (editView line) then editSectionOf (editView line) else current

/-- The target that a line sets in its section; a header sets none. -/
def lineTarget (current : EditSection) (line : Bytes) : Option TargetKey :=
  if isEditHeader (editView line) then none else editTarget current (editView line)

/-- A line of the source as it stands in the output. -/
def rewrittenLine (targets : EditTargets) (current : EditSection) (line : Bytes) : Bytes :=
  match lineTarget current line with
  | some key => keyLine key.text (targets.value key) ++ [carriageReturn, lineFeed]
  | none => line

def rewrittenLines (targets : EditTargets) : EditSection → List Bytes → List Bytes
  | _, [] => []
  | current, line :: lines =>
      rewrittenLine targets current line :: rewrittenLines targets (sectionAfter current line) lines

/-- The targets that the lines set, in order. -/
def targetsOf : EditSection → List Bytes → List TargetKey
  | _, [] => []
  | current, line :: lines =>
      (lineTarget current line).toList ++ targetsOf (sectionAfter current line) lines

/-! ### The lines that are kept -/

/-- A line that is replaced is in the section of its key, and has the key before its first equals sign. -/
theorem lineTarget_spec {current : EditSection} {key : TargetKey} (h : lineTarget current line = some key) :
    key.editSection = current ∧ byte '=' ∈ rawText line ∧
      (trim (keyPart line)).map lowerCase = key.text.map lowerCase := by
  unfold lineTarget editTarget at h
  split at h
  case isTrue => cases h
  case isFalse =>
    split at h
    case h_1 => cases h
    case h_2 name hname =>
      obtain ⟨hequals, rfl⟩ := editKey_editView hname
      have hfound := List.find?_some h
      simp only [equalIgnoringCase, Bool.and_eq_true, beq_iff_eq] at hfound
      exact ⟨hfound.1, hequals, hfound.2⟩

theorem rewrittenLine_of_none {current : EditSection} (h : ∀ key, lineTarget current line ≠ some key) :
    rewrittenLine targets current line = line := by
  rw [rewrittenLine, Option.eq_none_iff_forall_ne_some.mpr h]

/-- Outside [Video] and [Boot] every line is kept. -/
theorem rewrittenLine_other : rewrittenLine targets .other line = line := by
  refine rewrittenLine_of_none fun key h => ?_
  have hsection := (lineTarget_spec h).1
  cases key <;> cases hsection

/-- A line without an equals sign is kept, whatever its section, and a blank line with it. -/
theorem rewrittenLine_of_unset {current : EditSection} (h : byte '=' ∉ rawText line) :
    rewrittenLine targets current line = line :=
  rewrittenLine_of_none fun _ htarget => h (lineTarget_spec htarget).2.1

theorem rewrittenLine_blank {current : EditSection} (h : ∀ character ∈ rawText line, isBlankEnd character = true) :
    rewrittenLine targets current line = line :=
  rewrittenLine_of_unset fun hequals => absurd (h _ hequals) (by decide)

/-- A comment is kept. -/
theorem rewrittenLine_comment {current : EditSection} {blanks rest : Bytes} {mark : UInt8}
    (hblanks : ∀ character ∈ blanks, isSpace character = true) (hmark : mark = byte '#' ∨ mark = byte ';') :
    rewrittenLine targets current (blanks ++ mark :: rest) = blanks ++ mark :: rest := by
  refine rewrittenLine_of_none fun key h => ?_
  obtain ⟨-, -, hname⟩ := lineTarget_spec h
  have hspace : ∀ character ∈ blanks, character ≠ lineFeed ∧ character ≠ byte '=' := by
    intro character hcharacter
    have hblank := hblanks character hcharacter
    constructor
    · rintro rfl
      exact absurd hblank (by decide)
    · rintro rfl
      exact absurd hblank (by decide)
  have hmark' : mark ≠ lineFeed ∧ mark ≠ byte '=' ∧ isSpace mark = false ∧ lowerCase mark = mark := by
    rcases hmark with rfl | rfl <;> decide
  -- The mark is the first character of the name.
  have hkey : keyPart (blanks ++ mark :: rest) =
      blanks ++ mark :: (rest.takeWhile (· != lineFeed)).takeWhile (· != byte '=') := by
    unfold keyPart rawText
    rw [List.takeWhile_append_of_pos (fun _ hmem => by simpa using (hspace _ hmem).1),
      List.takeWhile_cons_of_pos (by simpa using hmark'.1),
      List.takeWhile_append_of_pos (fun _ hmem => by simpa using (hspace _ hmem).2),
      List.takeWhile_cons_of_pos (by simpa using hmark'.2.1)]
  have htrim : ∃ tail, trim (keyPart (blanks ++ mark :: rest)) = mark :: tail := by
    rw [hkey, trim, dropWhile_append_cons hmark'.2.2.1, List.dropWhile_eq_nil_iff.mpr hblanks]
    exact rdropWhile_append_cons hmark'.2.2.1
  obtain ⟨tail, htail⟩ := htrim
  rw [htail, List.map_cons, hmark'.2.2.2] at hname
  rcases hmark with rfl | rfl <;> cases key <;> cases hname

/-! ### The end of [Boot] -/

/-- The section [Boot] ends between these lines, at a header or at the end of the text. -/
structure EndsBoot (current : EditSection) (before after : List Bytes) : Prop where
  boot : before.foldl sectionAfter current = .boot
  header : ∀ line ∈ after.head?, isEditHeader (editView line) = true

/-- These lines are all before the first such end. -/
structure FirstBootEnd (current : EditSection) (lines before after : List Bytes) : Prop where
  whole : lines = before ++ after
  ends : EndsBoot current before after
  first : ∀ before' after', lines = before' ++ after' → EndsBoot current before' after' →
    before.length ≤ before'.length

/-- The text that an edit makes of the lines, after the text written so far: every line is kept or replaced
where it stands, and a description that no line sets is put where [Boot] first ends. -/
inductive Rewrites (targets : EditTargets) (current : EditSection) (written : Bytes) (lines : List Bytes) :
    Bytes → Prop where
  | inPlace (hdescribed : .targetBbsDescription ∈ targetsOf current lines) :
      Rewrites targets current written lines (written ++ (rewrittenLines targets current lines).flatten)
  | inserted (hmissing : .targetBbsDescription ∉ targetsOf current lines) (before after : List Bytes)
      (hends : FirstBootEnd current lines before after) (text : Bytes)
      (htext : text = written ++ (rewrittenLines targets current before).flatten) :
      Rewrites targets current written lines
        (text ++ (if text.getLast? = some lineFeed then [] else [carriageReturn, lineFeed]) ++
          (diskLine targets.encodedDisk ++ [carriageReturn, lineFeed]) ++
          (rewrittenLines targets (before.foldl sectionAfter current) after).flatten)

/-- The state in which a line is written: at a header the section before it has ended. -/
def EditState.ready (state : EditState) (targets : EditTargets) (line : Bytes) : EditState :=
  if isEditHeader (editView line) then state.settle targets else state

theorem EditState.editSection_settle : (state.settle targets).editSection = state.editSection := by
  unfold settle
  split <;> rfl

theorem rewriteLine_iff : rewriteLine targets state line = some state' ↔
    (∀ key ∈ lineTarget state.editSection line, key ∉ state.seen) ∧
      state' =
        { output := (state.ready targets line).output ++ rewrittenLine targets state.editSection line
          editSection := sectionAfter state.editSection line
          seen := (lineTarget state.editSection line).toList ++ (state.ready targets line).seen } := by
  unfold rewriteLine rewrittenLine lineTarget sectionAfter EditState.ready
  by_cases hheader : isEditHeader (editView line) = true
  · simp only [if_pos hheader, Option.some.injEq, Option.mem_def, reduceCtorEq, false_imp_iff, implies_true,
      true_and, Option.toList_none, List.nil_append]
    exact eq_comm
  · simp only [if_neg hheader]
    cases editTarget state.editSection (editView line) with
    | none =>
        simp only [Option.some.injEq, Option.mem_def, reduceCtorEq, false_imp_iff, implies_true, true_and,
          Option.toList_none, List.nil_append]
        exact eq_comm
    | some key =>
        simp only [Option.mem_def, Option.some.injEq, forall_eq', Option.toList_some, List.cons_append,
          List.nil_append]
        split
        case isTrue hseen => exact iff_of_false (by simp) fun h => h.1 hseen
        case isFalse hseen =>
          rw [and_iff_right hseen, Option.some.injEq]
          exact eq_comm

theorem EditState.settle_of_seen (h : .targetBbsDescription ∈ state.seen) : state.settle targets = state :=
  if_neg fun hends => hends.2 h

theorem EditState.settle_of_section (h : state.editSection ≠ .boot) : state.settle targets = state :=
  if_neg fun hends => h hends.1

theorem EditState.settle_of_missing (hboot : state.editSection = .boot)
    (hmissing : .targetBbsDescription ∉ state.seen) : state.settle targets = state.append targets :=
  if_pos ⟨hboot, hmissing⟩

theorem EditState.ready_eq (h : isEditHeader (editView line) = true → state.settle targets = state) :
    state.ready targets line = state := by
  unfold ready
  split
  case isTrue hheader => exact h hheader
  case isFalse => rfl

/-- Lines after the description are kept or replaced, and none sets it again. -/
theorem rewriteLines_described (hdescribed : .targetBbsDescription ∈ state.seen)
    (h : lines.foldlM (rewriteLine targets) state = some state') :
    state'.output = state.output ++ (rewrittenLines targets state.editSection lines).flatten ∧
      .targetBbsDescription ∉ targetsOf state.editSection lines ∧ .targetBbsDescription ∈ state'.seen := by
  induction lines generalizing state with
  | nil =>
      obtain rfl := Option.some.inj h
      exact ⟨(List.append_nil _).symm, List.not_mem_nil, hdescribed⟩
  | cons line lines ih =>
      obtain ⟨middle, hline, h⟩ := Option.bind_eq_some_iff.mp h
      obtain ⟨hfresh, rfl⟩ := rewriteLine_iff.mp hline
      have hready : state.ready targets line = state :=
        EditState.ready_eq fun _ => EditState.settle_of_seen hdescribed
      rw [hready] at h
      obtain ⟨houtput, hmissing, hseen⟩ := ih (List.mem_append_right _ hdescribed) h
      refine ⟨?_, ?_, hseen⟩
      · rw [houtput, rewrittenLines, List.flatten_cons, List.append_assoc]
      · rw [targetsOf, List.mem_append, not_or]
        exact ⟨fun hmem => hfresh _ (Option.mem_toList.mp hmem) hdescribed, hmissing⟩

theorem finish_eq_some (h : state.finish targets = some output) :
    output = (state.settle targets).output ∧ ∀ key : TargetKey, key ∈ (state.settle targets).seen := by
  unfold EditState.finish at h
  dsimp only at h
  split at h
  case isFalse => cases h
  case isTrue hall =>
    refine ⟨(Option.some.inj h).symm, fun key => ?_⟩
    exact of_decide_eq_true (List.all_eq_true.mp hall key key.mem_all)

/-- A later end of [Boot] is one for the lines from the next on. -/
theorem EndsBoot.cons_iff {current : EditSection} {before after : List Bytes} :
    EndsBoot current (line :: before) after ↔ EndsBoot (sectionAfter current line) before after :=
  ⟨fun h => ⟨h.boot, h.header⟩, fun h => ⟨h.boot, h.header⟩⟩

theorem FirstBootEnd.here {current : EditSection} (h : EndsBoot current [] lines) :
    FirstBootEnd current lines [] lines where
  whole := rfl
  ends := h
  first _ _ _ _ := Nat.zero_le _

theorem FirstBootEnd.cons {current : EditSection} {before after : List Bytes}
    (hhere : ¬EndsBoot current [] (line :: lines))
    (h : FirstBootEnd (sectionAfter current line) lines before after) :
    FirstBootEnd current (line :: lines) (line :: before) after where
  whole := congrArg (line :: ·) h.whole
  ends := EndsBoot.cons_iff.mpr h.ends
  first before' after' hwhole hends := by
    cases before' with
    | nil =>
        obtain rfl : line :: lines = after' := hwhole
        exact absurd hends hhere
    | cons line' before' =>
        obtain ⟨rfl, hrest⟩ := List.cons.inj hwhole
        exact Nat.succ_le_succ (h.first before' after' hrest (EndsBoot.cons_iff.mp hends))

/-- One more line in front, kept or replaced. -/
theorem Rewrites.cons {current : EditSection} {written : Bytes}
    (hline : lineTarget current line ≠ some .targetBbsDescription)
    (hhere : ¬EndsBoot current [] (line :: lines))
    (h : Rewrites targets (sectionAfter current line) (written ++ rewrittenLine targets current line) lines
      output) : Rewrites targets current written (line :: lines) output := by
  have htargets : .targetBbsDescription ∈ targetsOf current (line :: lines) ↔
      .targetBbsDescription ∈ targetsOf (sectionAfter current line) lines := by
    rw [targetsOf, List.mem_append, Option.mem_toList]
    exact or_iff_right hline
  cases h with
  | inPlace hdescribed =>
      rw [List.append_assoc, ← List.flatten_cons]
      exact .inPlace (htargets.mpr hdescribed)
  | inserted hmissing before after hends text htext =>
      refine .inserted (mt htargets.mp hmissing) (line :: before) after (hends.cons hhere) text ?_
      rw [htext, List.append_assoc]
      rfl

theorem missingEnd_of_ne (hne : output ≠ []) :
    missingEnd output = if output.getLast? = some lineFeed then [] else [carriageReturn, lineFeed] := by
  unfold missingEnd
  by_cases hlast : output.getLast? = some lineFeed
  · rw [if_neg fun h => h.2 hlast, if_pos hlast]
  · rw [if_pos ⟨hne, hlast⟩, if_neg hlast]

theorem line_ne_nil (hheader : isEditHeader (editView line) = true) : line ≠ [] := by
  rintro rfl
  cases hheader

/-- An editor that has entered a section has written its header. -/
theorem entered_cons (hentered : state.editSection = .boot → state.output ≠ [])
    (h : sectionAfter state.editSection line = .boot) :
    state.output ++ rewrittenLine targets state.editSection line ≠ [] := by
  by_cases hheader : isEditHeader (editView line) = true
  · have hkept : rewrittenLine targets state.editSection line = line := by
      rw [rewrittenLine, lineTarget, if_pos hheader]
    rw [hkept]
    exact List.append_ne_nil_of_right_ne_nil _ (line_ne_nil hheader)
  · rw [sectionAfter, if_neg hheader] at h
    exact List.append_ne_nil_of_left_ne_nil (hentered h) _

/-- **The run of an editor that has no description yet.** -/
theorem rewrites_of_finish (hentered : state.editSection = .boot → state.output ≠ [])
    (hmissing : .targetBbsDescription ∉ state.seen)
    (h : (lines.foldlM (rewriteLine targets) state).bind (·.finish targets) = some output) :
    Rewrites targets state.editSection state.output lines output := by
  induction lines generalizing state with
  | nil =>
      obtain ⟨rfl, hall⟩ := finish_eq_some h
      by_cases hboot : state.editSection = .boot
      swap
      · rw [EditState.settle_of_section hboot] at hall
        exact absurd (hall _) hmissing
      have hends : EndsBoot state.editSection [] [] := ⟨hboot, fun _ hline => nomatch hline⟩
      have hinserted : Rewrites targets state.editSection state.output [] _ :=
        .inserted List.not_mem_nil [] [] (.here hends) state.output (List.append_nil _).symm
      rw [EditState.settle_of_missing hboot hmissing, EditState.append, missingEnd_of_ne (hentered hboot)]
      simpa only [rewrittenLines, List.flatten_nil, List.append_nil] using hinserted
  | cons line lines ih =>
      rw [List.foldlM_cons, Option.bind_eq_bind, Option.bind_assoc] at h
      obtain ⟨middle, hline, h⟩ := Option.bind_eq_some_iff.mp h
      obtain ⟨hfresh, rfl⟩ := rewriteLine_iff.mp hline
      by_cases hhere : EndsBoot state.editSection [] (line :: lines)
      · -- the description goes before this header
        have hready : state.ready targets line = state.append targets :=
          (if_pos (hhere.header line rfl)).trans (EditState.settle_of_missing hhere.boot hmissing)
        rw [hready] at h
        obtain ⟨ended, hrest, hfinish⟩ := Option.bind_eq_some_iff.mp h
        have hdescribed : TargetKey.targetBbsDescription ∈
            (lineTarget state.editSection line).toList ++ (state.append targets).seen :=
          List.mem_append_right _ (List.mem_cons_self ..)
        obtain ⟨houtput, hnone, hseen⟩ := rewriteLines_described hdescribed hrest
        obtain ⟨rfl, -⟩ := finish_eq_some hfinish
        have hline : lineTarget state.editSection line = none := if_pos (hhere.header line rfl)
        have hmissing' : TargetKey.targetBbsDescription ∉ targetsOf state.editSection (line :: lines) := by
          rw [targetsOf, hline]
          exact hnone
        have hinserted : Rewrites targets state.editSection state.output (line :: lines) _ :=
          .inserted hmissing' [] (line :: lines) (.here hhere) state.output (List.append_nil _).symm
        rw [EditState.settle_of_seen hseen, houtput, List.append_assoc, ← List.flatten_cons,
          EditState.append, missingEnd_of_ne (hentered hhere.boot)]
        exact hinserted
      · -- the section goes on
        have hready : state.ready targets line = state := by
          refine EditState.ready_eq fun hheader => EditState.settle_of_section fun hboot => hhere ⟨hboot, ?_⟩
          rintro _ ⟨⟩
          exact hheader
        rw [hready] at h
        by_cases hline : lineTarget state.editSection line = some .targetBbsDescription
        · obtain ⟨ended, hrest, hfinish⟩ := Option.bind_eq_some_iff.mp h
          have hdescribed : TargetKey.targetBbsDescription ∈
              (lineTarget state.editSection line).toList ++ state.seen :=
            List.mem_append_left _ (Option.mem_toList.mpr hline)
          obtain ⟨houtput, -, hseen⟩ := rewriteLines_described hdescribed hrest
          obtain ⟨rfl, -⟩ := finish_eq_some hfinish
          rw [EditState.settle_of_seen hseen, houtput, List.append_assoc, ← List.flatten_cons]
          refine .inPlace (List.mem_append_left _ (Option.mem_toList.mpr hline))
        · have hmissing' : TargetKey.targetBbsDescription ∉
              (lineTarget state.editSection line).toList ++ state.seen := by
            rw [List.mem_append, Option.mem_toList, not_or]
            exact ⟨hline, hmissing⟩
          exact (ih (entered_cons hentered) hmissing' h).cons hline hhere

/-! ### The whole call -/

theorem flatten_linesOf {input : Bytes} : (linesOf input).flatten = input := by
  induction input using lines_induction with
  | nil => rfl
  | last line hline hne => rw [linesOf_of_notMem hline hne, List.flatten_singleton]
  | cons line rest hline ih =>
      rw [linesOf_cons hline, List.flatten_cons, ih, List.append_assoc]
      rfl

/-- **What an edit leaves alone.** No store is at or past the capacity, and a failure leaves `*Used` zero. A
call that succeeds leaves its output with the terminator, and the output is the source's lines with the
targets replaced and the description inserted at most once. -/
theorem editFrame {input gpu controller disk : Bytes} {capacity used : Nat} :
    (linesOf input).flatten = input ∧
      (∀ stored ∈ (runEdit input gpu controller disk capacity used).2.stores, stored.1 < capacity) ∧
      (∀ failure, (runEdit input gpu controller disk capacity used).1 = .error failure →
        (runEdit input gpu controller disk capacity used).2.used = 0) ∧
      ((runEdit input gpu controller disk capacity used).1 = .ok ⟨⟩ →
        ∃ encodedDisk output,
          ncvEncodeDiskDescription disk encodedDescriptionBytes = .ok encodedDisk ∧
            (runEdit input gpu controller disk capacity used).2.used = output.length ∧
            (runEdit input gpu controller disk capacity used).2.stores = placed (output ++ [0]) ∧
            Rewrites ⟨gpu, controller, encodedDisk⟩ .other [] (linesOf input) output) := by
  have hleaves := @runEdit_leaves capacity input gpu controller disk used
  refine ⟨flatten_linesOf, ?_⟩
  generalize runEdit input gpu controller disk capacity used = outcome at hleaves ⊢
  generalize hresult : ncvEditTargets input gpu controller disk capacity = result at hleaves
  cases hleaves with
  | error hreached => exact ⟨placed_lt hreached, fun _ _ => rfl, fun h => nomatch h⟩
  | ok hroom hused hstores =>
      refine ⟨?_, by simp, fun _ => ?_⟩
      · rw [hstores]
        refine placed_lt ?_
        rw [List.length_append]
        exact hroom
      · obtain ⟨encodedDisk, hencoded, hrewritten, -⟩ := ncvEditTargets_iff.mp hresult
        have hstart : editStart.editSection = .boot → editStart.output ≠ [] := fun h => nomatch h
        exact ⟨encodedDisk, _, hencoded, hused, hstores,
          rewrites_of_finish hstart List.not_mem_nil hrewritten⟩

end CsmVgaSelector
