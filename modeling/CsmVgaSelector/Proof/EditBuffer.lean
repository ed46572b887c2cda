import CsmVgaSelector.Config.EditBuffer
import CsmVgaSelector.Proof.EditSync

/-!
# What the editor stores

The stores of a run are the bytes of its output, one after another from the beginning of the buffer. Where the
editor over texts fails, this one fails in the same way, with what it had written by then; neither goes on
past the capacity.
-/

namespace CsmVgaSelector

variable {capacity : Nat} {targets : EditTargets} {state : EditState} {bytes line : Bytes}

/-- The stores that put these bytes at the beginning of the buffer. -/
def placed (bytes : Bytes) : List (Nat × UInt8) := bytes.zipIdx.map Prod.swap

theorem placed_concat {character : UInt8} :
    placed (bytes ++ [character]) = placed bytes ++ [(bytes.length, character)] := by
  simp [placed, List.zipIdx_append]

theorem placed_lt (h : bytes.length ≤ capacity) : ∀ stored ∈ placed bytes, stored.1 < capacity := by
  intro stored hstored
  obtain ⟨⟨character, index⟩, hmem, rfl⟩ := List.mem_map.mp hstored
  exact Nat.lt_of_lt_of_le (List.snd_lt_of_mem_zipIdx hmem) h

/-- The buffer that holds this output. -/
def bufferOf (state : EditState) : EditBuffer where
  stores := placed state.output
  written := state.output.length
  used := 0
  editSection := state.editSection
  seen := state.seen

/-! ### Runs -/

section

variable {α β : Type} {buffer buffer' : EditBuffer}

/-- The run of a part of the editor. -/
def Editing.exec (m : Editing α) (buffer : EditBuffer) : Except NcvFailure α × EditBuffer :=
  m.run.run buffer

theorem exec_pure {value : α} : Editing.exec (pure value) buffer = (.ok value, buffer) := rfl

theorem exec_throw {failure : NcvFailure} :
    Editing.exec (throw failure : Editing α) buffer = (.error failure, buffer) := rfl

theorem exec_modify {f : EditBuffer → EditBuffer} :
    Editing.exec (modify f) buffer = (.ok ⟨⟩, f buffer) := rfl

theorem exec_set : Editing.exec (set buffer') buffer = (.ok ⟨⟩, buffer') := rfl

theorem exec_get : Editing.exec get buffer = (.ok buffer, buffer) := rfl

theorem exec_bind_ok {m : Editing α} {k : α → Editing β} {value : α}
    (h : m.exec buffer = (.ok value, buffer')) : Editing.exec (m >>= k) buffer = (k value).exec buffer' := by
  rw [Editing.exec] at h
  rw [Editing.exec, ExceptT.run_bind, StateT.run_bind, h]
  rfl

theorem exec_bind_error {m : Editing α} {k : α → Editing β} {failure : NcvFailure}
    (h : m.exec buffer = (.error failure, buffer')) :
    Editing.exec (m >>= k) buffer = (.error failure, buffer') := by
  rw [Editing.exec] at h
  rw [Editing.exec, ExceptT.run_bind, StateT.run_bind, h]
  rfl

end

/-! ### The bytes of the output -/

theorem storeByte_exec {character : UInt8} :
    (storeByte character).exec (bufferOf state) = (.ok ⟨⟩, bufferOf (state.copy [character])) := by
  rw [storeByte, exec_modify]
  refine congrArg (Prod.mk _) ?_
  rw [bufferOf, bufferOf, EditState.copy, placed_concat, List.length_append]
  rfl

theorem EditState.copy_copy {more : Bytes} : (state.copy bytes).copy more = state.copy (bytes ++ more) := by
  rw [copy, copy, copy, List.append_assoc]

theorem EditState.copy_nil : state.copy [] = state := by
  rw [copy, List.append_nil]

theorem copyBytes_exec :
    (copyBytes bytes).exec (bufferOf state) = (.ok ⟨⟩, bufferOf (state.copy bytes)) := by
  induction bytes generalizing state with
  | nil => rw [EditState.copy_nil, copyBytes, exec_pure]
  | cons character bytes ih =>
      rw [copyBytes, exec_bind_ok storeByte_exec, ih, EditState.copy_copy]
      rfl

/-- The last byte of the output is where it was stored. -/
theorem outputAt_last (hne : state.output ≠ []) :
    (bufferOf state).outputAt (state.output.length - 1) = state.output.getLast? := by
  obtain ⟨before, last, hlast⟩ : ∃ before last, state.output = before ++ [last] :=
    ⟨_, _, (List.dropLast_concat_getLast hne).symm⟩
  rw [EditBuffer.outputAt, List.findRev?_eq_find?_reverse, bufferOf, hlast, placed_concat]
  simp

/-! ### The editor -/

/-- The outcome with a buffer is that of the step over texts, and stays below the capacity. -/
inductive Agrees (capacity : Nat) : Except NcvFailure EditState → Except NcvFailure Unit × EditBuffer → Prop where
  | ok {state : EditState} (h : state.output.length < capacity) :
      Agrees capacity (.ok state) (.ok ⟨⟩, bufferOf state)
  | error {failure : NcvFailure} {reached : EditState} (h : reached.output.length < capacity) :
      Agrees capacity (.error failure) (.error failure, bufferOf reached)

/-- The part of the editor does with a buffer what the step does with a text. -/
def Carries (capacity : Nat) (m : Editing Unit) (step : EditState → Except NcvFailure EditState) : Prop :=
  ∀ state : EditState, state.output.length < capacity →
    Agrees capacity (step state) (m.exec (bufferOf state))

theorem Agrees.bind {result : Except NcvFailure EditState} {m m' : Editing Unit} {buffer : EditBuffer}
    {step : EditState → Except NcvFailure EditState} (h : Agrees capacity result (m.exec buffer))
    (hm' : Carries capacity m' step) :
    Agrees capacity (result >>= step) (Editing.exec (m >>= fun _ => m') buffer) := by
  generalize houtcome : m.exec buffer = outcome at h
  cases h with
  | ok hstate =>
      rw [exec_bind_ok houtcome]
      exact hm' _ hstate
  | error hreached =>
      rw [exec_bind_error houtcome]
      exact .error hreached

theorem Carries.bind {m m' : Editing Unit} {step step' : EditState → Except NcvFailure EditState}
    (hm : Carries capacity m step) (hm' : Carries capacity m' step') :
    Carries capacity (m >>= fun _ => m') fun state => step state >>= step' :=
  fun state hstate => (hm state hstate).bind hm'

theorem copyLineInto_carries : Carries capacity (copyLineInto capacity line) (copyLine capacity line) := by
  intro state hstate
  rw [copyLineInto, exec_bind_ok exec_get, copyLine]
  change Agrees _ _ (Editing.exec (if line.length ≥ capacity - state.output.length then _ else _) _)
  by_cases hfull : line.length ≥ capacity - state.output.length
  · rw [if_pos hfull, if_pos hfull, exec_throw]
    exact .error hstate
  · rw [if_neg hfull, if_neg hfull, copyBytes_exec]
    refine .ok ?_
    rw [List.length_append]
    omega

theorem replaceLineInto_carries {key : TargetKey} :
    Carries capacity (replaceLineInto capacity targets key) (replaceLine capacity targets key) := by
  intro state hstate
  rw [replaceLineInto, exec_bind_ok exec_get, replaceLine]
  change Agrees _ _ (Editing.exec (if key ∈ state.seen then _ else _) _)
  by_cases hseen : key ∈ state.seen
  · rw [if_pos hseen, if_pos hseen, exec_throw]
    exact .error hstate
  have hmark : ({ bufferOf state with seen := key :: state.seen } : EditBuffer) =
      bufferOf { state with seen := key :: state.seen } := rfl
  rw [if_neg hseen, if_neg hseen, exec_bind_ok exec_set]
  change Agrees _ _ (Editing.exec
    (if key.text.length + (targets.value key).length + 3 ≥ capacity - state.output.length then _ else _)
    { bufferOf state with seen := key :: state.seen })
  rw [hmark]
  by_cases hfull : key.text.length + (targets.value key).length + 3 ≥ capacity - state.output.length
  · rw [if_pos hfull, if_pos hfull, exec_throw]
    exact .error hstate
  · rw [if_neg hfull, if_neg hfull, exec_bind_ok copyBytes_exec, exec_bind_ok storeByte_exec,
      exec_bind_ok copyBytes_exec, copyBytes_exec]
    refine .ok ?_
    simp only [List.length_append, List.length_cons, List.length_nil]
    omega

theorem appendDescriptionInto_exec (hstate : state.output.length < capacity) {description : Bytes} :
    Agrees capacity
      ((appendDescription capacity description state.output).map fun output => { state with output := output })
      ((appendDescriptionInto capacity description).exec (bufferOf state)) := by
  have hstart : ((bufferOf state).written ≠ 0 ∧
      (bufferOf state).outputAt ((bufferOf state).written - 1) ≠ some lineFeed) ↔
      state.output ≠ [] ∧ state.output.getLast? ≠ some lineFeed := by
    have hempty : (bufferOf state).written ≠ 0 ↔ state.output ≠ [] := List.length_eq_zero_iff.not
    rw [hempty]
    refine and_congr_right fun hne => ?_
    rw [← outputAt_last hne]
    rfl
  rw [appendDescriptionInto, exec_bind_ok exec_get, appendDescription]
  dsimp only
  simp only [hstart]
  generalize (if state.output ≠ [] ∧ state.output.getLast? ≠ some lineFeed then [carriageReturn, lineFeed]
    else []) = start
  change Agrees _ _ (Editing.exec (if start.length + (ascii "TargetBbsDescription=").length +
    description.length + 2 ≥ capacity - state.output.length then _ else _) _)
  by_cases hfull : start.length + (ascii "TargetBbsDescription=").length + description.length + 2 ≥
      capacity - state.output.length
  · rw [if_pos hfull, if_pos hfull, exec_throw]
    exact .error hstate
  · rw [if_neg hfull, if_neg hfull, exec_bind_ok copyBytes_exec, exec_bind_ok copyBytes_exec,
      exec_bind_ok copyBytes_exec, copyBytes_exec]
    refine .ok ?_
    simp only [List.length_append, List.length_cons, List.length_nil]
    omega

theorem endSectionInto_carries :
    Carries capacity (endSectionInto capacity targets) (endSection capacity targets) := by
  intro state hstate
  rw [endSectionInto, exec_bind_ok exec_get, endSection]
  change Agrees _ _ (Editing.exec
    (if state.editSection = .boot ∧ TargetKey.targetBbsDescription ∉ state.seen then _ else _) _)
  by_cases hmissing : state.editSection = .boot ∧ TargetKey.targetBbsDescription ∉ state.seen
  swap
  · rw [if_neg hmissing, if_neg hmissing, exec_pure]
    exact .ok hstate
  rw [if_pos hmissing, if_pos hmissing]
  have happend := @appendDescriptionInto_exec capacity state hstate targets.encodedDisk
  generalize houtcome : (appendDescriptionInto capacity targets.encodedDisk).exec (bufferOf state) = outcome
    at happend
  cases hresult : appendDescription capacity targets.encodedDisk state.output with
  | error failure =>
      rw [hresult] at happend
      cases happend with
      | error hreached =>
          rw [exec_bind_error houtcome]
          exact .error hreached
  | ok output =>
      rw [hresult] at happend
      cases happend with
      | ok houtput =>
          rw [exec_bind_ok houtcome, exec_modify]
          exact .ok houtput

theorem editLineInto_carries :
    Carries capacity (editLineInto capacity targets line) fun state => editLine capacity targets state line := by
  intro state hstate
  dsimp only
  rw [editLineInto, editLine]
  by_cases hheader : isEditHeader (editView line) = true
  · rw [if_pos hheader, if_pos hheader]
    have hsection : Carries capacity
        (do
          modify fun buffer => { buffer with editSection := editSectionOf (editView line) }
          copyLineInto capacity line)
        fun state => copyLine capacity line { state with editSection := editSectionOf (editView line) } := by
      intro state hstate
      rw [exec_bind_ok exec_modify]
      exact copyLineInto_carries (state.inSection (editSectionOf (editView line))) hstate
    exact endSectionInto_carries.bind hsection state hstate
  · rw [if_neg hheader, if_neg hheader, exec_bind_ok exec_get]
    rw [show (bufferOf state).editSection = state.editSection from rfl]
    cases editTarget state.editSection (editView line) with
    | none => exact copyLineInto_carries state hstate
    | some key => exact replaceLineInto_carries state hstate

theorem editLinesInto_carries {lines : List Bytes} :
    Carries capacity (editLinesInto capacity targets lines) fun state =>
      lines.foldlM (editLine capacity targets) state := by
  induction lines with
  | nil => exact fun state hstate => .ok hstate
  | cons line lines ih =>
      intro state hstate
      rw [editLinesInto]
      exact editLineInto_carries.bind ih state hstate

/-! ### A whole call -/

/-- What a call leaves: after a failure `*Used` is zero, after a success the whole output is there with its
terminator. -/
inductive LeavesBuffer (capacity : Nat) : Except NcvFailure Bytes → Except NcvFailure Unit × EditBuffer → Prop where
  | ok {buffer : EditBuffer} {output : Bytes} (hroom : output.length < capacity)
      (hused : buffer.used = output.length) (hstores : buffer.stores = placed (output ++ [0])) :
      LeavesBuffer capacity (.ok output) (.ok ⟨⟩, buffer)
  | error {failure : NcvFailure} {reached : EditState} (h : reached.output.length ≤ capacity) :
      LeavesBuffer capacity (.error failure) (.error failure, bufferOf reached)

/-- What follows a part of the editor leaves what it leaves after it. -/
theorem Agrees.leaves {result : Except NcvFailure EditState} {m m' : Editing Unit} {buffer : EditBuffer}
    {rest : EditState → Except NcvFailure Bytes} (h : Agrees capacity result (m.exec buffer))
    (hm' : ∀ state : EditState, state.output.length < capacity →
      LeavesBuffer capacity (rest state) (m'.exec (bufferOf state))) :
    LeavesBuffer capacity (result >>= rest) (Editing.exec (m >>= fun _ => m') buffer) := by
  generalize houtcome : m.exec buffer = outcome at h
  cases h with
  | ok hstate =>
      rw [exec_bind_ok houtcome]
      exact hm' _ hstate
  | error hreached =>
      rw [exec_bind_error houtcome]
      exact .error (Nat.le_of_lt hreached)

/-- The last check of the call, and its terminator. -/
theorem finish_leaves (hstate : state.output.length < capacity) :
    LeavesBuffer capacity
      (if TargetKey.all.all (· ∈ state.seen) then .ok state.output else .error .invalid)
      (Editing.exec
        (do
          let buffer ← get
          if TargetKey.all.all (· ∈ buffer.seen) then
            set { buffer with stores := buffer.stores ++ [(buffer.written, 0)], used := buffer.written }
          else throw .invalid)
        (bufferOf state)) := by
  rw [exec_bind_ok exec_get]
  change LeavesBuffer _ _ (Editing.exec (if TargetKey.all.all (· ∈ state.seen) = true then _ else _) _)
  by_cases hall : TargetKey.all.all (· ∈ state.seen) = true
  · rw [if_pos hall, if_pos hall, exec_set]
    exact .ok hstate rfl placed_concat.symm
  · rw [if_neg hall, if_neg hall, exec_throw]
    exact .error (Nat.le_of_lt hstate)

/-- **The call with a buffer is the call over texts.** -/
theorem runEdit_leaves {input gpu controller disk : Bytes} {used : Nat} :
    LeavesBuffer capacity (ncvEditTargets input gpu controller disk capacity)
      (runEdit input gpu controller disk capacity used) := by
  have hstart : ({ callerBuffer used with used := 0 } : EditBuffer) = bufferOf editStart := rfl
  rw [runEdit, ← Editing.exec, ncvEditTargetsInto, exec_bind_ok exec_modify, hstart, ncvEditTargets]
  by_cases hnone : capacity = 0
  · rw [if_pos hnone, if_pos hnone, exec_throw]
    exact .error (Nat.zero_le _)
  rw [if_neg hnone, if_neg hnone]
  have hroom : editStart.output.length < capacity := Nat.pos_of_ne_zero hnone
  cases hencoded : ncvEncodeDiskDescription disk encodedDescriptionBytes with
  | error failure => exact .error (Nat.zero_le _)
  | ok encodedDisk =>
      refine (editLinesInto_carries editStart hroom).leaves fun state hstate => ?_
      exact (endSectionInto_carries state hstate).leaves fun state hstate => finish_leaves hstate

end CsmVgaSelector
