import Mathlib.Logic.Function.Basic
import Mathlib.Tactic.Common

/-!
# Undo logs

A log of the old values of what was overwritten, oldest entry first. Replaying it backwards puts every
value back, because the oldest entry of a cell is the last one to be written there, and that entry is
the value from before the first change. What the cells of the log hold in the meantime does not matter,
so an interrupted replay can be started over.
-/

namespace CsmVgaSelector.UndoLog

variable {ι α : Type*} [DecidableEq ι]

/-- Put the old values back, the latest entry first. -/
def replay (log : List (ι × α)) (memory : ι → α) : ι → α :=
  log.foldr (fun entry memory => Function.update memory entry.1 entry.2) memory

variable {log : List (ι × α)} {original memory memory' : ι → α} {i : ι}

@[simp] theorem replay_nil : replay [] memory = memory := rfl

@[simp] theorem replay_cons {entry : ι × α} :
    replay (entry :: log) memory = Function.update (replay log memory) entry.1 entry.2 :=
  rfl

theorem replay_append {newer : List (ι × α)} :
    replay (log ++ newer) memory = replay log (replay newer memory) :=
  List.foldr_append

/-- A cell the log does not mention keeps what it holds. -/
theorem replay_apply_of_notMem (h : ∀ entry ∈ log, entry.1 ≠ i) : replay log memory i = memory i := by
  induction log with
  | nil => rfl
  | cons entry log ih =>
      have hentry : i ≠ entry.1 := (h entry (List.mem_cons_self ..)).symm
      rw [replay_cons, Function.update_of_ne hentry]
      exact ih fun other hother => h other (List.mem_cons_of_mem _ hother)

theorem replay_apply_congr (h : (∀ entry ∈ log, entry.1 ≠ i) → memory i = memory' i) :
    replay log memory i = replay log memory' i := by
  induction log with
  | nil => exact h fun _ hentry => nomatch hentry
  | cons entry log ih =>
      by_cases hi : i = entry.1
      · simp [hi]
      · rw [replay_cons, replay_cons, Function.update_of_ne hi, Function.update_of_ne hi]
        refine ih fun hlog => h fun other hother => ?_
        rcases List.mem_cons.mp hother with rfl | hother
        · exact Ne.symm hi
        · exact hlog other hother

/-- Only the cells outside the log matter to a replay. -/
theorem replay_congr (h : ∀ i, (∀ entry ∈ log, entry.1 ≠ i) → memory i = memory' i) :
    replay log memory = replay log memory' :=
  funext fun i => replay_apply_congr (h i)

/-- The log undoes everything that separates the memory from the original. -/
def Undoes (log : List (ι × α)) (original memory : ι → α) : Prop := replay log memory = original

/-- Record the old value and write: the log still undoes everything. -/
theorem Undoes.write (h : Undoes log original memory) (i : ι) (value : α) :
    Undoes (log ++ [(i, memory i)]) original (Function.update memory i value) := by
  rw [Undoes, replay_append, replay_cons, replay_nil, Function.update_idem, Function.update_eq_self]
  exact h

/-- **A replay can be started over.** Whatever the cells of the log have come to hold. -/
theorem Undoes.replay_eq (h : Undoes log original memory)
    (hoff : ∀ i, (∀ entry ∈ log, entry.1 ≠ i) → memory' i = memory i) :
    replay log memory' = original := by
  rw [replay_congr hoff]
  exact h

/-- The original is its own replay. -/
theorem Undoes.of_original (h : Undoes log original memory) : Undoes log original original :=
  h.replay_eq fun i hi => by
    rw [← congrFun h i, replay_apply_of_notMem hi]

end CsmVgaSelector.UndoLog
