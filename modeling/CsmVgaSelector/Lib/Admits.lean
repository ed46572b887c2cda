import Mathlib.Data.List.Basic
import Mathlib.Tactic.Common

/-!
# Admissible traces

A property of a trace that is about each of its events and what stands before it. Such a property is kept
or lost one event at a time.
-/

namespace CsmVgaSelector

variable {α : Type}

/-- Every event of the trace is admitted by what stands before it. -/
def Admits (admitted : List α → α → Prop) (trace : List α) : Prop :=
  ∀ before event after, trace = before ++ event :: after → admitted before event

variable {admitted : List α → α → Prop}

theorem admits_nil : Admits admitted [] := by
  intro before event after h
  simp at h

/-- A split of a longer trace is a split at its last event or a split of the trace. -/
theorem split_concat {trace before after : List α} {last event : α}
    (h : trace ++ [last] = before ++ event :: after) :
    (after = [] ∧ trace = before ∧ last = event) ∨
      ∃ front, after = front ++ [last] ∧ trace = before ++ event :: front := by
  rcases List.eq_nil_or_concat after with rfl | ⟨front, final, rfl⟩
  · obtain ⟨rfl, hlast⟩ := List.append_inj' h rfl
    exact .inl ⟨rfl, rfl, by simpa using hlast⟩
  · have hends : trace ++ [last] = (before ++ event :: front) ++ [final] := by simpa using h
    obtain ⟨hfront, hlast⟩ := List.append_inj' hends rfl
    obtain rfl : last = final := by simpa using hlast
    exact .inr ⟨front, List.concat_eq_append, hfront⟩

theorem Admits.concat {trace : List α} {last : α} (h : Admits admitted trace)
    (hlast : admitted trace last) : Admits admitted (trace ++ [last]) := by
  intro before event after hsplit
  rcases split_concat hsplit with ⟨-, rfl, rfl⟩ | ⟨front, -, hfront⟩
  · exact hlast
  · exact h before event front hfront

/-- Behind a trace from which on everything is admitted anything may stand. -/
theorem Admits.append {first second : List α} (h : Admits admitted first)
    (hrest : ∀ before event after, second = before ++ event :: after →
      admitted (first ++ before) event) : Admits admitted (first ++ second) := by
  intro before event after hsplit
  rcases List.append_eq_append_iff.mp hsplit with ⟨middle, rfl, hmiddle⟩ | ⟨middle, rfl, hfirst⟩
  · exact hrest middle event after hmiddle
  · cases middle with
    | nil => simpa using hrest [] event after hfirst.symm
    | cons head tail =>
        obtain ⟨rfl, -⟩ := List.cons.inj hfirst
        exact h before event tail rfl

/-- Events that are admitted anywhere. -/
theorem Admits.append_free {first second : List α} (h : Admits admitted first)
    (hsecond : ∀ event ∈ second, ∀ before, admitted before event) :
    Admits admitted (first ++ second) :=
  h.append fun _ event _ hsplit => hsecond event (by simp [hsplit]) _

end CsmVgaSelector
