import Mathlib.Algebra.BigOperators.Group.List.Basic
import Mathlib.Algebra.Ring.Nat
import Mathlib.Tactic.Common

/-!
# Joining pieces with a separator where there is none

Between two nonempty neighbours stands a separator, unless the one before ends with one or the one behind starts
with one. A writer that goes through the pieces once decides this by the text it has written so far, and ends
with the same text (`foldl_extend`). The runs between separators are those of the pieces (`runs_join`).
-/

namespace Join

variable {α β : Type} (isSeparator : α → Bool) (separator : α)

/-- What stands between two texts. -/
def between (left right : List α) : List α :=
  if left.getLast?.any isSeparator || right.head?.any isSeparator then [] else [separator]

def join : List (List α) → List α
  | [] => []
  | [piece] => piece
  | piece :: next :: rest => piece ++ between isSeparator separator piece next ++ join (next :: rest)

def nonempty (pieces : List (List α)) : List (List α) := pieces.filter fun piece => !piece.isEmpty

/-- A text with one more piece behind it. -/
def extend (text piece : List α) : List α :=
  if text.isEmpty || piece.isEmpty then text ++ piece
  else text ++ between isSeparator separator text piece ++ piece

/-- The runs of a text between its separators. -/
def runs (text : List α) : List (List α) := nonempty (text.splitOnP isSeparator)

variable {isSeparator separator} {text text' piece : List α} {pieces : List (List α)}

/-! ### One piece -/

theorem extend_nil_left : extend isSeparator separator [] piece = piece := rfl

theorem extend_nil_right : extend isSeparator separator text [] = text := by
  simp [extend]

theorem extend_of_ne (htext : text ≠ []) (hpiece : piece ≠ []) :
    extend isSeparator separator text piece = text ++ between isSeparator separator text piece ++ piece := by
  simp [extend, htext, hpiece]

theorem length_between_le (left right : List α) : (between isSeparator separator left right).length ≤ 1 := by
  unfold between
  split <;> simp

theorem length_extend_le :
    (extend isSeparator separator text piece).length ≤ text.length + (piece.length + 1) := by
  unfold extend
  split
  · rw [List.length_append]
    omega
  · have hbetween := @length_between_le _ isSeparator separator text piece
    rw [List.length_append, List.length_append]
    omega

/-- The last character decides what comes behind a text. -/
theorem between_append (hpiece : piece ≠ []) :
    between isSeparator separator (text ++ piece) text' = between isSeparator separator piece text' := by
  obtain ⟨front, last, rfl⟩ := (List.eq_nil_or_concat piece).resolve_left hpiece
  simp [between]

/-! ### All of them -/

theorem join_append_cons (hpiece : piece ≠ []) :
    join isSeparator separator ((text ++ piece) :: pieces) =
      text ++ join isSeparator separator (piece :: pieces) := by
  cases pieces with
  | nil => rfl
  | cons next rest => simp [join, between_append hpiece]

theorem foldl_extend_of_ne (htext : text ≠ []) :
    pieces.foldl (extend isSeparator separator) text =
      join isSeparator separator (text :: nonempty pieces) := by
  induction pieces generalizing text with
  | nil => rfl
  | cons piece rest ih =>
      rw [List.foldl_cons]
      by_cases hpiece : piece = []
      · subst hpiece
        rw [extend_nil_right]
        exact ih htext
      · have hkeep : nonempty (piece :: rest) = piece :: nonempty rest := by simp [nonempty, hpiece]
        rw [extend_of_ne htext hpiece, hkeep]
        calc rest.foldl (extend isSeparator separator)
              (text ++ between isSeparator separator text piece ++ piece)
            = join isSeparator separator
                ((text ++ between isSeparator separator text piece ++ piece) :: nonempty rest) :=
              ih (by simp [hpiece])
          _ = text ++ between isSeparator separator text piece ++
                join isSeparator separator (piece :: nonempty rest) := join_append_cons hpiece
          _ = join isSeparator separator (text :: piece :: nonempty rest) := rfl

/-- Writing the pieces one by one joins those that are not empty. -/
theorem foldl_extend :
    pieces.foldl (extend isSeparator separator) [] = join isSeparator separator (nonempty pieces) := by
  induction pieces with
  | nil => rfl
  | cons piece rest ih =>
      rw [List.foldl_cons, extend_nil_left]
      by_cases hpiece : piece = []
      · subst hpiece
        exact ih
      · have hkeep : nonempty (piece :: rest) = piece :: nonempty rest := by simp [nonempty, hpiece]
        rw [foldl_extend_of_ne hpiece, hkeep]

/-- At most one separator for each piece. -/
theorem length_foldl_extend_le :
    (pieces.foldl (extend isSeparator separator) text).length ≤
      text.length + (pieces.map fun piece => piece.length + 1).sum := by
  induction pieces generalizing text with
  | nil => simp
  | cons piece rest ih =>
      have hpiece := @length_extend_le _ isSeparator separator text piece
      have hrest := @ih (extend isSeparator separator text piece)
      rw [List.foldl_cons, List.map_cons, List.sum_cons]
      omega

theorem mem_join {char : α} (h : char ∈ join isSeparator separator pieces) :
    char = separator ∨ ∃ piece ∈ pieces, char ∈ piece := by
  induction pieces with
  | nil => cases h
  | cons piece rest ih =>
      cases rest with
      | nil => exact .inr ⟨piece, List.mem_cons_self, h⟩
      | cons next rest =>
          rw [join, List.append_assoc] at h
          rcases List.mem_append.mp h with hpiece | h
          · exact .inr ⟨piece, List.mem_cons_self, hpiece⟩
          · rcases List.mem_append.mp h with hbetween | h
            · unfold between at hbetween
              split at hbetween
              · cases hbetween
              · exact .inl (List.mem_singleton.mp hbetween)
            · refine (ih h).imp id ?_
              rintro ⟨other, hother, hchar⟩
              exact ⟨other, List.mem_cons_of_mem _ hother, hchar⟩

/-- The pieces are in the joined text, in their order. -/
theorem flatten_sublist_join : pieces.flatten.Sublist (join isSeparator separator pieces) := by
  induction pieces with
  | nil => exact .refl _
  | cons piece rest ih =>
      cases rest with
      | nil => simp [join]
      | cons next rest =>
          rw [List.flatten_cons, join]
          exact (List.sublist_append_left piece _).append ih

theorem flatten_nonempty : (nonempty pieces).flatten = pieces.flatten := by
  induction pieces with
  | nil => rfl
  | cons piece rest ih =>
      unfold nonempty at ih ⊢
      by_cases hpiece : piece = []
      · simp [hpiece, ih]
      · simp [hpiece, ih]

/-- Only empty pieces give an empty text. -/
theorem join_nonempty_eq_nil :
    join isSeparator separator (nonempty pieces) = [] ↔ pieces.flatten = [] := by
  constructor
  · intro hjoin
    have hsublist := @flatten_sublist_join _ isSeparator separator (nonempty pieces)
    rw [hjoin, flatten_nonempty] at hsublist
    exact List.sublist_nil.mp hsublist
  · intro hflatten
    have hnone : nonempty pieces = [] := by
      refine List.filter_eq_nil_iff.mpr fun piece hpiece => ?_
      simp [List.flatten_eq_nil_iff.mp hflatten piece hpiece]
    rw [hnone]
    rfl

/-! ### Characters that are rewritten -/

section Map

variable {isSeparator' : β → Bool} {separator' : β} {f : α → β}

theorem between_map (hsame : ∀ a, isSeparator' (f a) = isSeparator a) (hseparator : f separator = separator')
    (left right : List α) :
    between isSeparator' separator' (left.map f) (right.map f) =
      (between isSeparator separator left right).map f := by
  have hmap (a : Option α) : (a.map f).any isSeparator' = a.any isSeparator := by
    cases a with
    | none => rfl
    | some a => exact hsame a
  unfold between
  rw [List.getLast?_map, List.head?_map, hmap, hmap]
  split
  · rfl
  · rw [List.map_singleton, hseparator]

/-- A rewriting that keeps which characters are separators keeps where they are put. -/
theorem join_map (hsame : ∀ a, isSeparator' (f a) = isSeparator a) (hseparator : f separator = separator') :
    join isSeparator' separator' (pieces.map (List.map f)) = (join isSeparator separator pieces).map f := by
  induction pieces with
  | nil => rfl
  | cons piece rest ih =>
      cases rest with
      | nil => rfl
      | cons next rest =>
          rw [List.map_cons, List.map_cons] at *
          rw [join, join, between_map hsame hseparator, ih, List.map_append, List.map_append]

theorem nonempty_map : nonempty (pieces.map (List.map f)) = (nonempty pieces).map (List.map f) := by
  unfold nonempty
  rw [List.filter_map]
  congr 1
  apply List.filter_congr
  intro piece _
  simp

end Map

/-! ### Runs -/

theorem nonempty_append (left right : List (List α)) :
    nonempty (left ++ right) = nonempty left ++ nonempty right := List.filter_append ..

theorem runs_nil : runs isSeparator ([] : List α) = [] := by
  simp [runs, nonempty]

theorem runs_append_cons {char : α} (hchar : isSeparator char = true) :
    runs isSeparator (text ++ char :: text') = runs isSeparator text ++ runs isSeparator text' := by
  rw [runs, List.splitOnP_append_cons _ _ hchar, nonempty_append]
  rfl

theorem runs_cons {char : α} (hchar : isSeparator char = true) :
    runs isSeparator (char :: text) = runs isSeparator text := by
  have h := @runs_append_cons _ _ [] text _ hchar
  rwa [runs_nil] at h

theorem runs_concat {char : α} (hchar : isSeparator char = true) :
    runs isSeparator (text ++ [char]) = runs isSeparator text := by
  rw [runs_append_cons hchar, runs_nil, List.append_nil]

theorem runs_append_of_forall (h : ∀ char ∈ text, isSeparator char = true) :
    runs isSeparator (text ++ text') = runs isSeparator text' := by
  induction text with
  | nil => rfl
  | cons char text ih =>
      rw [List.cons_append, runs_cons (h char List.mem_cons_self)]
      exact ih fun other hother => h other (List.mem_cons_of_mem _ hother)

/-- A text without separators is one run. -/
theorem runs_of_forall_not (htext : text ≠ []) (h : ∀ char ∈ text, isSeparator char = false) :
    runs isSeparator text = [text] := by
  rw [runs, List.splitOnP_eq_singleton h]
  simp [nonempty, htext]

/-- A rewriting of the separators among themselves leaves the runs as they are. -/
theorem runs_map {f : α → α} (hsame : ∀ a, isSeparator (f a) = isSeparator a)
    (hfix : ∀ a, isSeparator a = false → f a = a) :
    runs isSeparator (text.map f) = runs isSeparator text := by
  have hsplit : (text.map f).splitOnP isSeparator = text.splitOnP isSeparator := by
    induction text with
    | nil => rfl
    | cons char text ih =>
        rw [List.map_cons, List.splitOnP_cons_eq_if_modifyHead, List.splitOnP_cons_eq_if_modifyHead, hsame, ih]
        split
        case isTrue => rfl
        case isFalse hchar => rw [hfix char (Bool.of_not_eq_true hchar)]
  rw [runs, hsplit, runs]

/-- What stands between two texts keeps their runs apart. -/
theorem runs_between (hseparator : isSeparator separator = true) (left right : List α) :
    runs isSeparator (left ++ between isSeparator separator left right ++ right) =
      runs isSeparator left ++ runs isSeparator right := by
  unfold between
  split
  case isTrue hmeets =>
    rw [List.append_nil]
    rcases (Bool.or_eq_true _ _).mp hmeets with hleft | hright
    · obtain ⟨last, hlast, hchar⟩ := (Option.any_eq_true _ _).mp hleft
      obtain ⟨front, rfl⟩ := List.getLast?_eq_some_iff.mp hlast
      rw [runs_concat hchar, List.append_assoc]
      exact runs_append_cons hchar
    · obtain ⟨first, hfirst, hchar⟩ := (Option.any_eq_true _ _).mp hright
      obtain ⟨tail, rfl⟩ := List.head?_eq_some_iff.mp hfirst
      rw [runs_cons hchar]
      exact runs_append_cons hchar
  case isFalse =>
    rw [List.append_assoc]
    exact runs_append_cons hseparator

theorem runs_extend (hseparator : isSeparator separator = true) :
    runs isSeparator (extend isSeparator separator text piece) =
      runs isSeparator text ++ runs isSeparator piece := by
  unfold extend
  split
  case isTrue hempty =>
    rcases (Bool.or_eq_true _ _).mp hempty with htext | hpiece
    · rw [List.isEmpty_iff.mp htext, runs_nil, List.nil_append, List.nil_append]
    · rw [List.isEmpty_iff.mp hpiece, runs_nil, List.append_nil, List.append_nil]
  case isFalse => exact runs_between hseparator text piece

theorem runs_foldl_extend (hseparator : isSeparator separator = true) :
    runs isSeparator (pieces.foldl (extend isSeparator separator) text) =
      runs isSeparator text ++ pieces.flatMap (runs isSeparator) := by
  induction pieces generalizing text with
  | nil => rw [List.foldl_nil, List.flatMap_nil, List.append_nil]
  | cons piece rest ih =>
      rw [List.foldl_cons, ih, runs_extend hseparator, List.append_assoc, List.flatMap_cons]

/-- Joining loses no run, adds none and merges none. -/
theorem runs_join (hseparator : isSeparator separator = true) :
    runs isSeparator (join isSeparator separator (nonempty pieces)) = pieces.flatMap (runs isSeparator) := by
  rw [← foldl_extend, runs_foldl_extend hseparator, runs_nil, List.nil_append]

end Join
