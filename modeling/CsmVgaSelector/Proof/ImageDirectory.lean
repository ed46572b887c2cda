import CsmVgaSelector.Proof.FilePath
import Mathlib.Data.List.TakeWhile

/-!
# The directory of the application's file

The names between the separators of the image's parts are the names of its directory and, last, its own.
-/

namespace CsmVgaSelector

open Join

variable {lib : DevicePathLib} {filePath : List UInt8} {fragments : List (List UInt16)}
  {path text name : List UInt16}

/-! ### The last backslash -/

theorem findLastSeparator_append {front rest : List UInt16} {index : Nat} {lastSeparator : Option Nat} :
    findLastSeparator (front ++ rest) index lastSeparator =
      findLastSeparator rest (index + front.length) (findLastSeparator front index lastSeparator) := by
  induction front generalizing index lastSeparator with
  | nil => rfl
  | cons character front ih =>
      rw [List.cons_append, findLastSeparator, findLastSeparator, ih, List.length_cons, Nat.add_right_comm,
        Nat.add_assoc]

theorem findLastSeparator_of_not_mem {index : Nat} {lastSeparator : Option Nat} (h : backslash ∉ text) :
    findLastSeparator text index lastSeparator = lastSeparator := by
  induction text generalizing index with
  | nil => rfl
  | cons character text ih =>
      have hcharacter : character ≠ backslash := fun heq => h (heq ▸ List.mem_cons_self)
      rw [findLastSeparator, if_neg hcharacter]
      exact ih fun hmem => h (List.mem_cons_of_mem _ hmem)

theorem findLastSeparator_of_name (h : backslash ∉ name) :
    findLastSeparator (text ++ backslash :: name) 0 none = some text.length := by
  rw [findLastSeparator_append, findLastSeparator, if_pos rfl, findLastSeparator_of_not_mem h, Nat.zero_add]

/-- A text without backslash, or the one after which there is no more. -/
theorem exists_name (path : List UInt16) :
    backslash ∉ path ∨ ∃ text name, path = text ++ backslash :: name ∧ backslash ∉ name := by
  by_cases hmem : backslash ∈ path
  · obtain ⟨front, rest, hpath, hnone⟩ := List.eq_append_cons_of_mem (List.mem_reverse.mpr hmem)
    refine .inr ⟨rest.reverse, front.reverse, ?_, mt List.mem_reverse.mp hnone⟩
    rw [← List.reverse_reverse path, hpath]
    simp
  · exact .inl hmem

/-! ### The path that was put together -/

theorem HoldsFragments.ne_zero (h : HoldsFragments lib filePath fragments) :
    ∀ fragment ∈ fragments, ∀ character ∈ fragment, character ≠ 0 := by
  obtain ⟨nodes, -, rfl⟩ := h
  intro fragment hfragment character hcharacter
  obtain ⟨node, -, rfl⟩ := List.mem_map.mp hfragment
  simpa using List.mem_takeWhile_imp hcharacter

theorem backslashed_ne_slash (character : UInt16) : backslashed character ≠ slash := by
  unfold backslashed
  split
  case isTrue => decide
  case isFalse hother => exact hother

theorem ne_slash_of_mem_joinedPath {character : UInt16} (hcharacter : character ∈ joinedPath fragments) :
    character ≠ slash := by
  obtain ⟨original, -, rfl⟩ := List.mem_map.mp hcharacter
  exact backslashed_ne_slash original

theorem HoldsFragments.joinedPath_ne_zero (h : HoldsFragments lib filePath fragments) {character : UInt16}
    (hcharacter : character ∈ joinedPath fragments) : character ≠ 0 := by
  obtain ⟨original, horiginal, rfl⟩ := List.mem_map.mp hcharacter
  have hne : original ≠ 0 := by
    rcases mem_join horiginal with rfl | ⟨fragment, hfragment, hmem⟩
    · decide
    · exact h.ne_zero fragment (List.mem_filter.mp hfragment).1 original hmem
  unfold backslashed
  split
  case isTrue => decide
  case isFalse => exact hne

/-- Up to its `NUL` the buffer is the path that was put together. -/
theorem HoldsFragments.takeWhile_result (h : HoldsFragments lib filePath fragments) :
    (pathBufferOf ((measured fragments).sized + 1) (joinedPath fragments)).result.takeWhile (· != 0) =
      joinedPath fragments := by
  have hlength := @length_joinedPath_le fragments
  have hzeros : (measured fragments).sized + 1 - (joinedPath fragments).length =
      (measured fragments).sized - (joinedPath fragments).length + 1 := by omega
  rw [pathBufferOf, hzeros, List.replicate_succ, List.takeWhile_append_of_pos]
  · simp
  · intro character hcharacter
    simpa using h.joinedPath_ne_zero hcharacter

theorem runs_joinedPath : runs isSeparator (joinedPath fragments) = fragments.flatMap (runs isSeparator) := by
  rw [joinedPath, runs_map isSeparator_backslashed, runs_join rfl]
  intro character hcharacter
  unfold backslashed
  rw [if_neg]
  rintro rfl
  cases hcharacter

theorem isSeparator_of_ne_slash {character : UInt16} (h : character ≠ slash) :
    isSeparator character = (character == backslash) := by
  have hslash : (character == slash) = false := by simpa using h
  rw [isSeparator, hslash, Bool.or_false]

/-! ### The directory -/

/-- What is kept of a path before its last backslash has the names that stand there. -/
theorem runs_take_drop (hpath : path = text ++ backslash :: name) :
    runs isSeparator ((path.drop (path.takeWhile (· == backslash)).length).take
        (text.length - (path.takeWhile (· == backslash)).length)) =
      runs isSeparator text := by
  generalize hlead : (path.takeWhile (· == backslash)).length = lead
  have hleading : ∀ character ∈ text.take lead, isSeparator character = true := by
    intro character hcharacter
    have hfront : path.takeWhile (· == backslash) = path.take lead :=
      hlead ▸ List.prefix_iff_eq_take.mp (List.takeWhile_prefix _)
    have hmem : character ∈ path.takeWhile (· == backslash) := by
      rw [hfront, hpath, List.take_append]
      exact List.mem_append_left _ hcharacter
    have hbackslash : character = backslash := by simpa using List.mem_takeWhile_imp hmem
    rw [hbackslash]
    rfl
  have hkept : (path.drop lead).take (text.length - lead) = text.drop lead := by
    rw [← List.drop_take, hpath, List.take_left]
  calc runs isSeparator ((path.drop lead).take (text.length - lead))
      = runs isSeparator (text.take lead ++ text.drop lead) := by
        rw [hkept, runs_append_of_forall hleading]
    _ = runs isSeparator text := by rw [List.take_append_drop]

/-- A path that does not end with a backslash is the names before its last one and a name of its own. -/
theorem runs_of_name (hslash : ∀ character ∈ path, character ≠ slash) (hpath : path = text ++ name)
    (hname : name ≠ []) (hnone : backslash ∉ name) (htext : text = [] ∨ text.getLast? = some backslash) :
    runs isSeparator path = runs isSeparator text ++ [name] := by
  have hrun : runs isSeparator name = [name] := by
    refine runs_of_forall_not hname fun character hcharacter => ?_
    rw [isSeparator_of_ne_slash (hslash character (hpath ▸ List.mem_append_right _ hcharacter))]
    simpa using fun heq : character = backslash => hnone (heq ▸ hcharacter)
  rcases htext with rfl | hlast
  · rw [hpath, List.nil_append, hrun, runs_nil, List.nil_append]
  · obtain ⟨front, rfl⟩ := List.getLast?_eq_some_iff.mp hlast
    rw [hpath, List.append_assoc, List.singleton_append, runs_append_cons rfl, runs_concat rfl, hrun]

/-- The cut at the last backslash, on a path that was put together. -/
theorem runs_directory (hslash : ∀ character ∈ path, character ≠ slash) (hpath : path ≠ [])
    (hlast : findLastSeparator path 0 none ≠ some (path.length - 1)) :
    ∃ name, runs isSeparator path =
      runs isSeparator ((path.drop (path.takeWhile (· == backslash)).length).take
        (match findLastSeparator path 0 none with
        | none => 0
        | some lastSeparator =>
            if lastSeparator ≤ (path.takeWhile (· == backslash)).length then 0
            else lastSeparator - (path.takeWhile (· == backslash)).length)) ++ [name] := by
  rcases exists_name path with hnone | ⟨text, name, hcut, hname⟩
  · refine ⟨path, ?_⟩
    rw [findLastSeparator_of_not_mem hnone,
      runs_of_name hslash (List.nil_append path).symm hpath hnone (.inl rfl)]
    rfl
  · have hfind : findLastSeparator path 0 none = some text.length := hcut ▸ findLastSeparator_of_name hname
    have hne : name ≠ [] := by
      rintro rfl
      refine hlast ?_
      rw [hfind, hcut, List.length_append, List.length_singleton, Nat.add_sub_cancel]
    refine ⟨name, ?_⟩
    rw [hfind]
    dsimp only
    rw [show (if text.length ≤ (path.takeWhile (· == backslash)).length then 0
        else text.length - (path.takeWhile (· == backslash)).length) =
          text.length - (path.takeWhile (· == backslash)).length by split <;> omega,
      runs_take_drop hcut]
    have hsplit : path = text ++ [backslash] ++ name := by
      rw [hcut, List.append_assoc, List.singleton_append]
    rw [runs_of_name hslash hsplit hne hname (.inr List.getLast?_concat), runs_concat rfl]

/-- The names of the image's parts are those of its directory and the file's own. -/
theorem getImageDirectoryPath_names {granted grantedResult : Bool} {directory : List UInt16}
    (h : getImageDirectoryPath lib granted grantedResult filePath = .ok directory) :
    ∃ fragments text name, HoldsFragments lib filePath fragments ∧ directory = text ++ [0] ∧
      fragments.flatMap (runs isSeparator) = runs isSeparator text ++ [name] := by
  unfold getImageDirectoryPath at h
  by_cases hholds : ∃ fragments, HoldsFragments lib filePath fragments
  · obtain ⟨fragments, hfragments⟩ := hholds
    have ⟨nodes, hpath, hnodes⟩ := hfragments
    rw [appendFilePathFragments_of_nodes hpath hnodes] at h
    by_cases hempty : joinedPath fragments = []
    · rw [if_pos hempty] at h
      cases h
    · rw [if_neg hempty] at h
      cases granted with
      | false => cases h
      | true =>
          rw [if_pos rfl] at h
          dsimp only at h
          rw [hfragments.takeWhile_result] at h
          split at h
          case isTrue => cases h
          case isFalse hcut =>
            split at h
            case isTrue => cases h
            case isFalse =>
              obtain ⟨name, hname⟩ := runs_directory (fun _ => ne_slash_of_mem_joinedPath) hempty
                fun hlast => hcut (.inr hlast)
              refine ⟨fragments, _, name, hfragments, (Except.ok.inj h).symm, ?_⟩
              rw [← runs_joinedPath]
              exact hname
  · rw [appendFilePathFragments_of_not hholds] at h
    cases h

end CsmVgaSelector
