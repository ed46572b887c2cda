import Mathlib.Data.List.Induction
import Mathlib.Tactic.Common

/-!
# The only item

A scan counts the items that match and keeps the last of them. Where it counts one, the item it has kept is the
only one, and the answer does not depend on the order of the items.
-/

namespace Only

variable {α : Type*}

/-- How many items match, and the last one that does, with its index. -/
structure Found (α : Type*) where
  count : Nat := 0
  last : Option (α × Nat) := none

def Found.see (found : Found α) (matched : Bool) (item : α) (index : Nat) : Found α :=
  if matched then { count := found.count + 1, last := some (item, index) } else found

def scan (matched : α → Bool) (items : List α) : Found α :=
  items.zipIdx.foldl (fun found (item, index) => found.see (matched item) item index) {}

/-- The kept item, where it is the only one. -/
def Found.only (found : Found α) : Option (α × Nat) := if found.count ≠ 1 then none else found.last

variable {matched other : α → Bool} {items items' : List α} {item : α} {index : Nat}

theorem scan_concat : scan matched (items ++ [item]) =
    (scan matched items).see (matched item) item items.length := by
  simp [scan, List.zipIdx_append]

theorem count_scan : (scan matched items).count = (items.filter matched).length := by
  induction items using List.reverseRecOn with
  | nil => rfl
  | append_singleton items item ih =>
      rw [scan_concat, List.filter_append, List.length_append, ← ih]
      unfold Found.see
      by_cases hmatched : matched item <;> simp [hmatched]

/-- The index is that of the only item that matches. -/
structure IsOnly (matched : α → Bool) (items : List α) (item : α) (index : Nat) : Prop where
  place : items[index]? = some item
  accepted : matched item = true
  only : ∀ index' item', items[index']? = some item' → matched item' = true → index' = index

theorem isOnly_concat_of_not_matched {last : α} (hlast : matched last = false) :
    IsOnly matched (items ++ [last]) item index ↔ IsOnly matched items item index := by
  have hplace : ∀ (index : Nat) (item : α), matched item = true →
      ((items ++ [last])[index]? = some item ↔ items[index]? = some item) := by
    intro index item hmatched
    rcases Nat.lt_or_ge index items.length with hlt | hge
    · rw [List.getElem?_append_left hlt]
    · rw [List.getElem?_append_right hge, List.getElem?_eq_none hge]
      refine iff_of_false (fun h => ?_) nofun
      rcases List.mem_singleton.mp (List.mem_of_getElem? h) with rfl
      simp [hlast] at hmatched
  constructor
  · rintro ⟨hhere, hmatched, honly⟩
    refine ⟨(hplace index item hmatched).mp hhere, hmatched, fun index' item' hthere hother => ?_⟩
    exact honly index' item' ((hplace index' item' hother).mpr hthere) hother
  · rintro ⟨hhere, hmatched, honly⟩
    refine ⟨(hplace index item hmatched).mpr hhere, hmatched, fun index' item' hthere hother => ?_⟩
    exact honly index' item' ((hplace index' item' hother).mp hthere) hother

theorem isOnly_concat_of_matched {last : α} (hlast : matched last = true) :
    IsOnly matched (items ++ [last]) item index ↔
      items.filter matched = [] ∧ item = last ∧ index = items.length := by
  constructor
  · rintro ⟨hhere, -, honly⟩
    have hindex := honly items.length last (by simp) hlast
    subst hindex
    refine ⟨List.filter_eq_nil_iff.mpr fun item' hmem hmatched => ?_, by simpa using hhere.symm, rfl⟩
    obtain ⟨place, hplace, hget⟩ := List.getElem_of_mem hmem
    have hsame := honly place item' (by rw [List.getElem?_append_left hplace, List.getElem?_eq_getElem hplace, hget])
      hmatched
    omega
  · rintro ⟨hnone, rfl, rfl⟩
    refine ⟨by simp, hlast, fun index' item' hthere hmatched => ?_⟩
    by_contra hne
    have hlength := (List.getElem?_eq_some_iff.mp hthere).1
    rw [List.length_append, List.length_singleton] at hlength
    rw [List.getElem?_append_left (by omega)] at hthere
    exact List.filter_eq_nil_iff.mp hnone item' (List.mem_of_getElem? hthere) hmatched

/-- What the scan keeps where it counts one. -/
theorem scan_only_iff : (scan matched items).only = some (item, index) ↔ IsOnly matched items item index := by
  induction items using List.reverseRecOn with
  | nil => exact iff_of_false (by simp [scan, Found.only]) fun h => by simpa using h.place
  | append_singleton items last ih =>
      rw [scan_concat]
      cases hlast : matched last with
      | false =>
          rw [isOnly_concat_of_not_matched hlast, ← ih]
          rfl
      | true =>
          rw [isOnly_concat_of_matched hlast, ← List.length_eq_zero_iff, ← count_scan]
          unfold Found.see Found.only
          by_cases hnone : (scan matched items).count = 0
          · simp [hnone, eq_comm]
          · simp [hnone]

theorem last_scan_isSome (h : 0 < (scan matched items).count) : (scan matched items).last.isSome = true := by
  induction items using List.reverseRecOn with
  | nil => cases h
  | append_singleton items last ih =>
      rw [scan_concat] at h ⊢
      unfold Found.see at h ⊢
      split at h
      case isTrue hlast => rw [if_pos hlast, Option.isSome_some]
      case isFalse hlast =>
        rw [if_neg hlast]
        exact ih h

/-- The item by itself, without its place. -/
theorem scan_only_map_iff : (scan matched items).only.map Prod.fst = some item ↔ items.filter matched = [item] := by
  rw [Option.map_eq_some_iff]
  constructor
  · rintro ⟨⟨_, index⟩, honly, rfl⟩
    have hisOnly := scan_only_iff.mp honly
    have hmem := List.mem_filter.mpr ⟨List.mem_of_getElem? hisOnly.place, hisOnly.accepted⟩
    have hcount : (items.filter matched).length = 1 := by
      rw [← count_scan]
      by_contra hne
      simp [Found.only, hne] at honly
    obtain ⟨first, hfirst⟩ := List.length_eq_one_iff.mp hcount
    rw [hfirst] at hmem ⊢
    rw [List.mem_singleton.mp hmem]
  · intro hfilter
    have hcount : (scan matched items).count = 1 := by rw [count_scan, hfilter, List.length_singleton]
    obtain ⟨⟨kept, index⟩, hlast⟩ := Option.isSome_iff_exists.mp (last_scan_isSome (by rw [hcount]; exact Nat.one_pos))
    have honly : (scan matched items).only = some (kept, index) := by rw [Found.only, hcount, hlast]; rfl
    have hisOnly := scan_only_iff.mp honly
    have hmem := List.mem_filter.mpr ⟨List.mem_of_getElem? hisOnly.place, hisOnly.accepted⟩
    rw [hfilter, List.mem_singleton] at hmem
    exact ⟨(kept, index), honly, hmem⟩

/-- The only item is the same in every order. -/
theorem scan_only_perm (h : items.Perm items') :
    (scan matched items).only.map Prod.fst = (scan matched items').only.map Prod.fst := by
  refine Option.ext fun item => ?_
  rw [scan_only_map_iff, scan_only_map_iff]
  have hperm := h.filter matched
  constructor
  · intro hone
    exact List.perm_singleton.mp (hone ▸ hperm.symm)
  · intro hone
    exact List.perm_singleton.mp (hone ▸ hperm)

/-- Of two searches, the items are at one place just where one of them answers to both. -/
theorem only_index_eq_iff {index' : Nat} {item' : α} (h : IsOnly matched items item index)
    (h' : IsOnly other items item' index') : index = index' ↔ other item = true := by
  constructor
  · rintro rfl
    obtain rfl := Option.some.inj (h.place.symm.trans h'.place)
    exact h'.accepted
  · exact h'.only index item h.place

end Only
