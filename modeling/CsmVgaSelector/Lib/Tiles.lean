import Mathlib.Algebra.BigOperators.Group.List.Basic
import Mathlib.Algebra.Ring.Nat
import Mathlib.Data.List.Chain
import Mathlib.Order.Basic

/-!
# Ranges one behind the other

Pieces that each begin where the one before ends make up one range, of which every place lies in exactly one of
them.
-/

namespace CsmVgaSelector

/-- From the base on, each piece begins where the one before ends. -/
inductive Tiles {α : Type} (start length : α → Nat) : Nat → List α → Prop where
  | nil {base : Nat} : Tiles start length base []
  | cons {base : Nat} {piece : α} {pieces : List α} (here : start piece = base)
      (behind : Tiles start length (base + length piece) pieces) : Tiles start length base (piece :: pieces)

namespace Tiles

variable {α : Type} {start length : α → Nat} {base place : Nat} {piece : α} {pieces : List α}

theorem of_isChain (h : pieces.IsChain fun piece next => start next = start piece + length piece)
    (hbase : ∀ piece ∈ pieces.head?, start piece = base) : Tiles start length base pieces := by
  induction pieces generalizing base with
  | nil => exact nil
  | cons piece pieces ih =>
      rw [List.isChain_cons] at h
      have hhere : start piece = base := hbase piece rfl
      refine cons hhere (ih h.2 fun next hnext => ?_)
      rw [h.1 next hnext, hhere]

/-- A piece begins behind all those before it. -/
theorem start_eq (h : Tiles start length base pieces) {index : Nat} (hindex : pieces[index]? = some piece) :
    start piece = base + ((pieces.take index).map length).sum := by
  induction h generalizing index with
  | nil => cases hindex
  | cons here behind ih =>
      cases index with
      | zero =>
          rw [← Option.some.inj hindex, here]
          rfl
      | succ index =>
          rw [ih hindex, List.take_succ_cons, List.map_cons, List.sum_cons, Nat.add_assoc]

/-- Where no piece passes the bound, the range does not. -/
theorem le_of_forall {bound : Nat} (h : Tiles start length base pieces) (hbase : base ≤ bound)
    (hpieces : ∀ piece ∈ pieces, start piece + length piece ≤ bound) :
    base + (pieces.map length).sum ≤ bound := by
  induction h with
  | nil => exact hbase
  | @cons base first pieces here behind ih =>
      rw [List.map_cons, List.sum_cons, ← Nat.add_assoc]
      refine ih (here ▸ hpieces first List.mem_cons_self) fun piece hpiece => ?_
      exact hpieces piece (List.mem_cons_of_mem _ hpiece)

/-- Every place of the range lies in exactly one piece. -/
theorem existsUnique (h : Tiles start length base pieces) (hfrom : base ≤ place)
    (hbefore : place < base + (pieces.map length).sum) :
    ∃! index : Nat, ∃ piece, pieces[index]? = some piece ∧ start piece ≤ place ∧ place < start piece + length piece := by
  induction h with
  | nil =>
      rw [List.map_nil, List.sum_nil] at hbefore
      omega
  | @cons base first pieces here behind ih =>
      rw [List.map_cons, List.sum_cons] at hbefore
      by_cases hfirst : place < base + length first
      · refine ⟨0, ⟨first, rfl, here ▸ hfrom, here ▸ hfirst⟩, ?_⟩
        rintro (_ | index) ⟨piece, hpiece, hstart, -⟩
        · rfl
        · have hbehind := behind.start_eq hpiece
          omega
      · obtain ⟨index, ⟨piece, hpiece, hrange⟩, honly⟩ := ih (by omega) (by omega)
        refine ⟨index + 1, ⟨piece, hpiece, hrange⟩, ?_⟩
        rintro (_ | index') ⟨other, hother, hstart, hend⟩
        · rw [← Option.some.inj hother, here] at hend
          omega
        · rw [honly index' ⟨other, hother, hstart, hend⟩]

end Tiles

end CsmVgaSelector
