import Mathlib.Dynamics.PeriodicPts.Defs
import Mathlib.Tactic.Common

/-!
# Walks around a cycle

The places of a cycle are all passed by going forwards from any of them. From a place with some property, going
forwards to the next place with it, again and again, passes every such place once before it is back, and
going backwards to the place before undoes one step.
-/

namespace Round

open Function

variable {α : Type*}

/-- The first place with the property among so many that follow. -/
def next (f : α → α) (p : α → Bool) : Nat → α → Option α
  | 0, _ => none
  | steps + 1, x => if p (f x) then some (f x) else next f p steps (f x)

/-- `f` goes forwards around the places of `s`, of which there are at most `n`, and `g` backwards. -/
structure IsCycle (f g : α → α) (s : Set α) (n : Nat) : Prop where
  forwards : ∀ x ∈ s, f x ∈ s
  undo : ∀ x ∈ s, g (f x) = x
  around : ∀ x ∈ s, f^[n] x = x
  passes : ∀ x ∈ s, ∀ y ∈ s, ∃ m, f^[m] x = y
  pos : 0 < n

variable {f g : α → α} {p : α → Bool} {s : Set α} {n steps : Nat} {x y : α}

theorem next_eq_some : next f p steps x = some y ↔
    ∃ d < steps, f^[d + 1] x = y ∧ p y = true ∧ ∀ e < d, p (f^[e + 1] x) = false := by
  induction steps generalizing x with
  | zero => simp [next]
  | succ steps ih =>
      rw [next]
      split
      case isTrue hhere =>
        rw [Option.some.injEq]
        constructor
        · rintro rfl
          exact ⟨0, Nat.zero_lt_succ _, rfl, hhere, fun e he => absurd he (Nat.not_lt_zero e)⟩
        · rintro ⟨d, -, hy, -, hbefore⟩
          rcases Nat.eq_zero_or_pos d with rfl | hd
          · exact hy
          · have hnot := hbefore 0 hd
            rw [iterate_one, hhere] at hnot
            cases hnot
      case isFalse hhere =>
        rw [ih]
        constructor
        · rintro ⟨d, hd, hy, hp, hbefore⟩
          refine ⟨d + 1, Nat.succ_lt_succ hd, hy, hp, fun e he => ?_⟩
          rcases Nat.eq_zero_or_pos e with rfl | hpos
          · simpa using hhere
          · have hearlier := hbefore (e - 1) (by omega)
            rwa [← iterate_succ_apply, Nat.sub_add_cancel hpos] at hearlier
        · rintro ⟨d, hd, hy, hp, hbefore⟩
          rcases Nat.eq_zero_or_pos d with rfl | hpos
          · rw [← hy] at hp
            exact absurd hp hhere
          · refine ⟨d - 1, by omega, ?_, hp, fun e he => ?_⟩
            · rwa [← iterate_succ_apply, Nat.sub_add_cancel hpos]
            · rw [← iterate_succ_apply]
              exact hbefore (e + 1) (by omega)

/-- The next place with the property, or the same place. -/
def step (f : α → α) (p : α → Bool) (n : Nat) (x : α) : α := (next f p n x).getD x

namespace IsCycle

theorem iterate_mem (h : IsCycle f g s n) (hx : x ∈ s) (m : Nat) : f^[m] x ∈ s := by
  induction m generalizing x with
  | zero => exact hx
  | succ m ih => exact ih (h.forwards x hx)

theorem back (h : IsCycle f g s n) (hx : x ∈ s) {d e : Nat} (hle : e ≤ d) : g^[e] (f^[d] x) = f^[d - e] x := by
  induction e generalizing d with
  | zero => rfl
  | succ e ih =>
      have hd : d = (d - 1) + 1 := by omega
      rw [iterate_succ_apply, hd, iterate_succ_apply', h.undo _ (h.iterate_mem hx _), ih (by omega)]
      congr 1
      omega

/-- A place with the property is found again at the latest after going all around. -/
theorem exists_next (h : IsCycle f g s n) (hx : x ∈ s) (hp : p x = true) :
    ∃ d < n, next f p n x = some (f^[d + 1] x) ∧ p (f^[d + 1] x) = true ∧
      ∀ e < d, p (f^[e + 1] x) = false := by
  have hlast : p (f^[n - 1 + 1] x) = true := by
    rw [Nat.sub_add_cancel h.pos, h.around x hx]
    exact hp
  have hagain : ∃ d, p (f^[d + 1] x) = true := ⟨n - 1, hlast⟩
  classical
  have hbound : Nat.find hagain < n :=
    Nat.lt_of_le_of_lt (Nat.find_min' hagain hlast) (Nat.sub_lt h.pos Nat.one_pos)
  have hfirst : ∀ e < Nat.find hagain, p (f^[e + 1] x) = false := fun e he => by
    simpa using Nat.find_min hagain he
  exact ⟨Nat.find hagain, hbound,
    next_eq_some.mpr ⟨Nat.find hagain, hbound, rfl, Nat.find_spec hagain, hfirst⟩,
    Nat.find_spec hagain, hfirst⟩

/-- Going to the place before undoes going to the next one. -/
theorem next_back (h : IsCycle f g s n) (hx : x ∈ s) (hp : p x = true) (hnext : next f p n x = some y) :
    next g p n y = some x := by
  obtain ⟨d, hd, rfl, -, hbefore⟩ := next_eq_some.mp hnext
  refine next_eq_some.mpr ⟨d, hd, ?_, hp, fun e he => ?_⟩
  · rw [h.back hx le_rfl, Nat.sub_self]
    rfl
  · have hback : g^[e + 1] (f^[d + 1] x) = f^[d - e - 1 + 1] x := by
      rw [h.back hx (by omega)]
      congr 1
      omega
    rw [hback]
    exact hbefore (d - e - 1) (by omega)

theorem step_spec (h : IsCycle f g s n) (hx : x ∈ s) (hp : p x = true) :
    step f p n x ∈ s ∧ p (step f p n x) = true := by
  obtain ⟨d, -, hnext, hfound, -⟩ := h.exists_next hx hp
  rw [step, hnext]
  exact ⟨h.iterate_mem hx _, hfound⟩

theorem iterate_step_spec (h : IsCycle f g s n) (hx : x ∈ s) (hp : p x = true) (t : Nat) :
    (step f p n)^[t] x ∈ s ∧ p ((step f p n)^[t] x) = true := by
  induction t with
  | zero => exact ⟨hx, hp⟩
  | succ t ih =>
      rw [iterate_succ_apply']
      exact h.step_spec ih.1 ih.2

/-- Every place with the property is passed, by induction on its distance. -/
theorem step_reaches (h : IsCycle f g s n) (hx : x ∈ s) (hp : p x = true) (hy : p y = true) {m : Nat}
    (hm : f^[m] x = y) : ∃ t, (step f p n)^[t] x = y := by
  induction m using Nat.strong_induction_on generalizing x with
  | _ m ih =>
      rcases Nat.eq_zero_or_pos m with rfl | hpos
      · exact ⟨0, hm⟩
      · obtain ⟨d, -, hnext, hfound, hbefore⟩ := h.exists_next hx hp
        have hle : d + 1 ≤ m := by
          by_contra hlate
          have hnot := hbefore (m - 1) (by omega)
          rw [Nat.sub_add_cancel hpos, hm, hy] at hnot
          cases hnot
        have hrest : f^[m - (d + 1)] (f^[d + 1] x) = y := by
          rw [← iterate_add_apply, Nat.sub_add_cancel hle, hm]
        obtain ⟨t, ht⟩ := ih (m - (d + 1)) (by omega) (h.iterate_mem hx _) hfound hrest
        have hstep : step f p n x = f^[d + 1] x := by
          rw [step, hnext]
          rfl
        exact ⟨t + 1, by rw [iterate_succ_apply, hstep, ht]⟩

theorem step_periodic (h : IsCycle f g s n) (hx : x ∈ s) (hp : p x = true) :
    x ∈ periodicPts (step f p n) := by
  obtain ⟨hmem, hfound⟩ := h.step_spec hx hp
  obtain ⟨m, hm⟩ := h.passes _ hmem x hx
  obtain ⟨t, ht⟩ := h.step_reaches hmem hfound hp hm
  exact ⟨t + 1, Nat.succ_pos t, by rw [IsPeriodicPt, IsFixedPt, iterate_succ_apply, ht]⟩

/-- **The round.** From a place with the property, the steps pass every such place once before they are back. -/
theorem exists_visits (h : IsCycle f g s n) (hx : x ∈ s) (hp : p x = true) :
    ∃ visits : List α, visits.head? = some x ∧ visits.Nodup ∧ (∀ y, y ∈ visits ↔ y ∈ s ∧ p y = true) ∧
      ∀ t, visits[t % visits.length]? = some ((step f p n)^[t] x) := by
  have hpos := minimalPeriod_pos_of_mem_periodicPts (h.step_periodic hx hp)
  set period := minimalPeriod (step f p n) x with hperiod
  have hget : ∀ t, ((List.range period).map fun t => (step f p n)^[t] x)[t % period]? =
      some ((step f p n)^[t] x) := by
    intro t
    rw [List.getElem?_map, List.getElem?_range (Nat.mod_lt t hpos), Option.map_some, hperiod,
      iterate_mod_minimalPeriod_eq]
  refine ⟨(List.range period).map fun t => (step f p n)^[t] x, ?_, ?_, fun y => ⟨?_, ?_⟩, ?_⟩
  · rw [List.head?_eq_getElem?, ← Nat.zero_mod period, hget]
    rfl
  · refine List.Nodup.map_on ?_ List.nodup_range
    intro i hi j hj hij
    exact iterate_injOn_Iio_minimalPeriod (List.mem_range.mp hi) (List.mem_range.mp hj) hij
  · intro hy
    obtain ⟨t, -, rfl⟩ := List.mem_map.mp hy
    exact h.iterate_step_spec hx hp t
  · rintro ⟨hys, hpy⟩
    obtain ⟨m, hm⟩ := h.passes x hx y hys
    obtain ⟨t, rfl⟩ := h.step_reaches hx hp hpy hm
    exact List.mem_of_getElem? (hget t)
  · intro t
    rw [List.length_map, List.length_range]
    exact hget t

end IsCycle

end Round
