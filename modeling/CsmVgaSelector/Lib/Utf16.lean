import Mathlib.Data.List.Basic
import Mathlib.Tactic.Common

/-!
# UTF-16

A scalar value is one unit, or two that make a surrogate pair. A text is read from its beginning, and a
surrogate that is in no pair is read as U+FFFD. No text can be read in two ways (`Reads.unique`).
-/

namespace Utf16

/-- The units of a scalar value. -/
def units (scalar : Char) : List UInt16 :=
  if scalar.val.toNat < 0x10000 then [UInt16.ofNat scalar.val.toNat]
  else
    [UInt16.ofNat (0xD800 + (scalar.val.toNat - 0x10000) / 0x400),
      UInt16.ofNat (0xDC00 + (scalar.val.toNat - 0x10000) % 0x400)]

def replacement : Char := Char.ofNat 0xFFFD

def IsHigh (unit : UInt16) : Prop := 0xD800 ≤ unit.toNat ∧ unit.toNat ≤ 0xDBFF

def IsLow (unit : UInt16) : Prop := 0xDC00 ≤ unit.toNat ∧ unit.toNat ≤ 0xDFFF

/-- What a text says. -/
inductive Reads : List UInt16 → List Char → Prop where
  | nil : Reads [] []
  | scalar (scalar : Char) {text : List UInt16} {scalars : List Char} (h : Reads text scalars) :
      Reads (units scalar ++ text) (scalar :: scalars)
  | unpaired {unit : UInt16} {text : List UInt16} {scalars : List Char} (hsurrogate : IsHigh unit ∨ IsLow unit)
      (hunpaired : ∀ scalar rest, unit :: text ≠ units scalar ++ rest) (h : Reads text scalars) :
      Reads (unit :: text) (replacement :: scalars)

variable {scalar scalar' : Char} {unit unit' : UInt16} {text text' : List UInt16} {scalars scalars' : List Char}

theorem scalar_lt : scalar.val.toNat < 0x110000 := by
  have hvalid := scalar.valid
  rcases hvalid with h | h
  · exact Nat.lt_trans h (by decide)
  · exact h.2

theorem scalar_not_surrogate : scalar.val.toNat < 0xD800 ∨ 0xDFFF < scalar.val.toNat := by
  rcases scalar.valid with h | h
  · exact .inl h
  · exact .inr h.1

theorem eq_of_toNat_eq (h : scalar.val.toNat = scalar'.val.toNat) : scalar = scalar' :=
  Char.ext (UInt32.toNat.inj h)

/-- A scalar value of one unit. -/
theorem units_of_lt (h : scalar.val.toNat < 0x10000) : units scalar = [UInt16.ofNat scalar.val.toNat] :=
  if_pos h

/-- A scalar value of two units, the first of them a high surrogate and the second a low one. -/
theorem units_of_le (h : 0x10000 ≤ scalar.val.toNat) : ∃ high low, units scalar = [high, low] ∧
    IsHigh high ∧ IsLow low ∧
    scalar.val.toNat = 0x10000 + (high.toNat - 0xD800) * 0x400 + (low.toNat - 0xDC00) := by
  have hlt := @scalar_lt scalar
  refine ⟨_, _, if_neg (by omega), ?_, ?_, ?_⟩
  · rw [IsHigh, UInt16.toNat_ofNat']
    omega
  · rw [IsLow, UInt16.toNat_ofNat']
    omega
  · rw [UInt16.toNat_ofNat', UInt16.toNat_ofNat']
    omega

/-- A unit that is no surrogate is a scalar value. -/
theorem exists_units_single (hhigh : ¬ IsHigh unit) (hlow : ¬ IsLow unit) :
    ∃ scalar : Char, scalar.val.toNat = unit.toNat ∧ units scalar = [unit] := by
  have hlt := unit.toNat_lt
  have hvalid : Nat.isValidChar unit.toNat := by
    rw [IsHigh] at hhigh
    rw [IsLow] at hlow
    rw [Nat.isValidChar]
    omega
  have hvalue : (Char.ofNatAux unit.toNat hvalid).val.toNat = unit.toNat := rfl
  refine ⟨Char.ofNatAux unit.toNat hvalid, hvalue, ?_⟩
  rw [units_of_lt (hvalue.symm ▸ hlt), hvalue]
  simp

/-- Every pair is a scalar value. -/
theorem exists_units_pair (hhigh : IsHigh unit) (hlow : IsLow unit') :
    ∃ scalar : Char, scalar.val.toNat = 0x10000 + (unit.toNat - 0xD800) * 0x400 + (unit'.toNat - 0xDC00) ∧
      units scalar = [unit, unit'] := by
  rw [IsHigh] at hhigh
  rw [IsLow] at hlow
  have hvalid : Nat.isValidChar (0x10000 + (unit.toNat - 0xD800) * 0x400 + (unit'.toNat - 0xDC00)) := by
    rw [Nat.isValidChar]
    omega
  refine ⟨Char.ofNatAux _ hvalid, rfl, ?_⟩
  obtain ⟨high, low, hunits, hhigh', hlow', hvalue⟩ :=
    @units_of_le (Char.ofNatAux _ hvalid) (show 0x10000 ≤ _ by
      change 0x10000 ≤ 0x10000 + (unit.toNat - 0xD800) * 0x400 + (unit'.toNat - 0xDC00)
      omega)
  change 0x10000 + (unit.toNat - 0xD800) * 0x400 + (unit'.toNat - 0xDC00) = _ at hvalue
  rw [IsHigh] at hhigh'
  rw [IsLow] at hlow'
  have hfirst : high = unit := UInt16.toNat.inj (by omega)
  have hsecond : low = unit' := UInt16.toNat.inj (by omega)
  rw [hunits, hfirst, hsecond]

/-- The units of a scalar value, by their number. -/
theorem units_cases (scalar : Char) :
    (∃ unit, units scalar = [unit] ∧ ¬ IsHigh unit ∧ ¬ IsLow unit ∧ scalar.val.toNat = unit.toNat) ∨
      ∃ high low, units scalar = [high, low] ∧ IsHigh high ∧ IsLow low ∧
        scalar.val.toNat = 0x10000 + (high.toNat - 0xD800) * 0x400 + (low.toNat - 0xDC00) := by
  by_cases hlt : scalar.val.toNat < 0x10000
  · have hvalue : (UInt16.ofNat scalar.val.toNat).toNat = scalar.val.toNat := by
      rw [UInt16.toNat_ofNat']
      exact Nat.mod_eq_of_lt hlt
    have hsurrogate := @scalar_not_surrogate scalar
    refine .inl ⟨_, units_of_lt hlt, ?_, ?_, hvalue.symm⟩
    · rw [IsHigh, hvalue]
      omega
    · rw [IsLow, hvalue]
      omega
  · exact .inr (units_of_le (Nat.not_lt.mp hlt))

/-- No text begins with the units of two scalar values. -/
theorem units_append_inj (h : units scalar ++ text = units scalar' ++ text') : scalar = scalar' ∧ text = text' := by
  rcases units_cases scalar with ⟨unit, hunits, hhigh, -, hvalue⟩ | ⟨high, low, hunits, hhigh, -, hvalue⟩
  · rcases units_cases scalar' with ⟨unit', hunits', -, -, hvalue'⟩ | ⟨high', low', hunits', hhigh', -, -⟩
    · rw [hunits, hunits'] at h
      obtain ⟨rfl, rfl⟩ := List.cons.inj h
      exact ⟨eq_of_toNat_eq (hvalue.trans hvalue'.symm), rfl⟩
    · rw [hunits, hunits'] at h
      obtain ⟨rfl, -⟩ := List.cons.inj h
      exact absurd hhigh' hhigh
  · rcases units_cases scalar' with ⟨unit', hunits', hhigh', -, -⟩ | ⟨high', low', hunits', -, -, hvalue'⟩
    · rw [hunits, hunits'] at h
      obtain ⟨rfl, -⟩ := List.cons.inj h
      exact absurd hhigh hhigh'
    · rw [hunits, hunits'] at h
      obtain ⟨rfl, htail⟩ := List.cons.inj h
      obtain ⟨rfl, rfl⟩ := List.cons.inj htail
      exact ⟨eq_of_toNat_eq (hvalue.trans hvalue'.symm), rfl⟩

theorem units_ne_nil : units scalar ≠ [] := by
  rcases units_cases scalar with ⟨unit, hunits, -⟩ | ⟨high, low, hunits, -⟩
  · simp [hunits]
  · simp [hunits]

/-- A surrogate whose pair is not complete. -/
theorem unpaired_of_high (hhigh : IsHigh unit) (hnext : ∀ low rest, text = low :: rest → ¬ IsLow low) :
    ∀ scalar rest, unit :: text ≠ units scalar ++ rest := by
  intro scalar rest h
  rcases units_cases scalar with ⟨unit', hunits, hhigh', -⟩ | ⟨high, low, hunits, -, hlow, -⟩
  · rw [hunits] at h
    obtain ⟨rfl, -⟩ := List.cons.inj h
    exact hhigh' hhigh
  · rw [hunits] at h
    exact hnext low rest (List.cons.inj h).2 hlow

theorem unpaired_of_low (hlow : IsLow unit) : ∀ scalar rest, unit :: text ≠ units scalar ++ rest := by
  intro scalar rest h
  rcases units_cases scalar with ⟨unit', hunits, -, hlow', -⟩ | ⟨high, low, hunits, hhigh, -⟩
  · rw [hunits] at h
    obtain ⟨rfl, -⟩ := List.cons.inj h
    exact hlow' hlow
  · rw [hunits] at h
    obtain ⟨rfl, -⟩ := List.cons.inj h
    rw [IsLow] at hlow
    rw [IsHigh] at hhigh
    omega

theorem Reads.unique (h : Reads text scalars) (h' : Reads text scalars') : scalars = scalars' := by
  induction h generalizing scalars' with
  | nil =>
      generalize htext : ([] : List UInt16) = text at h'
      cases h' with
      | nil => rfl
      | scalar scalar' => exact absurd (List.append_eq_nil_iff.mp htext.symm).1 units_ne_nil
      | unpaired => cases htext
  | @scalar scalar text scalars h ih =>
      generalize htext : units scalar ++ text = all at h'
      cases h' with
      | nil => exact absurd (List.append_eq_nil_iff.mp htext).1 units_ne_nil
      | scalar scalar' hrest =>
          obtain ⟨rfl, rfl⟩ := units_append_inj htext
          rw [ih hrest]
      | unpaired _ hunpaired => exact absurd htext.symm (hunpaired scalar text)
  | @unpaired unit text scalars _ hunpaired h ih =>
      generalize htext : unit :: text = all at h'
      cases h' with
      | nil => cases htext
      | scalar scalar' => exact absurd htext (hunpaired scalar' _)
      | unpaired _ _ hrest =>
          obtain ⟨-, rfl⟩ := List.cons.inj htext
          rw [ih hrest]

end Utf16
