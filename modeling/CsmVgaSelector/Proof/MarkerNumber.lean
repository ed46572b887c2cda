import CsmVgaSelector.Config.Marker
import Mathlib.Data.List.Forall2
import Mathlib.Data.Nat.Digits.Defs
import Mathlib.Tactic.IntervalCases

/-!
# Numbers of the marker

A number is accepted exactly when it is a literal that denotes at most the maximum (`markerParseNumber_exact`).
The guard before each step is what keeps it from wrapping.
-/

namespace CsmVgaSelector

/-- A character that stands for this digit. -/
inductive IsDigit : UInt8 → Nat → Prop where
  | decimal (digit : Nat) (h : digit < 10) : IsDigit (UInt8.ofNat (0x30 + digit)) digit
  | lower (digit : Nat) (h : digit < 6) : IsDigit (UInt8.ofNat (0x61 + digit)) (10 + digit)
  | upper (digit : Nat) (h : digit < 6) : IsDigit (UInt8.ofNat (0x41 + digit)) (10 + digit)

/-- The digits of a number to this base, the most significant first. -/
structure Denotes (base : Nat) (text : Bytes) (digits : List Nat) : Prop where
  characters : List.Forall₂ IsDigit text digits
  small : ∀ digit ∈ digits, digit < base

/-- A literal, and the number that it denotes. -/
inductive NumberLiteral : Bytes → Nat → Prop where
  | decimal {text : Bytes} {digits : List Nat} (hne : text ≠ []) (h : Denotes 10 text digits) :
      NumberLiteral text (Nat.ofDigits 10 digits.reverse)
  | hexadecimal {text : Bytes} {digits : List Nat} {sign : UInt8} (hsign : sign = byte 'x' ∨ sign = byte 'X')
      (hne : text ≠ []) (h : Denotes 16 text digits) :
      NumberLiteral (byte '0' :: sign :: text) (Nat.ofDigits 16 digits.reverse)

/-- The base of a text, and what is left of it for the digits. -/
def numberBody : Bytes → Nat × Bytes
  | first :: second :: rest =>
      if first = byte '0' ∧ (second = byte 'x' ∨ second = byte 'X') then (16, rest)
      else (10, first :: second :: rest)
  | text => (10, text)

variable {base maximum number n : Nat} {text : Bytes} {digits : List Nat} {character : UInt8}

/-! ### Digits -/

theorem hexDigit_of_isDigit {digit : Nat} (h : IsDigit character digit) : hexDigit character = some digit := by
  cases h with
  | decimal digit h => interval_cases digit <;> rfl
  | lower digit h => interval_cases digit <;> rfl
  | upper digit h => interval_cases digit <;> rfl

theorem isDigit_of_hexDigit {digit : Nat} (h : hexDigit character = some digit) : IsDigit character digit := by
  have hbyte : character = UInt8.ofNat character.toNat := by simp
  unfold hexDigit at h
  split at h
  case isTrue hdecimal =>
    obtain rfl := Option.some.inj h
    have hlow : 0x30 ≤ character.toNat := hdecimal.1
    have hhigh : character.toNat ≤ 0x39 := hdecimal.2
    have hdigit := IsDigit.decimal (character.toNat - 0x30) (by omega)
    rwa [Nat.add_sub_cancel' hlow, ← hbyte] at hdigit
  case isFalse =>
    split at h
    case isTrue hlower =>
      obtain rfl := Option.some.inj h
      have hlow : 0x61 ≤ character.toNat := hlower.1
      have hhigh : character.toNat ≤ 0x66 := hlower.2
      have hdigit := IsDigit.lower (character.toNat - 0x61) (by omega)
      rwa [Nat.add_sub_cancel' hlow, ← hbyte, Nat.add_comm 10] at hdigit
    case isFalse =>
      split at h
      case isTrue hupper =>
        obtain rfl := Option.some.inj h
        have hlow : 0x41 ≤ character.toNat := hupper.1
        have hhigh : character.toNat ≤ 0x46 := hupper.2
        have hdigit := IsDigit.upper (character.toNat - 0x41) (by omega)
        rwa [Nat.add_sub_cancel' hlow, ← hbyte, Nat.add_comm 10] at hdigit
      case isFalse => cases h

theorem hexDigit_eq_some {digit : Nat} : hexDigit character = some digit ↔ IsDigit character digit :=
  ⟨isDigit_of_hexDigit, hexDigit_of_isDigit⟩

theorem denotes_cons : Denotes base (character :: text) digits ↔
    ∃ digit rest, digits = digit :: rest ∧ IsDigit character digit ∧ digit < base ∧ Denotes base text rest := by
  constructor
  · rintro ⟨hcharacters, hsmall⟩
    obtain ⟨digit, rest, hdigit, hrest, rfl⟩ := List.forall₂_cons_left_iff.mp hcharacters
    exact ⟨digit, rest, rfl, hdigit, hsmall digit List.mem_cons_self, hrest,
      fun other hother => hsmall other (List.mem_cons_of_mem _ hother)⟩
  · rintro ⟨digit, rest, rfl, hdigit, hsmall, hrest⟩
    exact ⟨.cons hdigit hrest.characters, List.forall_mem_cons.mpr ⟨hsmall, hrest.small⟩⟩

/-! ### The loop -/

/-- The number with these digits behind it. -/
def appendDigits (base : Nat) (number : Nat) (digits : List Nat) : Nat :=
  digits.foldl (fun number digit => number * base + digit) number

theorem le_appendDigits (hbase : 0 < base) : number ≤ appendDigits base number digits := by
  induction digits generalizing number with
  | nil => exact le_rfl
  | cons digit digits ih =>
      calc
        number ≤ number * base := Nat.le_mul_of_pos_right number hbase
        _ ≤ number * base + digit := Nat.le_add_right ..
        _ ≤ appendDigits base (number * base + digit) digits := ih

theorem ofDigits_reverse : Nat.ofDigits base digits.reverse = appendDigits base 0 digits := by
  rw [Nat.ofDigits_eq_foldr, List.foldr_reverse, appendDigits]
  congr 1
  funext number digit
  rw [Nat.add_comm, Nat.mul_comm]
  rfl

/-- The guard before a step says that the step does not exceed the maximum. -/
theorem guard_iff {digit : Nat} (hbase : 0 < base) :
    ¬ (digit > maximum ∨ number > (maximum - digit) / base) ↔ number * base + digit ≤ maximum := by
  rw [not_or, not_lt, not_lt, Nat.le_div_iff_mul_le hbase]
  omega

theorem markerDigits_eq_some (hbase : 0 < base) (hmaximum : maximum ≤ maxUInt64) (hnumber : number ≤ maximum) :
    markerDigits base maximum number text = some n ↔
      ∃ digits, Denotes base text digits ∧ n = appendDigits base number digits ∧ n ≤ maximum := by
  induction text generalizing number with
  | nil =>
      rw [markerDigits, Option.some.injEq]
      constructor
      · rintro rfl
        exact ⟨[], ⟨.nil, by simp⟩, rfl, hnumber⟩
      · rintro ⟨digits, hdigits, rfl, -⟩
        rw [List.forall₂_nil_left_iff.mp hdigits.characters]
        rfl
  | cons character text ih =>
      rw [markerDigits]
      cases hdigit : hexDigit character with
      | none =>
          refine ⟨nofun, ?_⟩
          rintro ⟨digits, hdigits, -⟩
          obtain ⟨digit, rest, rfl, hisDigit, -⟩ := denotes_cons.mp hdigits
          cases hdigit.symm.trans (hexDigit_eq_some.mpr hisDigit)
      | some digit =>
          dsimp only
          split
          case isTrue hguard =>
            refine ⟨nofun, ?_⟩
            rintro ⟨digits, hdigits, rfl, hle⟩
            obtain ⟨digit', rest, rfl, hisDigit, hsmall, -⟩ := denotes_cons.mp hdigits
            obtain rfl := Option.some.inj (hdigit.symm.trans (hexDigit_eq_some.mpr hisDigit))
            have hstep : number * base + digit ≤ maximum := le_trans (le_appendDigits hbase) hle
            exact absurd (hguard.resolve_left (not_le.mpr hsmall)) ((guard_iff hbase).mpr hstep)
          case isFalse hguard =>
            rw [not_or, guard_iff hbase] at hguard
            obtain ⟨hsmall, hstep⟩ := hguard
            have hwrap : (number * base + digit) % 2 ^ 64 = number * base + digit := by
              apply Nat.mod_eq_of_lt
              rw [maxUInt64] at hmaximum
              omega
            rw [hwrap, ih hstep]
            constructor
            · rintro ⟨rest, hrest, rfl, hle⟩
              exact ⟨digit :: rest, denotes_cons.mpr
                ⟨digit, rest, rfl, hexDigit_eq_some.mp hdigit, not_le.mp hsmall, hrest⟩, rfl, hle⟩
            · rintro ⟨digits, hdigits, rfl, hle⟩
              obtain ⟨digit', rest, rfl, hisDigit, -, hrest⟩ := denotes_cons.mp hdigits
              obtain rfl := Option.some.inj (hdigit.symm.trans (hexDigit_eq_some.mpr hisDigit))
              exact ⟨rest, hrest, rfl, hle⟩

/-! ### The literal -/

theorem markerParseNumber_eq : markerParseNumber text maximum =
    if (numberBody text).2 = [] then none
    else markerDigits (numberBody text).1 maximum 0 (numberBody text).2 := by
  match text with
  | [] => rfl
  | [_] => rfl
  | first :: second :: rest =>
      rw [markerParseNumber, numberBody]
      split
      · rfl
      · rfl

theorem numberBody_base : (numberBody text).1 = 10 ∨ (numberBody text).1 = 16 := by
  match text with
  | [] => exact .inl rfl
  | [_] => exact .inl rfl
  | first :: second :: rest =>
      rw [numberBody]
      split
      · exact .inr rfl
      · exact .inl rfl

theorem not_isDigit_sign {sign : UInt8} (hsign : sign = byte 'x' ∨ sign = byte 'X') {digit : Nat} :
    ¬ IsDigit sign digit := by
  intro hdigit
  have hnone : hexDigit sign = none := by
    rcases hsign with rfl | rfl
    · rfl
    · rfl
  cases hnone.symm.trans (hexDigit_eq_some.mpr hdigit)

theorem numberBody_of_denotes (h : Denotes 10 text digits) : numberBody text = (10, text) := by
  match text, h with
  | [], _ => rfl
  | [_], _ => rfl
  | first :: second :: rest, h =>
      obtain ⟨digit, digits', -, -, -, hrest⟩ := denotes_cons.mp h
      obtain ⟨digit', -, -, hsecond, -⟩ := denotes_cons.mp hrest
      exact if_neg fun hprefix => not_isDigit_sign hprefix.2 hsecond

/-- A literal is a base and digits to it. -/
theorem numberLiteral_iff : NumberLiteral text n ↔
    (numberBody text).2 ≠ [] ∧
      ∃ digits, Denotes (numberBody text).1 (numberBody text).2 digits ∧
        n = appendDigits (numberBody text).1 0 digits := by
  constructor
  · intro h
    cases h with
    | decimal hne hdigits =>
        rw [numberBody_of_denotes hdigits]
        exact ⟨hne, _, hdigits, ofDigits_reverse⟩
    | hexadecimal hsign hne hdigits =>
        rw [numberBody, if_pos ⟨rfl, hsign⟩]
        exact ⟨hne, _, hdigits, ofDigits_reverse⟩
  · rintro ⟨hne, digits, hdigits, rfl⟩
    rw [← ofDigits_reverse]
    match text with
    | [] => exact absurd rfl hne
    | [_] => exact .decimal hne hdigits
    | first :: second :: rest =>
        rw [numberBody] at hne hdigits ⊢
        split at hne
        case isTrue hprefix =>
          rw [if_pos hprefix] at hdigits ⊢
          obtain ⟨rfl, hsign⟩ := hprefix
          exact .hexadecimal hsign hne hdigits
        case isFalse hplain =>
          rw [if_neg hplain] at hdigits ⊢
          exact .decimal hne hdigits

/-- **Marker numbers.** A text is parsed to a number exactly when it is a literal that denotes this number and
the number is at most the maximum; and wherever the loop comes to the last comparison, its difference does not wrap,
and neither does the step behind it. -/
theorem markerParseNumber_exact (text : Bytes) (maximum : Nat) (hmaximum : maximum ≤ maxUInt64) :
    (∀ n, markerParseNumber text maximum = some n ↔ NumberLiteral text n ∧ n ≤ maximum) ∧
      ∀ before character after number digit,
        (numberBody text).2 = before ++ character :: after →
        markerDigits (numberBody text).1 maximum 0 before = some number → hexDigit character = some digit →
        ¬ (digit ≥ (numberBody text).1 ∨ digit > maximum) →
          digit ≤ maximum ∧ (¬ number > (maximum - digit) / (numberBody text).1 →
            number * (numberBody text).1 + digit < 2 ^ 64) := by
  have hbase : 0 < (numberBody text).1 := by
    rcases @numberBody_base text with h | h
    · omega
    · omega
  constructor
  · intro n
    rw [markerParseNumber_eq, numberLiteral_iff]
    split
    case isTrue hempty => exact ⟨nofun, fun h => absurd hempty h.1.1⟩
    case isFalse hne =>
      rw [markerDigits_eq_some hbase hmaximum (Nat.zero_le _)]
      constructor
      · rintro ⟨digits, hdigits, hn, hle⟩
        exact ⟨⟨hne, digits, hdigits, hn⟩, hle⟩
      · rintro ⟨⟨-, digits, hdigits, hn⟩, hle⟩
        exact ⟨digits, hdigits, hn, hle⟩
  · intro before character after number digit _ _ _ hguard
    obtain ⟨-, hdigit⟩ := not_or.mp hguard
    refine ⟨Nat.not_lt.mp hdigit, fun hnumber => ?_⟩
    have hstep := (guard_iff hbase).mp (not_or.mpr ⟨hdigit, hnumber⟩)
    rw [maxUInt64] at hmaximum
    omega

/-- The largest number, with zeros before it. -/
theorem markerParseNumber_exact_largest :
    (NumberLiteral (ascii "0x00FFFFFFFFFFFFFFFF") maxUInt64 ∧ maxUInt64 ≤ maxUInt64) ∧
      0xFFFFFFFFFFFFFFF * 16 + 15 < 2 ^ 64 := by
  have hexact := markerParseNumber_exact (ascii "0x00FFFFFFFFFFFFFFFF") maxUInt64 le_rfl
  exact ⟨(hexact.1 maxUInt64).mp (by decide),
    (hexact.2 (ascii "00FFFFFFFFFFFFFFF") (byte 'F') [] 0xFFFFFFFFFFFFFFF 15 (by decide) (by decide) (by decide)
      (by decide)).2 (by decide)⟩

end CsmVgaSelector
