import CsmVgaSelector.Lib.Utf16
import CsmVgaSelector.Log.Utf8

/-!
# UTF-8 of a log text

What is written is the UTF-8 encoding of what the text says, and three bytes for each unit are enough for it
(`unicodeToUtf8_exact`).
-/

namespace CsmVgaSelector

variable {text : Text} {buffer : Utf8Buffer} {data : Bytes}

/-! ### Code points -/

theorem or_eq_add {base value : Nat} (bits high : Nat) (hbase : base = 2 ^ bits * high) (hvalue : value < 2 ^ bits) :
    base ||| value = value + base := by
  rw [hbase, ← Nat.two_pow_add_eq_or_of_lt hvalue, Nat.add_comm]

theorem continuation_eq (value : Nat) : 0x80 ||| value &&& 0x3F = value % 0x40 + 0x80 := by
  rw [show (0x3F : Nat) = 2 ^ 6 - 1 from rfl, Nat.and_two_pow_sub_one_eq_mod]
  exact or_eq_add 6 2 rfl (Nat.mod_lt _ (by decide))

/-- The bytes of a scalar value. -/
theorem utf8OfCodePoint_eq (scalar : Char) :
    utf8OfCodePoint scalar.val.toNat = String.utf8EncodeChar scalar := by
  have hlt := @Utf16.scalar_lt scalar
  unfold utf8OfCodePoint String.utf8EncodeChar
  generalize scalar.val.toNat = value at hlt
  simp only [Nat.shiftRight_eq_div_pow, continuation_eq]
  by_cases hone : value < 0x80
  · rw [if_pos hone, if_pos (Nat.le_of_lt_succ hone)]
  have hone' : ¬ value ≤ 0x7F := fun h => hone (Nat.lt_succ_of_le h)
  rw [if_neg hone, if_neg hone']
  by_cases htwo : value < 0x800
  · have hlead : 0xC0 ||| value / 2 ^ 6 = value / 64 % 0x20 + 0xC0 := by
      rw [@or_eq_add 0xC0 _ 5 6 rfl (by omega)]
      omega
    rw [if_pos htwo, if_pos (Nat.le_of_lt_succ htwo), hlead]
  have htwo' : ¬ value ≤ 0x7FF := fun h => htwo (Nat.lt_succ_of_le h)
  rw [if_neg htwo, if_neg htwo']
  by_cases hthree : value < 0x10000
  · have hlead : 0xE0 ||| value / 2 ^ 12 = value / 4096 % 0x10 + 0xE0 := by
      rw [@or_eq_add 0xE0 _ 4 14 rfl (by omega)]
      omega
    rw [if_pos hthree, if_pos (Nat.le_of_lt_succ hthree), hlead]
  · have hlead : 0xF0 ||| value / 2 ^ 18 = value / 262144 % 0x08 + 0xF0 := by
      rw [@or_eq_add 0xF0 _ 3 30 rfl (by omega)]
      omega
    have hthree' : ¬ value ≤ 0xFFFF := fun h => hthree (Nat.lt_succ_of_le h)
    rw [if_neg hthree, if_neg hthree', hlead]

/-! ### The text -/

theorem isHighSurrogate_iff {character : UInt16} : isHighSurrogate character = true ↔ Utf16.IsHigh character := by
  rw [isHighSurrogate, Bool.and_eq_true, decide_eq_true_iff, decide_eq_true_iff]
  rfl

theorem isLowSurrogate_iff {character : UInt16} : isLowSurrogate character = true ↔ Utf16.IsLow character := by
  rw [isLowSurrogate, Bool.and_eq_true, decide_eq_true_iff, decide_eq_true_iff]
  rfl

/-- The text, and what has been encoded of it. -/
def Encodes (text : Text) (data : Bytes) : Prop :=
  ∃ scalars, Utf16.Reads text scalars ∧ data = scalars.flatMap String.utf8EncodeChar ∧
    data.length ≤ 3 * text.length

theorem length_utf8OfCodePoint {codePoint : Nat} (h : codePoint < 0x10000) :
    (utf8OfCodePoint codePoint).length ≤ 3 := by
  rw [utf8OfCodePoint, if_pos h]
  split
  · exact Nat.le_of_ble_eq_true rfl
  · split
    · exact Nat.le_of_ble_eq_true rfl
    · exact Nat.le_of_ble_eq_true rfl

theorem length_units_encode (scalar : Char) :
    (String.utf8EncodeChar scalar).length ≤ 3 * (Utf16.units scalar).length := by
  rcases Utf16.units_cases scalar with ⟨unit, hunits, -, -, hvalue⟩ | ⟨high, low, hunits, -⟩
  · rw [hunits, ← utf8OfCodePoint_eq, hvalue]
    exact length_utf8OfCodePoint unit.toNat_lt
  · rw [hunits, String.length_utf8EncodeChar]
    exact Nat.le_trans scalar.utf8Size_le_four (by simp)

theorem Encodes.scalar (scalar : Char) (h : Encodes text data) :
    Encodes (Utf16.units scalar ++ text) (String.utf8EncodeChar scalar ++ data) := by
  obtain ⟨scalars, hreads, rfl, hlength⟩ := h
  refine ⟨scalar :: scalars, .scalar scalar hreads, rfl, ?_⟩
  have hone := length_units_encode scalar
  rw [List.length_append, List.length_append, Nat.mul_add]
  exact Nat.add_le_add hone hlength

theorem Encodes.unpaired {unit : UInt16} (hsurrogate : Utf16.IsHigh unit ∨ Utf16.IsLow unit)
    (hunpaired : ∀ scalar rest, unit :: text ≠ Utf16.units scalar ++ rest) (h : Encodes text data) :
    Encodes (unit :: text) (utf8OfCodePoint 0xFFFD ++ data) := by
  obtain ⟨scalars, hreads, rfl, hlength⟩ := h
  refine ⟨Utf16.replacement :: scalars, .unpaired hsurrogate hunpaired hreads, ?_, ?_⟩
  · rw [List.flatMap_cons]
    rfl
  · rw [List.length_append, List.length_cons]
    have hthree : (utf8OfCodePoint 0xFFFD).length = 3 := rfl
    omega

/-- A unit by itself that is no surrogate. -/
theorem Encodes.single {unit : UInt16} (hhigh : ¬ Utf16.IsHigh unit) (hlow : ¬ Utf16.IsLow unit)
    (h : Encodes text data) : Encodes (unit :: text) (utf8OfCodePoint unit.toNat ++ data) := by
  obtain ⟨scalar, hvalue, hunits⟩ := Utf16.exists_units_single hhigh hlow
  have hscalar := h.scalar scalar
  rw [hunits, ← utf8OfCodePoint_eq, hvalue] at hscalar
  exact hscalar

theorem Encodes.pair {unit unit' : UInt16} (hhigh : Utf16.IsHigh unit) (hlow : Utf16.IsLow unit')
    (h : Encodes text data) :
    Encodes (unit :: unit' :: text)
      (utf8OfCodePoint (0x10000 + (unit.toNat - 0xD800) <<< 10 + (unit'.toNat - 0xDC00)) ++ data) := by
  obtain ⟨scalar, hvalue, hunits⟩ := Utf16.exists_units_pair hhigh hlow
  have hscalar := h.scalar scalar
  rw [hunits, ← utf8OfCodePoint_eq, hvalue] at hscalar
  rwa [Nat.shiftLeft_eq]

/-- The induction follows the loop, which looks one unit ahead. -/
theorem encodes_unicodeToUtf8 : Encodes text (unicodeToUtf8 text) := by
  fun_induction unicodeToUtf8 text with
  | case1 => exact ⟨[], .nil, rfl, le_rfl⟩
  | case2 character =>
      have hnil : Encodes [] [] := ⟨[], .nil, rfl, le_rfl⟩
      split
      case isTrue hsurrogate =>
        rw [Bool.or_eq_true, isHighSurrogate_iff, isLowSurrogate_iff] at hsurrogate
        refine hnil.unpaired hsurrogate ?_
        rcases hsurrogate with hhigh | hlow
        · exact Utf16.unpaired_of_high hhigh (by simp)
        · exact Utf16.unpaired_of_low hlow
      case isFalse hplain =>
        rw [Bool.or_eq_true, isHighSurrogate_iff, isLowSurrogate_iff, not_or] at hplain
        have hsingle := hnil.single hplain.1 hplain.2
        rwa [List.append_nil] at hsingle
  | case3 character lowSurrogate rest hhigh hlow ih =>
      exact ih.pair (isHighSurrogate_iff.mp hhigh) (isLowSurrogate_iff.mp hlow)
  | case4 character lowSurrogate rest hhigh hlow ih =>
      have hhigh := isHighSurrogate_iff.mp hhigh
      refine ih.unpaired (.inl hhigh) (Utf16.unpaired_of_high hhigh ?_)
      rintro low rest' heq hlow'
      obtain ⟨rfl, -⟩ := List.cons.inj heq
      exact hlow (isLowSurrogate_iff.mpr hlow')
  | case5 character lowSurrogate rest hhigh ih =>
      rw [isHighSurrogate_iff] at hhigh
      by_cases hlow : isLowSurrogate character = true
      · rw [if_pos hlow]
        have hlow := isLowSurrogate_iff.mp hlow
        exact ih.unpaired (.inr hlow) (Utf16.unpaired_of_low hlow)
      · rw [if_neg hlow]
        rw [isLowSurrogate_iff] at hlow
        exact ih.single hhigh hlow

/-! ### The buffer -/

/-- The buffer with this behind what it has. -/
def Utf8Buffer.append (buffer : Utf8Buffer) (data : Bytes) : Utf8Buffer :=
  { buffer with data := buffer.data ++ data }

theorem Utf8Buffer.append_append (data' : Bytes) :
    (buffer.append data).append data' = buffer.append (data ++ data') := by
  rw [append, append, append, List.append_assoc]

theorem foldlM_put (hroom : buffer.data.length + data.length ≤ buffer.capacity) :
    data.foldlM Utf8Buffer.put buffer = some (buffer.append data) := by
  induction data generalizing buffer with
  | nil => simp [Utf8Buffer.append]
  | cons value data ih =>
      rw [List.length_cons] at hroom
      have hput : buffer.put value = some (buffer.append [value]) := if_pos (by omega)
      have hrest : (buffer.append [value]).data.length + data.length ≤ (buffer.append [value]).capacity := by
        simp only [Utf8Buffer.append, List.length_append, List.length_singleton]
        omega
      rw [List.foldlM_cons, hput, Option.bind_eq_bind, Option.bind_some, ih hrest, Utf8Buffer.append_append]
      rfl

/-- The loop writes what it encodes, as long as there is room. -/
theorem putText_eq (hroom : buffer.data.length + (unicodeToUtf8 text).length ≤ buffer.capacity) :
    buffer.putText text = some (buffer.append (unicodeToUtf8 text)) := by
  have hthen {codePoint : Nat} {rest : Text}
      (ih : ∀ {buffer : Utf8Buffer}, buffer.data.length + (unicodeToUtf8 rest).length ≤ buffer.capacity →
        buffer.putText rest = some (buffer.append (unicodeToUtf8 rest)))
      {buffer : Utf8Buffer}
      (hroom : buffer.data.length + (utf8OfCodePoint codePoint ++ unicodeToUtf8 rest).length ≤ buffer.capacity) :
      (buffer.putCodePoint codePoint >>= fun buffer => buffer.putText rest) =
        some (buffer.append (utf8OfCodePoint codePoint ++ unicodeToUtf8 rest)) := by
    rw [List.length_append] at hroom
    have hrest : (buffer.append (utf8OfCodePoint codePoint)).data.length + (unicodeToUtf8 rest).length ≤
        (buffer.append (utf8OfCodePoint codePoint)).capacity := by
      simp only [Utf8Buffer.append, List.length_append]
      omega
    rw [Utf8Buffer.putCodePoint, foldlM_put (by omega), Option.bind_eq_bind, Option.bind_some, ih hrest,
      Utf8Buffer.append_append]
  fun_induction unicodeToUtf8 text generalizing buffer with
  | case1 => simp [Utf8Buffer.putText, Utf8Buffer.append]
  | case2 character => exact foldlM_put hroom
  | case3 character lowSurrogate rest hhigh hlow ih =>
      rw [Utf8Buffer.putText, if_pos hhigh, if_pos hlow]
      exact hthen ih hroom
  | case4 character lowSurrogate rest hhigh hlow ih =>
      rw [Utf8Buffer.putText, if_pos hhigh, if_neg hlow]
      exact hthen ih hroom
  | case5 character lowSurrogate rest hhigh ih =>
      rw [Utf8Buffer.putText, if_neg hhigh]
      exact hthen ih hroom

/-- **UTF-8 of a log text.** The text says one thing. Where it is not too long and the buffer is granted, the
buffer gets the encoding of that and the terminator and the reported size is that of the encoding; otherwise
there is no buffer. No write is past the end of the buffer, and the encoding is valid. -/
theorem unicodeToUtf8_exact (granted : Bool) (text : Text) :
    ∃ scalars, (Utf16.Reads text scalars ∧ ∀ others, Utf16.Reads text others → others = scalars) ∧
      unicodeToUtf8Allocated granted text =
        (if text.length ≤ (maxUIntN - 1) / 3 ∧ granted = true then
          some (.ok (scalars.flatMap String.utf8EncodeChar ++ [0],
            (scalars.flatMap String.utf8EncodeChar).length))
        else some (.error .outOfResources)) ∧
      (scalars.flatMap String.utf8EncodeChar ++ [0]).length ≤ 3 * text.length + 1 ∧
      (scalars.flatMap String.utf8EncodeChar).toByteArray.IsValidUTF8 := by
  obtain ⟨scalars, hreads, hdata, hlength⟩ := @encodes_unicodeToUtf8 text
  refine ⟨scalars, ⟨hreads, fun others hothers => hothers.unique hreads⟩, ?_, ?_, ?_⟩
  · rw [← hdata, unicodeToUtf8Allocated]
    by_cases hlong : text.length > (maxUIntN - 1) / 3
    · rw [if_pos hlong, if_neg fun h => absurd h.1 (not_le.mpr hlong)]
    rw [if_neg hlong]
    cases granted with
    | false => rw [if_pos (by decide), if_neg fun h => absurd h.2 (by decide)]
    | true =>
        have hwritten : Utf8Buffer.putText { capacity := text.length * 3 + 1, data := [] } text =
            some (Utf8Buffer.append { capacity := text.length * 3 + 1, data := [] } (unicodeToUtf8 text)) :=
          putText_eq (by
            rw [List.length_nil]
            dsimp only
            omega)
        rw [if_neg (by decide), if_pos ⟨not_lt.mp hlong, rfl⟩, hwritten]
        simp only [Utf8Buffer.append, Utf8Buffer.put, List.nil_append, Option.bind_eq_bind, Option.bind_some]
        rw [if_pos (by omega)]
        rfl
  · rw [← hdata, List.length_append, List.length_singleton]
    omega
  · exact ⟨scalars, rfl⟩

end CsmVgaSelector
