import CsmVgaSelector.Pci.IdLookup
import CsmVgaSelector.Proof.Lines
import Mathlib.Data.List.Infix
import Mathlib.Logic.Relation

/-!
# The name of a device

The lookup reads only the text. It gives the name of the first entry for the device in a block of its vendor, and
comments, subsystems and the blocks of other vendors make no difference to it (`pciIdLookup_exact`).
-/

namespace CsmVgaSelector

open Peek

/-! ### Entries -/

/-- A line without its line feed and a carriage return before it. -/
def idLine (line : Bytes) : Bytes :=
  let text := line.takeWhile (· != lineFeed)
  if text.getLast? = some carriageReturn then text.dropLast else text

def textLines (text : Bytes) : List Bytes := (linesOf text).map idLine

/-- The number of four hexadecimal digits. -/
def idOf (digits : Bytes) : Option Nat :=
  if digits.length = 4 then
    digits.foldlM (fun value character => (hexDigit character).map fun digit => value * 16 + digit) 0
  else none

/-- The vendor of a line that starts a vendor's block. -/
def vendorOf (line : Bytes) : Option Nat :=
  if (line.drop 4).take 2 = [blank, blank] then idOf (line.take 4) else none

/-- The device of a line that is a well-formed entry. -/
def deviceOf (line : Bytes) : Option Nat :=
  if 8 ≤ line.length ∧ line.head? = some tabulator ∧ (line.drop 5).take 2 = [blank, blank] then
    idOf ((line.drop 1).take 4)
  else none

/-- A line that starts a block, of a vendor or of something else. -/
def IsBlockHeader (line : Bytes) : Prop :=
  ∃ character, line.head? = some character ∧ character ≠ byte '#' ∧ character ≠ tabulator ∧ character ≠ blank

/-- The next line is in a block of the vendor. -/
def InBlock (vendor : Nat) (before : List Bytes) : Prop :=
  ∃ front header rest, before = front ++ header :: rest ∧ vendorOf header = some vendor ∧
    ∀ line ∈ rest, ¬ IsBlockHeader line

/-- Behind these lines, the line is an entry for the device of the vendor. -/
def IsEntry (vendor device : Nat) (before : List Bytes) (line : Bytes) : Prop :=
  InBlock vendor before ∧ deviceOf line = some device

def IsFirstEntry (vendor device : Nat) (lines : List Bytes) (line : Bytes) : Prop :=
  ∃ before after, lines = before ++ line :: after ∧ IsEntry vendor device before line ∧
    ∀ before' line' after', before = before' ++ line' :: after' → ¬ IsEntry vendor device before' line'

/-- The name in an entry, trimmed. -/
def entryName (line : Bytes) : Bytes := ((line.drop 7).dropWhile (· == blank)).rdropWhile isSpace

/-- A name as it is printed. -/
def printedName (name : Bytes) : Bytes := name.map fun character => if character < 127 then character else byte '?'

/-- One text has lines that the other has not: a comment, a subsystem, or a whole block of another vendor. -/
inductive Inserted (vendor : Nat) : List Bytes → List Bytes → Prop where
  | comment {before after : List Bytes} {line : Bytes} (h : line.head? = some (byte '#')) :
      Inserted vendor (before ++ after) (before ++ line :: after)
  | subsystem {before after : List Bytes} {line : Bytes} (h : [tabulator, tabulator] <+: line) :
      Inserted vendor (before ++ after) (before ++ line :: after)
  | block {before after block : List Bytes} {header : Bytes} {other : Nat} (hheader : vendorOf header = some other)
      (hother : other ≠ vendor) (hblock : ∀ line ∈ block, ¬ IsBlockHeader line)
      (hafter : ∀ line ∈ after.head?, IsBlockHeader line) :
      Inserted vendor (before ++ after) (before ++ header :: (block ++ after))

/-! ### The scan of the lines -/

instance (line : Bytes) : Decidable (IsBlockHeader line) :=
  match h : line.head? with
  | none => .isFalse fun hheader => by
      obtain ⟨character, hhead, -⟩ := hheader
      cases h.symm.trans hhead
  | some character =>
      if hplain : character ≠ byte '#' ∧ character ≠ tabulator ∧ character ≠ blank then
        .isTrue ⟨character, h, hplain⟩
      else .isFalse fun hheader => by
        obtain ⟨character', hhead, hplain'⟩ := hheader
        obtain rfl := Option.some.inj (h.symm.trans hhead)
        exact hplain hplain'

/-- Whether the next line is in a block of the vendor, when the line before it was or was not. -/
def stays (vendor : Nat) (matched : Bool) (line : Bytes) : Bool :=
  match vendorOf line with
  | some id => id == vendor
  | none => if IsBlockHeader line then false else matched

/-- The first entry. -/
def scanLines (vendor device : Nat) : Bool → List Bytes → Option Bytes
  | _, [] => none
  | matched, line :: lines =>
      if matched = true ∧ deviceOf line = some device then some line
      else scanLines vendor device (stays vendor matched line) lines

variable {vendor device : Nat} {matched : Bool} {lines before after : List Bytes} {line : Bytes}

theorem hexDigit_blockHeader {character : UInt8} {digit : Nat} (h : hexDigit character = some digit) :
    character ≠ byte '#' ∧ character ≠ tabulator ∧ character ≠ blank := by
  refine ⟨?_, ?_, ?_⟩
  · rintro rfl
    cases h
  · rintro rfl
    cases h
  · rintro rfl
    cases h

/-- A number starts with a digit. -/
theorem exists_head_of_idOf {digits : Bytes} {id : Nat} (h : idOf digits = some id) :
    ∃ character digit, digits.head? = some character ∧ hexDigit character = some digit := by
  unfold idOf at h
  split at h
  case isFalse => cases h
  case isTrue hlength =>
    match digits, hlength with
    | character :: digits, _ =>
        rw [List.foldlM_cons] at h
        cases hdigit : hexDigit character with
        | none =>
            rw [hdigit] at h
            cases h
        | some digit => exact ⟨character, digit, rfl, hdigit⟩

theorem isBlockHeader_of_vendorOf {id : Nat} (h : vendorOf line = some id) : IsBlockHeader line := by
  unfold vendorOf at h
  split at h
  case isFalse => cases h
  case isTrue =>
    obtain ⟨character, digit, hhead, hdigit⟩ := exists_head_of_idOf h
    rw [List.head?_take, if_neg (by decide)] at hhead
    exact ⟨character, hhead, hexDigit_blockHeader hdigit⟩

theorem not_isBlockHeader_of_deviceOf {id : Nat} (h : deviceOf line = some id) : ¬ IsBlockHeader line := by
  unfold deviceOf at h
  split at h
  case isFalse => cases h
  case isTrue hentry =>
    rintro ⟨character, hhead, -, htab, -⟩
    exact htab (Option.some.inj (hhead.symm.trans hentry.2.1))

theorem stays_of_not_header (h : ¬ IsBlockHeader line) : stays vendor matched line = matched := by
  unfold stays
  cases hvendor : vendorOf line with
  | none => exact if_neg h
  | some id => exact absurd (isBlockHeader_of_vendorOf hvendor) h

/-- A header does not ask what was before it. -/
theorem stays_of_header (h : IsBlockHeader line) {matched' : Bool} :
    stays vendor matched line = stays vendor matched' line := by
  unfold stays
  cases vendorOf line with
  | none => rw [if_pos h, if_pos h]
  | some id => rfl

theorem stays_iff : stays vendor matched line = true ↔
    vendorOf line = some vendor ∨ matched = true ∧ ¬ IsBlockHeader line := by
  unfold stays
  cases hvendor : vendorOf line with
  | none =>
      by_cases hheader : IsBlockHeader line
      · simp [hheader]
      · simp [hheader]
  | some id =>
      have hheader := isBlockHeader_of_vendorOf hvendor
      simp [hheader]

theorem foldl_stays_iff : before.foldl (stays vendor) matched = true ↔
    InBlock vendor before ∨ matched = true ∧ ∀ line ∈ before, ¬ IsBlockHeader line := by
  induction before using List.reverseRecOn with
  | nil => simp [InBlock]
  | append_singleton before last ih =>
      rw [List.foldl_append, List.foldl_cons, List.foldl_nil, stays_iff, ih]
      constructor
      · rintro (hvendor | ⟨⟨front, header, rest, rfl, hheader, hrest⟩ | ⟨hmatched, hbefore⟩, hlast⟩)
        · exact .inl ⟨before, last, [], rfl, hvendor, by simp⟩
        · refine .inl ⟨front, header, rest ++ [last], by simp, hheader, ?_⟩
          rw [List.forall_mem_append]
          exact ⟨hrest, by simpa using hlast⟩
        · refine .inr ⟨hmatched, ?_⟩
          rw [List.forall_mem_append]
          exact ⟨hbefore, by simpa using hlast⟩
      · rintro (⟨front, header, rest, hsplit, hheader, hrest⟩ | ⟨hmatched, hbefore⟩)
        · rcases List.eq_nil_or_concat rest with rfl | ⟨rest, final, rfl⟩
          · obtain ⟨rfl, hlast⟩ := List.append_inj' hsplit rfl
            obtain rfl := (List.cons.inj hlast).1
            exact .inl hheader
          · have hends : before ++ [last] = (front ++ header :: rest) ++ [final] := by simpa using hsplit
            obtain ⟨rfl, hlast⟩ := List.append_inj' hends rfl
            obtain rfl := (List.cons.inj hlast).1
            rw [List.concat_eq_append, List.forall_mem_append] at hrest
            exact .inr ⟨.inl ⟨front, header, rest, rfl, hheader, hrest.1⟩, by simpa using hrest.2⟩
        · rw [List.forall_mem_append] at hbefore
          exact .inr ⟨.inr ⟨hmatched, hbefore.1⟩, by simpa using hbefore.2⟩

theorem inBlock_iff : InBlock vendor before ↔ before.foldl (stays vendor) false = true := by
  rw [foldl_stays_iff]
  simp

theorem scanLines_eq_some : scanLines vendor device matched lines = some line ↔
    ∃ before after, lines = before ++ line :: after ∧
      (before.foldl (stays vendor) matched = true ∧ deviceOf line = some device) ∧
      ∀ before' line' after', before = before' ++ line' :: after' →
        ¬ (before'.foldl (stays vendor) matched = true ∧ deviceOf line' = some device) := by
  induction lines generalizing matched with
  | nil => simp [scanLines]
  | cons head lines ih =>
      rw [scanLines]
      split
      case isTrue hentry =>
        constructor
        · rintro ⟨⟩
          exact ⟨[], lines, rfl, hentry, by simp⟩
        · rintro ⟨before, after, hsplit, hline, hfirst⟩
          cases before with
          | nil => rw [(List.cons.inj hsplit).1]
          | cons first before =>
              obtain ⟨rfl, -⟩ := List.cons.inj hsplit
              exact absurd hentry (hfirst [] head before rfl)
      case isFalse hentry =>
        rw [ih]
        constructor
        · rintro ⟨before, after, rfl, hline, hfirst⟩
          refine ⟨head :: before, after, rfl, hline, ?_⟩
          rintro before' line' after' hsplit
          cases before' with
          | nil =>
              obtain ⟨rfl, -⟩ := List.cons.inj hsplit
              exact hentry
          | cons first before' =>
              obtain ⟨rfl, hrest⟩ := List.cons.inj hsplit
              exact hfirst before' line' after' hrest
        · rintro ⟨before, after, hsplit, hline, hfirst⟩
          cases before with
          | nil =>
              obtain ⟨rfl, -⟩ := List.cons.inj hsplit
              exact absurd hline hentry
          | cons first before =>
              obtain ⟨rfl, rfl⟩ := List.cons.inj hsplit
              refine ⟨before, after, rfl, hline, ?_⟩
              rintro before' line' after' rfl
              exact hfirst (head :: before') line' after' rfl

theorem scanLines_iff : scanLines vendor device false lines = some line ↔
    IsFirstEntry vendor device lines line := by
  simp only [scanLines_eq_some, IsFirstEntry, IsEntry, inBlock_iff]

/-! ### Lines that make no difference -/

theorem scanLines_append : scanLines vendor device matched (before ++ after) =
    (scanLines vendor device matched before).or
      (scanLines vendor device (before.foldl (stays vendor) matched) after) := by
  induction before generalizing matched with
  | nil => rfl
  | cons head before ih =>
      rw [List.cons_append, scanLines, scanLines]
      split
      case isTrue => rfl
      case isFalse => exact ih

theorem deviceOf_eq_none_of_header (h : IsBlockHeader line) : deviceOf line = none := by
  cases hdevice : deviceOf line with
  | none => rfl
  | some id => exact absurd h (not_isBlockHeader_of_deviceOf hdevice)

theorem scanLines_skip (hentry : deviceOf line = none) : scanLines vendor device matched (line :: lines) =
    scanLines vendor device (stays vendor matched line) lines := by
  rw [scanLines, if_neg]
  rintro ⟨-, hdevice⟩
  rw [hentry] at hdevice
  cases hdevice

/-- Lines that are no header and no entry. -/
theorem scanLines_plain (hheader : ¬ IsBlockHeader line) (hentry : deviceOf line = none) :
    scanLines vendor device matched (before ++ line :: after) =
      scanLines vendor device matched (before ++ after) := by
  rw [scanLines_append, scanLines_append, scanLines_skip hentry, stays_of_not_header hheader]

theorem comment_plain (h : line.head? = some (byte '#')) : ¬ IsBlockHeader line ∧ deviceOf line = none := by
  constructor
  · rintro ⟨character, hhead, hhash, -⟩
    exact hhash (Option.some.inj (hhead.symm.trans h))
  · refine if_neg ?_
    rintro ⟨-, htab, -⟩
    exact absurd (Option.some.inj (h.symm.trans htab)) (by decide)

theorem idOf_tabulator {digits : Bytes} : idOf (tabulator :: digits) = none := by
  cases h : idOf (tabulator :: digits) with
  | none => rfl
  | some id =>
      obtain ⟨character, digit, hhead, hdigit⟩ := exists_head_of_idOf h
      obtain rfl := Option.some.inj hhead
      exact absurd rfl (hexDigit_blockHeader hdigit).2.1

theorem subsystem_plain (h : [tabulator, tabulator] <+: line) :
    ¬ IsBlockHeader line ∧ deviceOf line = none := by
  obtain ⟨rest, rfl⟩ := h
  constructor
  · rintro ⟨character, hhead, -, htab, -⟩
    exact htab (Option.some.inj hhead).symm
  · unfold deviceOf
    split
    case isTrue => exact idOf_tabulator
    case isFalse => rfl

/-- In a block of another vendor nothing is found. -/
theorem scanLines_block {block : List Bytes} (hblock : ∀ line ∈ block, ¬ IsBlockHeader line)
    (hafter : ∀ line ∈ after.head?, IsBlockHeader line) :
    scanLines vendor device false (block ++ after) = scanLines vendor device matched after := by
  induction block with
  | nil =>
      cases after with
      | nil => rfl
      | cons header after =>
          have hheader : IsBlockHeader header := hafter header rfl
          rw [List.nil_append, scanLines_skip (deviceOf_eq_none_of_header hheader),
            scanLines_skip (deviceOf_eq_none_of_header hheader), stays_of_header hheader]
  | cons line block ih =>
      rw [List.forall_mem_cons] at hblock
      rw [List.cons_append, scanLines, if_neg (by simp), stays_of_not_header hblock.1]
      exact ih hblock.2

theorem scanLines_inserted {lines' : List Bytes} (h : Inserted vendor lines lines') :
    scanLines vendor device matched lines' = scanLines vendor device matched lines := by
  cases h with
  | comment hline => exact scanLines_plain (comment_plain hline).1 (comment_plain hline).2
  | subsystem hline => exact scanLines_plain (subsystem_plain hline).1 (subsystem_plain hline).2
  | @block before after block header other hheader hother hblock hafter =>
      have hleaves : ∀ matched, stays vendor matched header = false := by
        intro matched
        simpa [stays, hheader] using hother
      rw [scanLines_append, scanLines_append,
        scanLines_skip (deviceOf_eq_none_of_header (isBlockHeader_of_vendorOf hheader)), hleaves,
        scanLines_block hblock hafter]

theorem scanLines_eqvGen {lines' : List Bytes} (h : Relation.EqvGen (Inserted vendor) lines lines') :
    scanLines vendor device matched lines = scanLines vendor device matched lines' := by
  induction h with
  | rel lines lines' h => exact (scanLines_inserted h).symm
  | refl lines => rfl
  | symm lines lines' _ ih => exact ih.symm
  | trans lines lines' lines'' _ _ ih ih' => exact ih.trans ih'

/-! ### Reads -/

section

variable {text characters : Bytes} {start index : Nat}

/-- These characters are at this place of the text. -/
def IsAt (text : Bytes) (index : Nat) (characters : Bytes) : Prop := characters <+: text.drop index

/-- The program reads only the text, and ends with this value. -/
abbrev Scans {α : Type} (text : Bytes) (m : PciIdRead α) (value : α) : Prop :=
  Peek.Yields (· < text.length) (text.getD · 0) m value

theorem IsAt.take (h : IsAt text index characters) (count : Nat) : IsAt text index (characters.take count) :=
  (List.take_prefix count characters).trans h

theorem IsAt.drop (h : IsAt text index characters) (count : Nat) :
    IsAt text (index + count) (characters.drop count) := by
  rw [IsAt, ← List.drop_drop]
  exact List.IsPrefix.drop h count

theorem IsAt.tail {character : UInt8} (h : IsAt text index (character :: characters)) :
    IsAt text (index + 1) characters :=
  h.drop 1

theorem IsAt.head {character : UInt8} (h : IsAt text index (character :: characters)) :
    index < text.length ∧ text.getD index 0 = character := by
  obtain ⟨rest, hrest⟩ := h
  have hget : text[index]? = some character := by
    rw [← List.head?_drop, ← hrest]
    rfl
  obtain ⟨hindex, -⟩ := List.getElem?_eq_some_iff.mp hget
  exact ⟨hindex, by rw [List.getD_eq_getElem?_getD, hget, Option.getD_some]⟩

/-- One read of the text. -/
theorem IsAt.bind_peek {α : Type} {character : UInt8} {k : UInt8 → PciIdRead α} {value : α}
    (h : IsAt text index (character :: characters)) (hk : Scans text (k character) value) :
    Scans text (peek index >>= k) value := by
  refine Yields.bind_peek h.head.1 ?_
  rw [h.head.2]
  exact hk

theorem scans_hexDigitsAt (h : IsAt text index characters) {value : Nat} :
    Scans text (hexDigitsAt characters.length index value)
      (characters.foldlM
        (fun value character => (hexDigit character).map fun digit => value * 16 + digit) value) := by
  induction characters generalizing index value with
  | nil => exact Yields.pure
  | cons character characters ih =>
      refine h.bind_peek ?_
      rw [List.foldlM_cons]
      cases hexDigit character with
      | none => exact Yields.pure
      | some digit => exact ih h.tail

theorem scans_hex4 (h : IsAt text index characters) (hlength : characters.length = 4) :
    Scans text (hex4 index) (idOf characters) := by
  rw [idOf, if_pos hlength, hex4, ← hlength]
  exact scans_hexDigitsAt h

theorem scans_twoBlanks (h : IsAt text index characters) (hlength : 2 ≤ characters.length) :
    Scans text (twoBlanks index) (decide (characters.take 2 = [blank, blank])) := by
  match characters, hlength with
  | first :: second :: rest, _ =>
      refine h.bind_peek ?_
      by_cases hfirst : first = blank
      · rw [if_neg (not_not_intro hfirst)]
        refine h.tail.bind_peek ?_
        have hsame : (second == blank) = decide ((first :: second :: rest).take 2 = [blank, blank]) := by
          simp [hfirst, beq_eq_decide]
        rw [hsame]
        exact Yields.pure
      · rw [if_pos hfirst, decide_eq_false (by simp [hfirst])]
        exact Yields.pure

theorem scans_lineEnd (h : text.drop index = characters) :
    Scans text (lineEnd characters.length index)
      (index + (characters.takeWhile (· != lineFeed)).length) := by
  induction characters generalizing index with
  | nil => exact Yields.pure
  | cons character characters ih =>
      have hat : IsAt text index (character :: characters) := by rw [IsAt, h]
      refine hat.bind_peek ?_
      split
      case isTrue hfeed =>
        rw [List.takeWhile_cons_of_neg (by simpa using hfeed)]
        exact Yields.pure
      case isFalse hfeed =>
        rw [List.takeWhile_cons_of_pos (by simpa using hfeed), List.length_cons, ← Nat.add_assoc,
          Nat.add_right_comm]
        refine ih ?_
        rw [← List.drop_drop, h]
        rfl

theorem scans_skipBlanks (h : IsAt text index characters) :
    Scans text (skipBlanks characters.length index)
      (index + (characters.takeWhile (· == blank)).length) := by
  induction characters generalizing index with
  | nil => exact Yields.pure
  | cons character characters ih =>
      refine h.bind_peek ?_
      split
      case isTrue hblank =>
        rw [List.takeWhile_cons_of_pos (by simpa using hblank), List.length_cons, ← Nat.add_assoc,
          Nat.add_right_comm]
        exact ih h.tail
      case isFalse hblank =>
        rw [List.takeWhile_cons_of_neg (by simpa using hblank)]
        exact Yields.pure

theorem scans_trimBlanks (h : IsAt text index characters) :
    Scans text (trimBlanks characters.length (index + characters.length))
      (characters.rdropWhile isSpace).length := by
  induction characters using List.reverseRecOn with
  | nil => exact Yields.pure
  | append_singleton front last ih =>
      have hfront : IsAt text index front := (List.prefix_append front [last]).trans h
      have hlast : IsAt text (index + front.length) [last] := by simpa using h.drop front.length
      rw [List.length_append, List.length_singleton, trimBlanks]
      refine hlast.bind_peek ?_
      have hsame : (decide (last = blank) || decide (last = tabulator)) = isSpace last := rfl
      simp only [hsame]
      by_cases hspace : isSpace last = true
      · rw [if_pos hspace, List.rdropWhile_concat_pos _ _ _ hspace]
        exact ih hfront
      · rw [if_neg hspace, List.rdropWhile_concat_neg _ _ _ hspace,
          List.length_append, List.length_singleton]
        exact Yields.pure

theorem scans_hasControl (h : IsAt text index characters) :
    Scans text (hasControl characters.length index) (characters.any (· < 32)) := by
  induction characters generalizing index with
  | nil => exact Yields.pure
  | cons character characters ih =>
      refine h.bind_peek ?_
      split
      case isTrue hcontrol =>
        rw [List.any_cons, decide_eq_true hcontrol, Bool.true_or]
        exact Yields.pure
      case isFalse hcontrol =>
        rw [List.any_cons, decide_eq_false hcontrol, Bool.false_or]
        exact ih h.tail

theorem scans_copyName (h : IsAt text index characters) :
    Scans text (copyName characters.length index) (printedName characters) := by
  induction characters generalizing index with
  | nil => exact Yields.pure
  | cons character characters ih =>
      refine h.bind_peek ?_
      exact (ih h.tail).bind Yields.pure

end

/-! ### Lines -/

variable {text rest : Bytes} {start : Nat}

theorem idLine_of_notMem (h : lineFeed ∉ line) : idLine line =
    if line.getLast? = some carriageReturn then line.dropLast else line := by
  rw [idLine, takeWhile_of_notMem h]

theorem takeWhile_line (h : lineFeed ∉ line) :
    (line ++ lineFeed :: rest).takeWhile (· != lineFeed) = line := by
  rw [List.takeWhile_append_of_pos, List.takeWhile_cons_of_neg (by simp), List.append_nil]
  intro character hcharacter
  simp only [bne_iff_ne, ne_eq]
  rintro rfl
  exact h hcharacter

theorem textLines_eq (hne : text ≠ []) : textLines text = idLine (text.takeWhile (· != lineFeed)) ::
    textLines (text.drop ((text.takeWhile (· != lineFeed)).length + 1)) := by
  rcases lines_cases text with hlast | ⟨line, rest, hline, rfl⟩
  · rw [takeWhile_of_notMem hlast, List.drop_eq_nil_of_le (Nat.le_succ _), textLines,
      linesOf_of_notMem hlast hne]
    rfl
  · have hrest : (line ++ lineFeed :: rest).drop (line.length + 1) = rest := by
      rw [← List.drop_drop, List.drop_left]
      rfl
    rw [takeWhile_line hline, hrest, textLines, linesOf_cons hline, List.map_cons, idLine_of_notMem hline,
      idLine, takeWhile_line hline]
    rfl

theorem scans_lineLength (h : IsAt text start line) (hline : lineFeed ∉ line) :
    Scans text (lineLength start (start + line.length)) (idLine line).length := by
  rw [idLine_of_notMem hline, lineLength, Nat.add_sub_cancel_left]
  rcases List.eq_nil_or_concat line with rfl | ⟨front, last, rfl⟩
  · exact Yields.pure
  · have hlast : IsAt text (start + front.length) [last] := by simpa using h.drop front.length
    rw [List.concat_eq_append, List.length_append, List.length_singleton, if_neg (Nat.succ_ne_zero _),
      List.getLast?_concat, List.dropLast_concat]
    refine hlast.bind_peek ?_
    by_cases hreturn : last = carriageReturn
    · rw [if_pos hreturn, if_pos (congrArg some hreturn)]
      exact Yields.pure
    · rw [if_neg hreturn, if_neg fun hsome => hreturn (Option.some.inj hsome), List.length_append,
        List.length_singleton]
      exact Yields.pure

theorem vendorOf_eq_none_of_length (h : line.length < 6) : vendorOf line = none := by
  refine if_neg fun hblanks => ?_
  have hlength := congrArg List.length hblanks
  simp only [List.length_take, List.length_drop, List.length_cons, List.length_nil] at hlength
  omega

theorem scans_vendorAt (h : IsAt text start line) :
    Scans text (vendorAt start line.length) (vendorOf line) := by
  rw [vendorAt]
  refine Yields.unless (fun hlength => ?_) vendorOf_eq_none_of_length
  have hdigits : ((line.take 4).length = 4) := by
    rw [List.length_take]
    omega
  have hid : Scans text (hex4 start) (idOf (line.take 4)) := scans_hex4 (h.take 4) hdigits
  have hblanks : Scans text (twoBlanks (start + 4)) (decide ((line.drop 4).take 2 = [blank, blank])) := by
    refine scans_twoBlanks (h.drop 4) ?_
    rw [List.length_drop]
    omega
  match line, hlength with
  | character :: line, _ =>
      refine h.bind_peek ?_
      refine Yields.unless (fun _ => hid.bind ?_) fun htab => ?_
      · unfold vendorOf
        cases idOf ((character :: line).take 4) with
        | none =>
            rw [ite_self]
            exact Yields.pure
        | some id =>
            refine hblanks.bind ?_
            simp only [decide_eq_true_iff]
            exact Yields.pure
      · subst htab
        rw [vendorOf, List.take_succ_cons, idOf_tabulator, ite_self]

theorem scans_endsBlock (h : IsAt text start line) :
    Scans text (endsBlock start line.length) (decide (IsBlockHeader line)) := by
  cases line with
  | nil =>
      rw [decide_eq_false (by simp [IsBlockHeader])]
      exact Yields.pure
  | cons character line =>
      rw [endsBlock, List.length_cons, if_neg (Nat.succ_ne_zero _)]
      refine h.bind_peek ?_
      have hsame : (character != byte '#' && character != tabulator && character != blank) =
          decide (IsBlockHeader (character :: line)) := by
        simp [IsBlockHeader, bne, beq_eq_decide, Bool.and_assoc]
      rw [hsame]
      exact Yields.pure

theorem scans_isDeviceAt (h : IsAt text start line) :
    Scans text (isDeviceAt matched device start line.length)
      (decide (matched = true ∧ deviceOf line = some device)) := by
  rw [isDeviceAt]
  by_cases hshort : matched = true ∧ 8 ≤ line.length
  case neg =>
    have hskip : (!matched || decide (line.length < 8)) = true := by
      cases matched with
      | false => rfl
      | true => simpa using hshort
    rw [if_pos hskip, decide_eq_false]
    · exact Yields.pure
    · rintro ⟨hmatched, hdevice⟩
      unfold deviceOf at hdevice
      split at hdevice
      case isTrue hentry => exact hshort ⟨hmatched, hentry.1⟩
      case isFalse => cases hdevice
  obtain ⟨rfl, hlength⟩ := hshort
  rw [if_neg (by simpa using hlength)]
  match line, hlength with
  | character :: line, hlength =>
      refine h.bind_peek ?_
      by_cases htab : character = tabulator
      case neg =>
        rw [if_pos htab, decide_eq_false]
        · exact Yields.pure
        · rintro ⟨-, hdevice⟩
          unfold deviceOf at hdevice
          split at hdevice
          case isTrue hentry => exact htab (Option.some.inj hentry.2.1)
          case isFalse => cases hdevice
      subst htab
      rw [if_neg (not_not_intro rfl)]
      have hdigits : (((tabulator :: line).drop 1).take 4).length = 4 := by
        rw [List.length_take, List.length_drop]
        omega
      refine (scans_hex4 ((h.drop 1).take 4) hdigits).bind ?_
      have hblanks : Scans text (twoBlanks (start + 5))
          (decide (((tabulator :: line).drop 5).take 2 = [blank, blank])) := by
        refine scans_twoBlanks (h.drop 5) ?_
        rw [List.length_drop]
        omega
      have hdevice : deviceOf (tabulator :: line) =
          if ((tabulator :: line).drop 5).take 2 = [blank, blank] then
            idOf (((tabulator :: line).drop 1).take 4)
          else none := by
        simp only [deviceOf, hlength, List.head?_cons, true_and]
      rw [hdevice]
      cases hid : idOf (((tabulator :: line).drop 1).take 4) with
      | none =>
          rw [ite_self]
          exact Yields.pure
      | some id =>
          simp only [true_and]
          by_cases hsame : id = device
          · subst hsame
            rw [if_neg (not_not_intro rfl)]
            have hsame : ((if ((tabulator :: line).drop 5).take 2 = [blank, blank] then some id else none) =
                some id) ↔ ((tabulator :: line).drop 5).take 2 = [blank, blank] := by
              split
              case isTrue hspaces => exact iff_of_true rfl hspaces
              case isFalse hspaces => exact iff_of_false nofun hspaces
            rw [decide_eq_decide.mpr hsame]
            exact hblanks
          · rw [if_pos hsame, decide_eq_false]
            · exact Yields.pure
            · split
              · exact fun hsome => hsame (Option.some.inj hsome)
              · exact nofun

/-- The result for an entry. -/
def nameOf (capacity : Nat) (line : Bytes) : Bool × Bytes :=
  if entryName line = [] ∨ (entryName line).any (· < 32) = true then (false, [])
  else ((printedName (entryName line)).take (capacity - 1) ≠ [], (printedName (entryName line)).take (capacity - 1))

theorem scans_nameAt {capacity : Nat} (h : IsAt text start line) (hlength : 7 ≤ line.length) :
    Scans text (nameAt capacity start line.length) (nameOf capacity line) := by
  set characters := line.drop 7 with hcharacters
  have hat : IsAt text (start + 7) characters := h.drop 7
  have hleft : line.length - 7 = characters.length := by rw [hcharacters, List.length_drop]
  set run := characters.takeWhile (· == blank)
  set kept := characters.dropWhile (· == blank)
  have hsplit : run ++ kept = characters := List.takeWhile_append_dropWhile
  have hparts : run.length + kept.length = characters.length := by rw [← List.length_append, hsplit]
  have hfirst : IsAt text (start + 7 + run.length) kept := by
    have hdrop : characters.drop run.length = kept := by rw [← hsplit, List.drop_left]
    rw [← hdrop]
    exact hat.drop run.length
  have hname : IsAt text (start + 7 + run.length) (entryName line) :=
    List.IsPrefix.trans (List.rdropWhile_prefix _ _) hfirst
  unfold nameAt
  rw [hleft]
  refine (scans_skipBlanks hat).bind ?_
  have hstop : start + line.length = start + 7 + run.length + kept.length := by omega
  rw [hstop, Nat.add_sub_cancel_left]
  refine (scans_trimBlanks hfirst).bind ?_
  have htrim : kept.rdropWhile isSpace = entryName line := rfl
  rw [htrim]
  by_cases hempty : entryName line = []
  · have hresult : nameOf capacity line = (false, []) := if_pos (.inl hempty)
    rw [hresult, hempty]
    exact Yields.pure
  rw [if_neg (by simpa using hempty)]
  refine (scans_hasControl hname).bind ?_
  by_cases hcontrol : (entryName line).any (· < 32) = true
  · have hresult : nameOf capacity line = (false, []) := if_pos (.inr hcontrol)
    rw [if_pos hcontrol, hresult]
    exact Yields.pure
  rw [if_neg hcontrol, nameOf, if_neg (not_or.mpr ⟨hempty, hcontrol⟩)]
  have hcopy := scans_copyName (hname.take (capacity - 1))
  rw [List.length_take, Nat.min_comm, printedName, List.map_take] at hcopy
  exact hcopy.bind Yields.pure

/-! ### The lookup -/

/-- The result for the first entry, if there is one. -/
def lookupOf (vendor device capacity : Nat) (matched : Bool) (lines : List Bytes) : Bool × Bytes :=
  match scanLines vendor device matched lines with
  | none => (false, [])
  | some line => nameOf capacity line

theorem length_of_deviceOf {id : Nat} (h : deviceOf line = some id) : 8 ≤ line.length := by
  unfold deviceOf at h
  split at h
  case isTrue hentry => exact hentry.1
  case isFalse => cases h

theorem idLine_prefix : idLine line <+: line := by
  rw [idLine]
  split
  · exact (List.dropLast_prefix _).trans (List.takeWhile_prefix _)
  · exact List.takeWhile_prefix _

/-- One line, then the lines after it. -/
theorem scans_lookupFrom {capacity fuel : Nat} (hfuel : text.length - start ≤ fuel) :
    Scans text (lookupFrom text.length vendor device capacity fuel start matched)
      (lookupOf vendor device capacity matched (textLines (text.drop start))) := by
  induction fuel generalizing start matched with
  | zero =>
      rw [List.drop_eq_nil_of_le (by omega)]
      exact Yields.pure
  | succ fuel ih =>
      rw [lookupFrom]
      by_cases hend : text.length ≤ start
      · rw [if_pos hend, List.drop_eq_nil_of_le hend]
        exact Yields.pure
      have hne : text.drop start ≠ [] := by
        rw [ne_eq, List.drop_eq_nil_iff]
        exact hend
      rw [if_neg hend, textLines_eq hne]
      set raw := (text.drop start).takeWhile (· != lineFeed) with hraw
      have hat : IsAt text start raw := List.takeWhile_prefix _
      have hfeed : lineFeed ∉ raw := fun hmem => by simpa using List.mem_takeWhile_imp hmem
      have hline : IsAt text start (idLine raw) := List.IsPrefix.trans idLine_prefix hat
      have hbound : raw.length ≤ text.length - start := by
        rw [← List.length_drop]
        exact List.IsPrefix.length_le hat
      rw [← List.length_drop]
      refine (scans_lineEnd rfl).bind ?_
      refine (scans_lineLength hat hfeed).bind ?_
      rw [← hraw]
      set next := if start + raw.length < text.length then start + raw.length + 1 else text.length with hnext
      have hrest : (text.drop start).drop (raw.length + 1) = text.drop next := by
        rw [List.drop_drop, hnext]
        split
        case isTrue => rfl
        case isFalse hlast => rw [List.drop_eq_nil_of_le (by omega), List.drop_length]
      have hless : text.length - next ≤ fuel := by
        rw [hnext]
        split <;> omega
      rw [hrest]
      refine (scans_vendorAt hline).bind ?_
      rw [lookupOf, scanLines]
      cases hvendor : vendorOf (idLine raw) with
      | some id =>
          have hheader := isBlockHeader_of_vendorOf hvendor
          have hstays : stays vendor matched (idLine raw) = (id == vendor) := by rw [stays, hvendor]
          rw [if_neg (by simp [deviceOf_eq_none_of_header hheader]), hstays]
          exact ih hless
      | none =>
          refine (scans_endsBlock hline).bind ?_
          by_cases hheader : IsBlockHeader (idLine raw)
          · have hstays : stays vendor matched (idLine raw) = false := by rw [stays, hvendor, if_pos hheader]
            rw [if_pos (decide_eq_true hheader), if_neg (by simp [deviceOf_eq_none_of_header hheader]), hstays]
            exact ih hless
          rw [if_neg (by simpa using hheader)]
          refine (scans_isDeviceAt hline).bind ?_
          simp only [decide_eq_true_iff]
          by_cases hentry : matched = true ∧ deviceOf (idLine raw) = some device
          · rw [if_pos hentry, if_pos hentry]
            exact scans_nameAt hline (Nat.le_of_succ_le (length_of_deviceOf hentry.2))
          · rw [if_neg hentry, if_neg hentry, stays_of_not_header hheader]
            exact ih hless

theorem pciIdLookup_scans (text : Bytes) (vendor device capacity : Nat) :
    Scans text (pciIdLookup text.length vendor device capacity)
      (lookupOf vendor device capacity false (textLines text)) :=
  scans_lookupFrom (Nat.le_refl _)

/-- What the lookup gives for a text, with room for so many characters and the terminator's included. -/
structure NamesVendorDevice (text : Bytes) (vendor device capacity : Nat) (found : Bool) (name : Bytes) : Prop where
  fits : name.length < capacity
  printable : ∀ character ∈ name, isPrintable character = true
  unknown : (¬ ∃ line, IsFirstEntry vendor device (textLines text) line) → found = false ∧ name = []
  refused : ∀ line, IsFirstEntry vendor device (textLines text) line →
    (entryName line = [] ∨ ∃ character ∈ entryName line, character < 32) → found = false ∧ name = []
  named : ∀ line, IsFirstEntry vendor device (textLines text) line → entryName line ≠ [] →
    (∀ character ∈ entryName line, 32 ≤ character) →
    name = (printedName (entryName line)).take (capacity - 1) ∧ (found = true ↔ 1 < capacity)

theorem nameOf_refused {capacity : Nat}
    (h : entryName line = [] ∨ ∃ character ∈ entryName line, character < 32) :
    nameOf capacity line = (false, []) := by
  refine if_pos ?_
  simpa [List.any_eq_true] using h

theorem nameOf_named {capacity : Nat} (hname : entryName line ≠ [])
    (hplain : ∀ character ∈ entryName line, 32 ≤ character) :
    nameOf capacity line = (decide ((printedName (entryName line)).take (capacity - 1) ≠ []),
      (printedName (entryName line)).take (capacity - 1)) := by
  refine if_neg ?_
  rintro (hempty | hcontrol)
  · exact hname hempty
  · obtain ⟨character, hmem, hlow⟩ := List.any_eq_true.mp hcontrol
    exact absurd (hplain character hmem) (UInt8.not_le.mpr (by simpa using hlow))

theorem isPrintable_printedName {name : Bytes} (hplain : ∀ character ∈ name, 32 ≤ character) :
    ∀ character ∈ printedName name, isPrintable character = true := by
  intro character hcharacter
  obtain ⟨given, hgiven, rfl⟩ := List.mem_map.mp hcharacter
  have hlow : 32 ≤ given := hplain given hgiven
  split
  case isTrue hhigh =>
    have hle : given ≤ 0x7E := by
      rw [UInt8.le_iff_toNat_le]
      exact Nat.le_of_lt_succ (UInt8.lt_iff_toNat_lt.mp hhigh)
    simp [isPrintable, hlow, hle]
  case isFalse => decide

theorem nameOf_fits {capacity : Nat} (hcapacity : 1 ≤ capacity) : (nameOf capacity line).2.length < capacity := by
  unfold nameOf
  split
  case isTrue => exact hcapacity
  case isFalse =>
    rw [List.length_take]
    omega

theorem nameOf_printable {capacity : Nat} :
    ∀ character ∈ (nameOf capacity line).2, isPrintable character = true := by
  by_cases hplain : ∀ character ∈ entryName line, 32 ≤ character
  · unfold nameOf
    split
    case isTrue => exact nofun
    case isFalse => exact fun character hmem => isPrintable_printedName hplain character (List.mem_of_mem_take hmem)
  · push Not at hplain
    obtain ⟨character, hmem, hlow⟩ := hplain
    rw [nameOf_refused (.inr ⟨character, hmem, UInt8.not_le.mp hlow⟩)]
    exact nofun

theorem namesDevice_lookupOf {capacity : Nat} (hcapacity : 1 ≤ capacity) :
    NamesVendorDevice text vendor device capacity (lookupOf vendor device capacity false (textLines text)).1
      (lookupOf vendor device capacity false (textLines text)).2 := by
  cases hscan : scanLines vendor device false (textLines text) with
  | none =>
      have hresult : lookupOf vendor device capacity false (textLines text) = (false, []) := by
        rw [lookupOf, hscan]
      have hnone : ∀ line, ¬ IsFirstEntry vendor device (textLines text) line := by
        intro line hfirst
        rw [scanLines_iff.mpr hfirst] at hscan
        cases hscan
      rw [hresult]
      exact {
        fits := hcapacity
        printable := nofun
        unknown := fun _ => ⟨rfl, rfl⟩
        refused := fun line hfirst => absurd hfirst (hnone line)
        named := fun line hfirst => absurd hfirst (hnone line) }
  | some first =>
      have hresult : lookupOf vendor device capacity false (textLines text) = nameOf capacity first := by
        rw [lookupOf, hscan]
      have hfirst := scanLines_iff.mp hscan
      have hsame : ∀ line, IsFirstEntry vendor device (textLines text) line → line = first := by
        intro line hline
        exact Option.some.inj ((scanLines_iff.mpr hline).symm.trans hscan)
      rw [hresult]
      refine {
        fits := nameOf_fits hcapacity
        printable := nameOf_printable
        unknown := fun hnone => absurd ⟨first, hfirst⟩ hnone
        refused := fun line hline hbad => ?_
        named := fun line hline hname hplain => ?_ }
      · obtain rfl := hsame line hline
        rw [nameOf_refused hbad]
        exact ⟨rfl, rfl⟩
      · obtain rfl := hsame line hline
        rw [nameOf_named hname hplain]
        refine ⟨rfl, ?_⟩
        have hlength : (printedName (entryName line)).length ≠ 0 := by
          rw [printedName, List.length_map]
          exact fun hzero => hname (List.length_eq_zero_iff.mp hzero)
        rw [decide_eq_true_iff, ← List.length_pos_iff, List.length_take]
        omega

/-- Every read lies in the text, the first entry gives the name, and lines about something else make no
difference. -/
theorem pciIdLookup_exact (text : Bytes) (vendor device capacity : Nat) (hcapacity : 1 ≤ capacity) :
    ∃ found name,
      Yields (· < text.length) (text.getD · 0) (pciIdLookup text.length vendor device capacity) (found, name) ∧
      NamesVendorDevice text vendor device capacity found name ∧
      ∀ text' : Bytes, Relation.EqvGen (Inserted vendor) (textLines text) (textLines text') →
        (pciIdLookup text'.length vendor device capacity).run (text'.getD · 0) = (found, name) := by
  refine ⟨_, _, pciIdLookup_scans text vendor device capacity, namesDevice_lookupOf hcapacity, ?_⟩
  intro text' hlines
  rw [(pciIdLookup_scans text' vendor device capacity).run_eq, lookupOf, ← scanLines_eqvGen hlines]

def smallPciIds : Bytes := ascii "10de  NVIDIA\n\t1EB1  TU104\n"

theorem pciIdLookup_exact_named :
    (pciIdLookup 26 0x10DE 0x1EB1 4).run (smallPciIds.getD · 0) = (true, ascii "TU1") ∧
    ∃ found name,
      Yields (· < 26) (smallPciIds.getD · 0) (pciIdLookup 26 0x10DE 0x1EB1 4) (found, name) ∧
      NamesVendorDevice smallPciIds 0x10DE 0x1EB1 4 found name ∧
      ∀ text' : Bytes, Relation.EqvGen (Inserted 0x10DE) (textLines smallPciIds) (textLines text') →
        (pciIdLookup text'.length 0x10DE 0x1EB1 4).run (text'.getD · 0) = (found, name) :=
  ⟨by decide +kernel, pciIdLookup_exact smallPciIds 0x10DE 0x1EB1 4 (by decide)⟩

end CsmVgaSelector
